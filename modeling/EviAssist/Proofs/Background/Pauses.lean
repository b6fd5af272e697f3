import EviAssist.Proofs.Background
import EviAssist.Proofs.Validator.Pauses
import Mathlib.Algebra.Order.Group.Multiset

/-!
# Pauses of checking

Checks may fail at the same time, documents are closed while theirs is asked, and settings change
in between. Still every pause is announced once with its message, and so is its end.

* `Background.mem_events_step_iff`: what is announced in a step.
* `Background.exists_compare_of_mem_changes`: where changes of settings come from.
* `Background.paused_mem_step_iff`, `Background.resumed_mem_step_iff`: the steps in which a pause
  begins or ends.
* `Background.pauses_take_turns`: what is announced of pauses in a whole run.
-/

namespace EviAssist.Background

variable {b : Background} {s : Step} {event : ValidationEvent}

/-! ## Announcements of a step -/

theorem mem_events_step_iff :
    event ∈ (b.step s).2 ↔
      ∃ sec, b.section? s = some sec ∧ event ∈ (sec.run b.directory b.validator).2 := by
  cases hs : b.section? s with
  | none => simp [step_of_section?_eq_none hs]
  | some sec => simp [step_of_section?_eq_some hs]

theorem section?_eq_conclude_iff {document : Document} {answer : Except LintError LintResult} :
    b.section? s = some (.conclude document answer) ↔
      ∃ check ∈ b.running, s = .conclude check answer ∧ check.job.document = document := by
  constructor
  · intro hs
    cases s with
    | conclude check answer' =>
      simp only [section?] at hs
      split at hs
      · cases hs
        exact ⟨check, ‹_›, rfl, rfl⟩
      · cases hs
    | reload change =>
      simp only [section?] at hs
      split at hs <;> cases hs
    | _ => cases hs
  · rintro ⟨check, hc, rfl, rfl⟩
    exact if_pos hc

theorem section?_eq_reload_iff {validation : ValidationSettings} {executableChanged : Bool} :
    b.section? s = some (.reload validation executableChanged) ↔
      ∃ change ∈ b.configured, s = .reload change ∧ change.validation = validation ∧
        change.executableChanged = executableChanged := by
  constructor
  · intro hs
    cases s with
    | conclude check answer =>
      simp only [section?] at hs
      split at hs <;> cases hs
    | reload change =>
      simp only [section?] at hs
      split at hs
      · cases hs
        exact ⟨change, ‹_›, rfl, rfl, rfl⟩
      · cases hs
    | _ => cases hs
  · rintro ⟨change, hc, rfl, rfl, rfl⟩
    exact if_pos hc

/-- **When a pause is announced**: at the end of a check of an open document that found no program,
or could not start it, and only when checking is not paused already. -/
theorem paused_mem_step_iff :
    .paused ∈ (b.step s).2 ↔
      ∃ check ∈ b.running, ∃ e, s = .conclude check (.error e) ∧
        ((∃ program, e = .toolNotFound program) ∨ ∃ program cause, e = .spawn program cause) ∧
        b.validator.documents.contains check.job.document.path = true ∧
        b.validator.isPaused = false := by
  rw [mem_events_step_iff]
  constructor
  · rintro ⟨sec, hs, hm⟩
    obtain ⟨document, e, rfl, he, ho, hp⟩ := Validator.paused_mem_run_iff.1 hm
    obtain ⟨check, hc, rfl, rfl⟩ := section?_eq_conclude_iff.1 hs
    exact ⟨check, hc, e, rfl, Validator.pausesValidation_iff.1 he, ho, hp⟩
  · rintro ⟨check, hc, e, rfl, he, ho, hp⟩
    refine ⟨_, section?_eq_conclude_iff.2 ⟨check, hc, rfl, rfl⟩, ?_⟩
    exact Validator.paused_mem_run_iff.2
      ⟨_, e, rfl, Validator.pausesValidation_iff.2 he, ho, hp⟩

/-- **When the end of a pause is announced**: when settings with another program apply. -/
theorem resumed_mem_step_iff :
    .resumed ∈ (b.step s).2 ↔
      ∃ change ∈ b.configured, s = .reload change ∧ change.executableChanged = true ∧
        b.validator.isPaused = true := by
  rw [mem_events_step_iff]
  constructor
  · rintro ⟨sec, hs, hm⟩
    obtain ⟨validation, rfl, hp⟩ := Validator.resumed_mem_run_iff.1 hm
    obtain ⟨change, hc, rfl, -, he⟩ := section?_eq_reload_iff.1 hs
    exact ⟨change, hc, rfl, he, hp⟩
  · rintro ⟨change, hc, rfl, he, hp⟩
    refine ⟨_, section?_eq_reload_iff.2 ⟨change, hc, rfl, rfl, he⟩, ?_⟩
    exact Validator.resumed_mem_run_iff.2 ⟨_, rfl, hp⟩

/-! ## Changes of settings -/

/-- The changes of settings that do not apply to the validator yet. -/
def changes (b : Background) : Multiset Change :=
  b.compared + b.configured

theorem mem_changes_step {change : Change} (hc : change ∈ (b.step s).1.changes) :
    change ∈ b.changes ∨ s = .compare change.validation change.tools ∧
      change.executableChanged = !b.tools.sameExecutable change.tools := by
  rw [step_eq_move] at hc
  change change ∈ (b.move s).changes at hc
  cases s with
  | compare validation tools =>
    simp only [move, changes, Multiset.cons_add] at hc
    obtain rfl | hc := Multiset.mem_cons.1 hc
    · exact .inr ⟨rfl, rfl⟩
    · exact .inl hc
  | configure other =>
    simp only [move] at hc
    split at hc
    · rename_i hm
      obtain ⟨rest, hr⟩ := Multiset.exists_cons_of_mem hm
      simp only [changes, hr, Multiset.erase_cons_head, Multiset.add_cons] at hc
      rw [changes, hr, Multiset.cons_add]
      exact .inl hc
    · exact .inl hc
  | reload other =>
    simp only [move, changes] at hc
    exact .inl (Multiset.mem_of_le (add_le_add_right (Multiset.erase_le _ _) _) hc)
  | wake job =>
    simp only [move] at hc
    split at hc
    · split at hc <;> exact .inl hc
    · exact .inl hc
  | accept _ | draw _ | install _ _ | ask _ | conclude _ _ | finish _ =>
    simp only [move] at hc
    split at hc <;> exact .inl hc
  | close _ | cancel _ _ | reconfigure _ => exact .inl hc

/-- **Where changes of settings come from**: they have been compared with the program in use. -/
theorem exists_compare_of_mem_changes {steps : List Step} {change : Change}
    (hc : change ∈ (b.run steps).changes) :
    change ∈ b.changes ∨ ∃ before later,
      steps = before ++ .compare change.validation change.tools :: later ∧
        change.executableChanged = !(b.run before).tools.sameExecutable change.tools := by
  induction steps generalizing b with
  | nil => exact .inl hc
  | cons s steps ih =>
    obtain hm | ⟨before, later, rfl, he⟩ := ih hc
    · obtain hm | ⟨rfl, he⟩ := mem_changes_step hm
      · exact .inl hm
      · exact .inr ⟨[], steps, rfl, he⟩
    · exact .inr ⟨s :: before, later, rfl, he⟩

/-! ## Runs -/

/-- What is announced in a run tells of all pauses. -/
theorem tells_run (directory : Option Path) (tools : ToolSettings) (settings : ValidationSettings)
    (steps : List Step) :
    Validator.Tells false ((start directory tools settings).announced steps)
      ((start directory tools settings).run steps).validator.isPaused := by
  have hv : (start directory tools settings).validator =
      Validator.after directory settings [] := rfl
  obtain ⟨hr, ha⟩ := validator_run steps hv
  rw [hr, ha]
  exact Validator.tells_announced directory settings [] _

/-- **Pauses take turns with their ends.** In every run checking is paused when a pause was
announced last; pauses and their ends are announced by turns, and each pause right after its
message. A pause begins when a check of an open document finds no program or cannot start it, and
ends when settings apply that name another program than the one in use when they came. -/
theorem pauses_take_turns (directory : Option Path) (tools : ToolSettings)
    (settings : ValidationSettings) (steps : List Step) :
    let first := start directory tools settings
    let b := first.run steps
    Validator.TellsPauses (first.announced steps) b.validator.isPaused ∧
      (∀ s, .paused ∈ (b.step s).2 ↔
        ∃ check ∈ b.running, ∃ e, s = .conclude check (.error e) ∧
          ((∃ program, e = .toolNotFound program) ∨ ∃ program cause, e = .spawn program cause) ∧
          b.validator.documents.contains check.job.document.path = true ∧
          b.validator.isPaused = false) ∧
      (∀ s, .resumed ∈ (b.step s).2 ↔
        ∃ change ∈ b.configured, s = .reload change ∧ change.executableChanged = true ∧
          b.validator.isPaused = true) ∧
      ∀ change ∈ b.configured, ∃ before later,
        steps = before ++ .compare change.validation change.tools :: later ∧
          change.executableChanged = !(first.run before).tools.sameExecutable change.tools := by
  intro first b
  refine ⟨(tells_run directory tools settings steps).tellsPauses, fun _ => paused_mem_step_iff,
    fun _ => resumed_mem_step_iff, fun change hc => ?_⟩
  obtain hm | hfound := exists_compare_of_mem_changes (Multiset.mem_add.2 (.inr hc))
  · exact absurd hm (Multiset.notMem_zero _)
  · exact hfound

end EviAssist.Background
