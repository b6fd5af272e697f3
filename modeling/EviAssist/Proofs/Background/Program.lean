import EviAssist.Proofs.Background.Stopped

/-!
# The program that pauses checking

A check asks the program that is in use when it starts, and may end long after that. When it ends
nobody compares its program with the one in use by then, so a failure of a program that has been
replaced meanwhile pauses checking as well.

* `Background.SetsPause`: whether checking comes to be paused in a step.
* `Background.adopted?`: the last settings that come into use in some steps.
* `Background.exists_ask_of_mem_running`: which program a check asks.
* `Background.pauses_for_program_in_use_iff`: when a check pauses for the program in use.
-/

namespace EviAssist.Background

/-! ## Pausing -/

/-- Whether checking comes to be paused in a step. -/
def SetsPause (b : Background) (s : Step) : Prop :=
  b.validator.isPaused = false ∧ (b.step s).1.validator.isPaused = true

variable {b : Background} {s : Step} {check : Check}

/-- The section in which checking comes to be paused is the end of a check, for an error that will
not go away by itself. -/
theorem exists_conclude_of_isPaused_run {directory : Option Path} {v : Validator}
    {sec : Validator.Section} (hv : v.isPaused = false)
    (hp : (sec.run directory v).1.isPaused = true) :
    ∃ document e, sec = .conclude document (.error e) ∧ e.pausesValidation = true ∧
      v.documents.contains document.path = true ∧
      (sec.run directory v).2 = [.message (Validator.pauseMessage e) true, .paused] := by
  cases sec with
  | accept document =>
    simp only [Validator.Section.run, Validator.accept] at hp
    split at hp <;> simp [hv] at hp
  | close path =>
    simp only [Validator.Section.run, Validator.close] at hp
    split at hp <;> simp [hv] at hp
  | reload settings executableChanged =>
    simp [Validator.Section.run, Validator.reload, hv] at hp
  | conclude document answer =>
    simp only [Validator.Section.run, Validator.conclude] at hp ⊢
    split at hp
    · rename_i ho
      cases answer with
      | ok result => simp [Feature.reportOf, Except.map, Validator.publish, hv] at hp
      | error e =>
        simp only [Feature.reportOf, Except.map] at hp
        split at hp
        · rename_i he
          refine ⟨document, e, rfl, he, ho, ?_⟩
          simp [Feature.reportOf, Except.map, ho, he, Validator.pause, hv]
        · simp [hv] at hp
    · simp [hv] at hp

/-- **What pauses checking**: the end of a check of an open document with an error that will not go
away by itself. -/
theorem exists_conclude_of_setsPause (hs : SetsPause b s) :
    ∃ check e, s = .conclude check (.error e) ∧ check ∈ b.running ∧
      (b.step s).2 = [.message (Validator.pauseMessage e) true, .paused] := by
  obtain ⟨hv, hp⟩ := hs
  cases hsec : b.section? s with
  | none =>
    rw [step_of_section?_eq_none hsec, (b.move_eq s).2, hv] at hp
    cases hp
  | some sec =>
    rw [step_of_section?_eq_some hsec] at hp ⊢
    obtain ⟨document, e, rfl, -, -, he⟩ := exists_conclude_of_isPaused_run hv hp
    cases s with
    | conclude check answer =>
      simp only [section?] at hsec
      split at hsec
      · cases hsec
        exact ⟨check, e, rfl, ‹_›, he⟩
      · cases hsec
    | reload change =>
      simp only [section?] at hsec
      split at hsec <;> cases hsec
    | _ => cases hsec

/-! ## The program in use -/

/-- Whether a check asks the program in use. -/
def asksInUse (b : Background) (check : Check) : Bool :=
  ({ executable := check.program } : ToolSettings).sameExecutable b.tools

/-- The settings that come into use in a step, if any do. -/
def adopts? (b : Background) : Step → Option ToolSettings
  | .reconfigure tools => some tools
  | .configure change => if change ∈ b.compared then some change.tools else none
  | _ => none

/-- The last settings that come into use in some steps, if any do. -/
def adopted? (b : Background) : List Step → Option ToolSettings
  | [] => none
  | s :: steps => ((b.step s).1.adopted? steps).or (b.adopts? s)

theorem asksInUse_iff :
    b.asksInUse check = true ↔
      check.program.map Path.components = b.tools.executable.map Path.components :=
  ToolSettings.sameExecutable_iff

theorem tools_step (b : Background) (s : Step) :
    (b.step s).1.tools = (b.adopts? s).getD b.tools := by
  rw [step_eq_move]
  cases s with
  | wake job =>
    simp only [move, adopts?]
    split
    · split <;> rfl
    · rfl
  | accept _ | draw _ | install _ _ | configure _ | ask _ | conclude _ _ | finish _ =>
    simp only [move, adopts?]
    split <;> rfl
  | close _ | cancel _ _ | reconfigure _ | compare _ _ | reload _ => rfl

/-- **The settings in use after some steps** are the last that came into use in them. -/
theorem tools_run (b : Background) (steps : List Step) :
    (b.run steps).tools = (b.adopted? steps).getD b.tools := by
  induction steps generalizing b with
  | nil => rfl
  | cons s steps ih =>
    rw [run, ih, adopted?, tools_step]
    cases (b.step s).1.adopted? steps <;> rfl

theorem mem_running_step (hc : check ∈ (b.step s).1.running) :
    check ∈ b.running ∨ s = .ask check.job ∧ check.program = b.tools.executable := by
  rw [step_eq_move] at hc
  change check ∈ (b.move s).running at hc
  cases s with
  | ask job =>
    simp only [move] at hc
    split at hc
    · obtain rfl | hc := Multiset.mem_cons.1 hc
      · exact .inr ⟨rfl, rfl⟩
      · exact .inl hc
    · exact .inl hc
  | conclude other answer =>
    simp only [move] at hc
    split at hc
    · exact .inl (Multiset.mem_of_mem_erase hc)
    · exact .inl hc
  | wake job =>
    simp only [move] at hc
    split at hc
    · split at hc <;> exact .inl hc
    · exact .inl hc
  | accept _ | draw _ | install _ _ | configure _ | finish _ =>
    simp only [move] at hc
    split at hc <;> exact .inl hc
  | close _ | cancel _ _ | reconfigure _ | compare _ _ | reload _ => exact .inl hc

/-- **Which program a check asks**: the one in use in the step in which it asked. -/
theorem exists_ask_of_mem_running {steps : List Step} (hc : check ∈ (b.run steps).running) :
    check ∈ b.running ∨ ∃ before later, steps = before ++ .ask check.job :: later ∧
      check.program = (b.run before).tools.executable := by
  induction steps generalizing b with
  | nil => exact .inl hc
  | cons s steps ih =>
    obtain hm | ⟨before, later, rfl, hp⟩ := ih hc
    · obtain hm | ⟨rfl, hp⟩ := mem_running_step hm
      · exact .inl hm
      · exact .inr ⟨[], steps, rfl, hp⟩
    · exact .inr ⟨s :: before, later, rfl, hp⟩

/-- A check asks the program in use unless settings with another one came into use after it
asked. -/
theorem asksInUse_run_iff {before : Background} {later : List Step}
    (hp : check.program = before.tools.executable) :
    (before.run (.ask check.job :: later)).asksInUse check = true ↔
      ∀ tools, (before.step (.ask check.job)).1.adopted? later = some tools →
        tools.sameExecutable before.tools = true := by
  have ht : (before.step (.ask check.job)).1.tools = before.tools := tools_step before _
  rw [asksInUse_iff, run, tools_run, ht, hp]
  cases (before.step (.ask check.job)).1.adopted? later with
  | none => simp
  | some tools =>
    simp only [Option.getD_some, Option.some.injEq, forall_eq', ToolSettings.sameExecutable_iff]
    exact eq_comm

/-! ## Periods with one program -/

/-- Whether the program in use is the one that some settings name. -/
def Uses (tools : ToolSettings) (b : Background) : Prop :=
  tools.sameExecutable b.tools = true

/-- Whether a check pauses checking in a step, and asks another program than the one in use. -/
def PausesForOther (b : Background) (s : Step) : Prop :=
  SetsPause b s ∧ ∃ check answer, s = .conclude check answer ∧ b.asksInUse check = false

theorem occurs_pausesForOther (hb : b.OnlyEvi) (hv : b.validator.isPaused = false)
    (hc : check ∈ b.running) (hu : b.asksInUse check = false) :
    Occurs (Uses b.tools) PausesForOther b := by
  have he : check.job.document.isEvi = true := by
    apply hb
    refine Multiset.mem_add.2 (.inr (Multiset.mem_add.2 (.inr ?_)))
    exact Multiset.mem_map_of_mem (fun check : Check => check.job.document) hc
  have huse : Uses b.tools b := ToolSettings.sameExecutable_iff.2 rfl
  -- The document may be closed by now, but it can be opened again.
  let opened : Background := (b.step (.accept check.job.document)).1
  have ht : opened.tools = b.tools := tools_step b _
  have hpaused : opened.validator.isPaused = false := by
    change (b.step (.accept check.job.document)).1.validator.isPaused = false
    rw [step_of_section?_eq_some rfl]
    simp only [Validator.Section.run, Validator.accept, he, if_true]
    exact hv
  have hmem : check ∈ opened.running := by
    change check ∈ (b.step (.accept check.job.document)).1.running
    rw [step_eq_move]
    simp only [move]
    split <;> exact hc
  have hopen : opened.validator.documents.contains check.job.document.path = true := by
    change (b.step (.accept check.job.document)).1.validator.documents.contains _ = true
    rw [contains_step]
    simp [Step.opens?, Validator.Section.opens?, he, Path.same_self]
  apply Occurs.later huse (.accept check.job.document)
  apply Occurs.now (s := .conclude check (.error (.toolNotFound check.program)))
  · change Uses b.tools opened
    rw [Uses, ht]
    exact huse
  · refine ⟨⟨hpaused, (isPaused_conclude_iff hmem rfl).2 (.inr hopen)⟩, check, _, rfl, ?_⟩
    change opened.asksInUse check = false
    rw [asksInUse, ht]
    exact hu

/-- **When a check can pause checking for another program.** As long as the program in use stays
the same, a check can pause checking for another program if one that has asked another program is
on its way already. -/
theorem occurs_pausesForOther_iff (hb : b.OnlyEvi) (hv : b.validator.isPaused = false) :
    Occurs (Uses b.tools) PausesForOther b ↔
      ∃ check ∈ b.running, b.asksInUse check = false := by
  constructor
  · intro ho
    by_contra hn
    have hall : ∀ check ∈ b.running,
        check.program.map Path.components = b.tools.executable.map Path.components := by
      intro check hc
      rw [← asksInUse_iff, ← Bool.not_eq_false]
      exact fun hu => hn ⟨check, hc, hu⟩
    refine not_occurs_of_invariant (I := fun later => ∀ check ∈ later.running,
      check.program.map Path.components = b.tools.executable.map Path.components) ?_ hall ho
    intro later s huse hi
    have huse := ToolSettings.sameExecutable_iff.1 huse
    constructor
    · rintro ⟨hs, check, answer, rfl, hu⟩
      obtain ⟨check', e, hs', hc, -⟩ := exists_conclude_of_setsPause hs
      cases hs'
      rw [← Bool.not_eq_true, asksInUse_iff] at hu
      exact hu ((hi check hc).trans huse)
    · intro check hc
      obtain hc | ⟨-, hp⟩ := mem_running_step hc
      · exact hi check hc
      · rw [hp, huse]
  · rintro ⟨check, hc, hu⟩
    exact occurs_pausesForOther hb hv hc hu

/-- **When a check pauses for the program in use.** The check that pauses checking asked the
program that was in use then, and this is the one still in use unless settings with another one
came into use meanwhile; nothing else keeps an old failure from pausing. From a moment at which
checking is not paused, and as long as the program stays the same, a check can pause checking for
another program exactly if such a check is on its way at that moment. -/
theorem pauses_for_program_in_use_iff (directory : Option Path) (tools : ToolSettings)
    (settings : ValidationSettings) (steps : List Step) :
    let first := start directory tools settings
    let b := first.run steps
    (∀ s, SetsPause b s → ∃ check e before later,
      s = .conclude check (.error e) ∧
        (b.step s).2 = [.message (Validator.pauseMessage e) true, .paused] ∧
        steps = before ++ .ask check.job :: later ∧
        check.program = (first.run before).tools.executable ∧
        (b.asksInUse check = true ↔
          ∀ adopted, ((first.run before).step (.ask check.job)).1.adopted? later = some adopted →
            adopted.sameExecutable (first.run before).tools = true)) ∧
      (b.validator.isPaused = false →
        (Occurs (Uses b.tools) PausesForOther b ↔
          ∃ check ∈ b.running, b.asksInUse check = false)) := by
  intro first b
  refine ⟨fun s hs => ?_, fun hv => ?_⟩
  · obtain ⟨check, e, rfl, hc, he⟩ := exists_conclude_of_setsPause hs
    obtain hc | ⟨before, later, hsteps, hp⟩ := exists_ask_of_mem_running hc
    · exact absurd hc (Multiset.notMem_zero _)
    · refine ⟨check, e, before, later, rfl, he, hsteps, hp, ?_⟩
      rw [← asksInUse_run_iff hp, ← run_append, ← hsteps]
  · exact occurs_pausesForOther_iff (isReachable_run _ _ _ _).onlyEvi hv

/-- A program that is not found pauses checking although another one is in use when this is
known. -/
theorem pauses_for_replaced_program :
    let old : ToolSettings := { executable := some ⟨"/old/evi"⟩ }
    let new : ToolSettings := { executable := some ⟨"/new/evi"⟩ }
    let job : Job := ⟨1, ⟨⟨"/a.evi"⟩, "", "evi"⟩⟩
    let change : Change := ⟨{}, new, true⟩
    let steps : List Step :=
      [.accept job.document, .draw job.document, .install job true, .wake job, .ask job,
        .compare {} new, .configure change, .reload change]
    let check : Check := ⟨job, old.executable⟩
    let b := (start (some ⟨"/"⟩) old {}).run steps
    SetsPause b (.conclude check (.error (.toolNotFound old.executable))) ∧
      b.asksInUse check = false ∧
      (∃ before later, steps = before ++ .ask job :: later ∧
        old.executable = ((start (some ⟨"/"⟩) old {}).run before).tools.executable) ∧
      Occurs (Uses b.tools) PausesForOther b := by
  intro old new job change steps check b
  have hs : SetsPause b (.conclude check (.error (.toolNotFound old.executable))) :=
    ⟨by decide, by decide⟩
  have hu : b.asksInUse check = false := by decide
  have hr : ∃ check ∈ b.running, b.asksInUse check = false := ⟨check, by decide, hu⟩
  have hb : (start (some ⟨"/"⟩) old {}).run steps = b := rfl
  obtain ⟨hpauses, hoccurs⟩ := pauses_for_program_in_use_iff (some ⟨"/"⟩) old {} steps
  -- From here on the steps need not be taken any more.
  clear_value b
  rw [hb] at hpauses hoccurs
  obtain ⟨_, _, before, later, heq, -, hsteps, hp, -⟩ := hpauses _ hs
  cases heq
  exact ⟨hs, hu, ⟨before, later, hsteps, hp⟩, (hoccurs hs.1).2 hr⟩

end EviAssist.Background
