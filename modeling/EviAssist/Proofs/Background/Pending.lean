import EviAssist.Proofs.Background.Operation
import EviAssist.Proofs.Background.Stopped
import EviAssist.Proofs.Validator.Documents

/-!
# Checks that wait

A check that waits starts when its moment comes unless another one took its place or its document
was closed. What operations do to such checks, and to the open documents.

* `Background.IsFresh`: whether no generation is on its way that has not been drawn.
* `Background.IsPending`: whether a check waits that starts when its moment comes.
* `Background.isPending_editSteps`, `Background.isPending_close`, `Background.isPending_reload`:
  the checks that wait after new texts, closings and changes of settings.
* `Background.BringsNothing`: all other operations.
-/

namespace EviAssist.Background

variable {b b' : Background} {job : Job} {document : Document}

/-! ## Generations -/

/-- Whether no generation is on its way that has not been drawn. -/
def IsFresh (b : Background) : Prop :=
  ∀ job ∈ b.drawn + b.waiting, job.generation ≤ b.debouncer.drawn

theorem IsFresh.of_le (h : b.IsFresh) (hj : b'.drawn + b'.waiting ≤ b.drawn + b.waiting)
    (hd : b'.debouncer.drawn = b.debouncer.drawn) : b'.IsFresh := by
  intro job hm
  rw [hd]
  exact h job (Multiset.mem_of_le hj hm)

theorem IsFresh.step (h : b.IsFresh) (s : Step) : (b.step s).1.IsFresh := by
  rw [step_eq_move]
  suffices hf : (b.move s).IsFresh from hf
  cases s with
  | draw document =>
    simp only [move]
    split
    · intro job hm
      obtain hm | hm := Multiset.mem_add.1 hm
      · obtain rfl | hm := Multiset.mem_cons.1 hm
        · exact le_rfl
        · exact Nat.le_succ_of_le (h job (Multiset.mem_add.2 (.inl hm)))
      · exact Nat.le_succ_of_le (h job (Multiset.mem_add.2 (.inr hm)))
    · exact h
  | install job inTime =>
    simp only [move]
    split
    · rename_i hm
      refine h.of_le ?_ rfl
      obtain ⟨rest, hr⟩ := Multiset.exists_cons_of_mem hm
      simp only [hr, Multiset.erase_cons_head, Multiset.cons_add, Multiset.add_cons]
      exact Multiset.cons_le_cons _ (add_le_add_right (stop_le _ _ _) _)
    · exact h
  | cancel path inTime =>
    exact h.of_le (add_le_add_right (stop_le _ _ _) _) rfl
  | wake job =>
    by_cases hm : job ∈ b.waiting
    · have hle := add_le_add_right (Multiset.erase_le job b.waiting) b.drawn
      obtain ⟨-, -, debouncer, hn, hw⟩ | ⟨-, -, hw⟩ := wake_cases hm <;> rw [hw]
      · exact h.of_le hle (Debouncer.drawn_wake hn)
      · exact h.of_le hle rfl
    · simp only [move, hm, if_false]
      exact h
  | finish job =>
    simp only [move]
    split
    · exact h.of_le le_rfl (Debouncer.drawn_finish _ _ _)
    · exact h
  | accept _ | configure _ | ask _ | conclude _ _ =>
    simp only [move]
    split <;> exact h
  | close _ | reconfigure _ | compare _ _ | reload _ => exact h

theorem IsFresh.run (h : b.IsFresh) (steps : List Step) : (b.run steps).IsFresh := by
  induction steps generalizing b with
  | nil => exact h
  | cons s steps ih => exact ih (h.step s)

theorem IsReachable.isFresh (h : b.IsReachable) : b.IsFresh := by
  obtain ⟨directory, tools, settings, steps, rfl⟩ := h
  apply IsFresh.run
  intro job hm
  exact absurd hm (Multiset.notMem_zero _)

/-! ## Checks that wait -/

/-- Whether a check waits that starts when its moment comes. -/
def IsPending (b : Background) (job : Job) : Prop :=
  job ∈ b.waiting ∧ b.isDue job = true

theorem starts_wake_iff : Starts b (.wake job) ↔ b.IsPending job := by
  rw [Starts, starts, IsPending]
  split
  · rename_i h
    exact iff_of_true (Multiset.singleton_ne_zero _) h
  · rename_i h
    exact iff_of_false (not_not.2 rfl) h

theorem IsPending.of_le (h : b'.IsPending job) (hw : b'.waiting ≤ b.waiting)
    (hg : ∀ {key n}, b'.debouncer.generation? key = some n →
      b.debouncer.generation? key = some n) : b.IsPending job := by
  obtain ⟨hm, hd⟩ := h
  refine ⟨Multiset.mem_of_le hw hm, ?_⟩
  rw [isDue_iff] at hd ⊢
  exact hg hd

theorem IsPending.running_perform_fire (h : b.IsPending job) :
    (b.perform (.fire job)).running = ⟨job, b.tools.executable⟩ ::ₘ b.running := by
  obtain ⟨hm, hd⟩ := h
  obtain ⟨rest, hw⟩ := Multiset.exists_cons_of_mem hm
  obtain ⟨debouncer, hn⟩ := Option.isSome_iff_exists.1 hd
  rw [perform_fire_of_some hw hn]

/-! ## New texts and closings -/

theorem validator_editSteps (b : Background) (document : Document) :
    (b.run (b.editSteps document)).validator = (b.validator.accept document).1 := by
  by_cases ha : (b.validator.accept document).2 = true
  · rw [run_editSteps_of_accepted ha]
  · rw [run_editSteps_of_not_accepted ha]

/-- A new text that is accepted for a check replaces the one that waited. -/
theorem isPending_editSteps (hb : b.IsFresh) (h : (b.run (b.editSteps document)).IsPending job) :
    (b.validator.accept document).2 = true ∧ job.document = document ∨
      b.IsPending job ∧ ((b.validator.accept document).2 = true →
        ¬document.path.same job.document.path = true) := by
  by_cases ha : (b.validator.accept document).2 = true
  · rw [run_editSteps_of_accepted ha, IsPending, isDue_iff] at h
    obtain ⟨hm, hg⟩ := h
    obtain rfl | hm := Multiset.mem_cons.1 hm
    · exact .inl ⟨ha, rfl⟩
    · have hm : job ∈ b.waiting := Multiset.mem_of_le (stop_le _ _ _) hm
      have hle : job.generation ≤ b.debouncer.drawn := hb job (Multiset.mem_add.2 (.inr hm))
      rw [Debouncer.generation?_install] at hg
      split at hg
      · -- What waited was drawn before, so it does not have the generation drawn just now.
        have heq : b.debouncer.drawn + 1 = job.generation := Option.some.inj hg
        omega
      · rename_i hs
        exact .inr ⟨⟨hm, (isDue_iff b job).2 hg⟩, fun _ => hs⟩
  · rw [run_editSteps_of_not_accepted ha] at h
    exact .inr ⟨h, fun ht => absurd ht ha⟩

theorem isPending_close {path : Path} (h : (b.perform (.close path)).IsPending job) :
    b.IsPending job ∧ ¬path.same job.document.path = true := by
  rw [(b.perform_close path).1, IsPending, isDue_iff, Debouncer.generation?_cancel] at h
  obtain ⟨hm, hg⟩ := h
  have hm : job ∈ b.waiting := Multiset.mem_of_le (stop_le true _ _) hm
  split at hg
  · cases hg
  · rename_i hs
    exact ⟨⟨hm, (isDue_iff b job).2 hg⟩, hs⟩

/-! ## Changes of settings -/

theorem IsReachable.keepsTexts (h : b.IsReachable) : b.validator.KeepsTexts := by
  obtain ⟨directory, tools, settings, steps, rfl⟩ := h
  have hv : (start directory tools settings).validator =
      Validator.after directory settings [] := rfl
  rw [(validator_run steps hv).1]
  exact Validator.keepsTexts_after _ _ _

theorem schedules_editAllSteps (b : Background) (documents : List Document) :
    (b.run (b.editAllSteps documents)).validator.schedules = b.validator.schedules := by
  induction documents generalizing b with
  | nil => rfl
  | cons document documents ih =>
    rw [editAllSteps, run_append, ih, validator_editSteps, Validator.schedules_accept]

theorem find?_editAllSteps {documents : List Document}
    (h : ∀ document ∈ documents,
      b.validator.documents.find? document.path = some document) (p : Path) :
    (b.run (b.editAllSteps documents)).validator.documents.find? p =
      b.validator.documents.find? p := by
  induction documents generalizing b with
  | nil => rfl
  | cons document documents ih =>
    have hf : ∀ q, (b.run (b.editSteps document)).validator.documents.find? q =
        b.validator.documents.find? q := by
      intro q
      rw [validator_editSteps, Validator.find?_accept]
      split
      · rename_i hs
        rw [← PathMap.find?_congr _ (Bool.and_eq_true_iff.1 hs).2]
        exact (h document (.head _)).symm
      · rfl
    rw [editAllSteps, run_append, ih, hf]
    intro other ho
    rw [hf]
    exact h other (.tail _ ho)

/-- Several new texts replace those that waited while checking is on, and none while it is
stopped. -/
theorem isPending_editAllSteps {documents : List Document} (hb : b.IsFresh)
    (he : ∀ document ∈ documents, document.isEvi = true)
    (h : (b.run (b.editAllSteps documents)).IsPending job) :
    b.validator.schedules = true ∧ job.document ∈ documents ∨
      b.IsPending job ∧ (b.validator.schedules = true →
        ∀ document ∈ documents, ¬document.path.same job.document.path = true) := by
  induction documents generalizing b with
  | nil => exact .inr ⟨h, fun _ => nofun⟩
  | cons document documents ih =>
    rw [editAllSteps, run_append] at h
    have hs : (b.run (b.editSteps document)).validator.schedules = b.validator.schedules := by
      rw [validator_editSteps, Validator.schedules_accept]
    have ha : (b.validator.accept document).2 = b.validator.schedules := by
      rw [Validator.accept_snd, he document (.head _), Bool.true_and]
    obtain ⟨hon, hm⟩ | ⟨hp, hn⟩ := ih (hb.run _) (fun d hd => he d (.tail _ hd)) h
    · exact .inl ⟨hs ▸ hon, .tail _ hm⟩
    · obtain ⟨hon, rfl⟩ | ⟨hp, hd⟩ := isPending_editSteps hb hp
      · exact .inl ⟨ha ▸ hon, .head _⟩
      · refine .inr ⟨hp, fun hon => ?_⟩
        rw [List.forall_mem_cons]
        exact ⟨hd (ha ▸ hon), hn (hs ▸ hon)⟩

theorem find?_reload (hk : b.validator.KeepsTexts) (validation : ValidationSettings)
    (tools : ToolSettings) (p : Path) :
    (b.perform (.reload validation tools)).validator.documents.find? p =
      b.validator.documents.find? p := by
  rw [(b.perform_reload validation tools).1, find?_editAllSteps]
  · rfl
  · exact fun document hm => (hk.of_mem_values hm).2

/-- When settings change, the texts of all open documents replace those that waited, unless checking
is stopped then. -/
theorem isPending_reload (hf : b.IsFresh) (hk : b.validator.KeepsTexts)
    (validation : ValidationSettings) (tools : ToolSettings)
    (h : (b.perform (.reload validation tools)).IsPending job) :
    (b.perform (.reload validation tools)).validator.schedules = true ∧
        b.validator.documents.find? job.document.path = some job.document ∨
      b.IsPending job ∧
        ((b.perform (.reload validation tools)).validator.schedules = true →
          b.validator.documents.contains job.document.path = false) := by
  let applied : Background :=
    { b with
      tools
      validator := (b.validator.reload validation !b.tools.sameExecutable tools).1 }
  have hf : applied.IsFresh := hf
  rw [(b.perform_reload validation tools).1] at h ⊢
  rw [schedules_editAllSteps]
  obtain ⟨hon, hm⟩ | ⟨hp, hn⟩ :=
    isPending_editAllSteps hf (fun document hm => (hk.of_mem_values hm).1) h
  · exact .inl ⟨hon, (hk.of_mem_values hm).2⟩
  · refine .inr ⟨hp, fun hon => ?_⟩
    rw [← Bool.not_eq_true, PathMap.contains_eq_isSome_find?, Option.isSome_iff_exists]
    rintro ⟨document, hd⟩
    exact hn hon document ((PathMap.mem_values_iff hk.distinct).2 ⟨_, hd⟩) (hk.own hd).2

/-! ## Other operations -/

/-- Whether an operation leaves the open documents alone, has no other check wait, and does not go
on with checking when it is stopped. -/
structure BringsNothing (b : Background) (operation : Operation) : Prop where
  documents : (b.perform operation).validator.documents = b.validator.documents
  schedules : (b.perform operation).validator.schedules = true → b.validator.schedules = true
  isPending : ∀ {job}, (b.perform operation).IsPending job → b.IsPending job

theorem bringsNothing_reconfigure (b : Background) (tools : ToolSettings) :
    b.BringsNothing (.reconfigure tools) :=
  ⟨rfl, id, id⟩

theorem bringsNothing_fire (b : Background) (job : Job) : b.BringsNothing (.fire job) := by
  by_cases hm : job ∈ b.waiting
  · obtain ⟨rest, hw⟩ := Multiset.exists_cons_of_mem hm
    have hle : rest ≤ b.waiting := hw ▸ Multiset.le_cons_self rest job
    cases hn : b.debouncer.wake? job.document.path job.generation with
    | none =>
      have hp := perform_fire_of_none hw hn
      refine ⟨by rw [hp], fun h => by rwa [hp] at h, fun h => ?_⟩
      rw [hp] at h
      exact h.of_le hle id
    | some debouncer =>
      have hp := perform_fire_of_some hw hn
      refine ⟨by rw [hp], fun h => by rwa [hp] at h, fun h => ?_⟩
      rw [hp] at h
      refine h.of_le hle fun {key n} hg => ?_
      rwa [Debouncer.generation?_wake hn] at hg
  · have hp := perform_fire_of_notMem hm
    exact ⟨by rw [hp], fun h => by rwa [hp] at h, fun h => by rwa [hp] at h⟩

theorem bringsNothing_conclude (b : Background) (check : Check)
    (answer : Except LintError LintResult) : b.BringsNothing (.conclude check answer) := by
  by_cases hm : check ∈ b.running
  · obtain ⟨rest, hr⟩ := Multiset.exists_cons_of_mem hm
    have hp := (perform_conclude hr answer).1
    refine ⟨?_, fun h => ?_, fun h => ?_⟩
    · rw [hp]
      exact Validator.documents_conclude _ _ _
    · rw [hp] at h
      exact Validator.schedules_of_conclude h
    · rw [hp] at h
      exact h.of_le le_rfl Debouncer.generation?_finish
  · have hp := perform_conclude_of_notMem hm answer
    exact ⟨by rw [hp], fun h => by rwa [hp] at h, fun h => by rwa [hp] at h⟩

end EviAssist.Background
