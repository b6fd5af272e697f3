import EviAssist.Proofs.Background
import EviAssist.Proofs.Debouncer
import Mathlib.Algebra.Order.Group.Multiset

/-!
# The way of a text

An accepted text waits for its check, its check starts, and the check ends. No step makes a text
out of nothing: what is on its way after a step was on its way before, or has been accepted in it.

* `Background.coming`, `Background.inHand`: the texts whose checks are to start, and those whose
  checks have started.
* `Background.entering`, `Background.starts`: the texts that are accepted for a check in a step,
  and the checks that start in it.
* `Background.starts_add_coming_le`, `Background.inHand_le`: how they go on.
* `Background.IsIdle`, `Background.IsIdle.step`: whether no check that is to come would start, and
  how long that lasts.
* `Background.IsReachable.onlyEvi`: only texts in Evi are on their way.
-/

namespace EviAssist.Background

/-! ## Texts on their way -/

/-- The texts whose checks are to start. -/
def coming (b : Background) : Multiset Document :=
  b.accepted + b.drawn.map (·.document) + b.waiting.map (·.document)

/-- The texts whose checks have started and not ended. -/
def inHand (b : Background) : Multiset Document :=
  b.begun.map (·.document) + b.running.map (·.job.document)

/-- The texts that are accepted for a check in a step. -/
def entering (b : Background) : Step → Multiset Document
  | .accept document => if (b.validator.accept document).2 then {document} else 0
  | _ => 0

/-- The checks that start in a step. -/
def starts (b : Background) : Step → Multiset Job
  | .wake job => if job ∈ b.waiting ∧ b.isDue job = true then {job} else 0
  | _ => 0

/-- The checks that start in some steps. -/
def started (b : Background) : List Step → Multiset Job
  | [] => 0
  | s :: steps => b.starts s + (b.step s).1.started steps

/-- Whether no check that is to come would start. -/
structure IsIdle (b : Background) : Prop where
  accepted : b.accepted = 0
  drawn : b.drawn = 0
  waiting : ∀ job ∈ b.waiting, b.isDue job = false

variable {b : Background} {s : Step} {job : Job}

theorem stop_le (inTime : Bool) (waiting : Multiset Job) (generation : Option Nat) :
    stop inTime waiting generation ≤ waiting := by
  unfold stop
  split
  · exact Multiset.filter_le _ _
  · exact le_rfl

theorem coming_step (b : Background) (s : Step) : (b.step s).1.coming = (b.move s).coming := by
  rw [step_eq_move]
  rfl

theorem inHand_step (b : Background) (s : Step) : (b.step s).1.inHand = (b.move s).inHand := by
  rw [step_eq_move]
  rfl

theorem wake_cases (hm : job ∈ b.waiting) :
    (b.isDue job = true ∧ b.starts (.wake job) = {job} ∧
      ∃ debouncer, b.debouncer.wake? job.document.path job.generation = some debouncer ∧
        b.move (.wake job) =
          { b with debouncer, waiting := b.waiting.erase job, begun := job ::ₘ b.begun }) ∨
      b.isDue job = false ∧ b.starts (.wake job) = 0 ∧
        b.move (.wake job) = { b with waiting := b.waiting.erase job } := by
  simp only [move, starts, isDue, hm, true_and]
  cases b.debouncer.wake? job.document.path job.generation with
  | none => exact .inr ⟨rfl, rfl, rfl⟩
  | some debouncer => exact .inl ⟨rfl, rfl, debouncer, rfl, rfl⟩

/-- **What is to start after a step**, or starts in it, was to start before or is accepted in it. -/
theorem starts_add_coming_le (b : Background) (s : Step) :
    (b.starts s).map (·.document) + (b.step s).1.coming ≤ b.entering s + b.coming := by
  rw [coming_step]
  cases s with
  | accept document =>
    simp only [starts, move, entering, Multiset.map_zero, zero_add]
    split
    · simp only [coming, Multiset.cons_add, Multiset.singleton_add]
      exact le_rfl
    · rw [zero_add]
  | draw document =>
    simp only [starts, move, entering, Multiset.map_zero, zero_add]
    split
    · rename_i h
      obtain ⟨rest, hr⟩ := Multiset.exists_cons_of_mem h
      simp only [coming, hr, Multiset.erase_cons_head, Multiset.map_cons, Multiset.cons_add,
        Multiset.add_cons, Debouncer.draw]
      exact le_rfl
    · exact le_rfl
  | install job inTime =>
    simp only [starts, move, entering, Multiset.map_zero, zero_add]
    split
    · rename_i h
      obtain ⟨rest, hr⟩ := Multiset.exists_cons_of_mem h
      simp only [coming, hr, Multiset.erase_cons_head, Multiset.map_cons, Multiset.cons_add,
        Multiset.add_cons]
      exact Multiset.cons_le_cons _ (add_le_add_right (Multiset.map_le_map (stop_le _ _ _)) _)
    · exact le_rfl
  | cancel path inTime =>
    simp only [starts, move, entering, Multiset.map_zero, zero_add, coming]
    exact add_le_add_right (Multiset.map_le_map (stop_le _ _ _)) _
  | wake job =>
    simp only [entering, zero_add]
    by_cases hm : job ∈ b.waiting
    · obtain ⟨rest, hr⟩ := Multiset.exists_cons_of_mem hm
      obtain ⟨-, hs, debouncer, -, hw⟩ | ⟨-, hs, hw⟩ := wake_cases hm
      · rw [hs, hw]
        simp only [coming, hr, Multiset.erase_cons_head, Multiset.map_cons,
          Multiset.map_singleton, Multiset.singleton_add, Multiset.add_cons]
        exact le_rfl
      · rw [hs, hw, Multiset.map_zero, zero_add]
        exact add_le_add_right (Multiset.map_le_map (Multiset.erase_le _ _)) _
    · simp only [starts, move, hm, false_and, if_false, Multiset.map_zero, zero_add]
      exact le_rfl
  | configure _ | ask _ | conclude _ _ | finish _ =>
    simp only [starts, move, entering, Multiset.map_zero, zero_add]
    split <;> exact le_rfl
  | close _ | reconfigure _ | compare _ _ | reload _ =>
    simp only [starts, entering, Multiset.map_zero, zero_add]
    exact le_rfl

/-- **What is in hand after a step** was in hand before, or starts in it. -/
theorem inHand_le (b : Background) (s : Step) :
    (b.step s).1.inHand ≤ (b.starts s).map (·.document) + b.inHand := by
  rw [inHand_step]
  cases s with
  | wake job =>
    by_cases hm : job ∈ b.waiting
    · obtain ⟨-, hs, debouncer, -, hw⟩ | ⟨-, hs, hw⟩ := wake_cases hm
      · rw [hs, hw]
        simp only [inHand, Multiset.map_cons, Multiset.map_singleton, Multiset.singleton_add,
          Multiset.cons_add]
        exact le_rfl
      · rw [hs, hw, Multiset.map_zero, zero_add]
        exact le_rfl
    · simp only [starts, move, hm, false_and, if_false, Multiset.map_zero, zero_add]
      exact le_rfl
  | ask job =>
    simp only [starts, move, Multiset.map_zero, zero_add]
    split
    · rename_i h
      obtain ⟨rest, hr⟩ := Multiset.exists_cons_of_mem h
      simp only [inHand, hr, Multiset.erase_cons_head, Multiset.map_cons, Multiset.cons_add,
        Multiset.add_cons]
      exact le_rfl
    · exact le_rfl
  | conclude check answer =>
    simp only [starts, move, Multiset.map_zero, zero_add]
    split
    · exact add_le_add_right (Multiset.map_le_map (Multiset.erase_le _ _)) _
    · exact le_rfl
  | accept _ | draw _ | install _ _ | configure _ | finish _ =>
    simp only [starts, move, Multiset.map_zero, zero_add]
    split <;> exact le_rfl
  | cancel _ _ | close _ | reconfigure _ | compare _ _ | reload _ =>
    simp only [starts, Multiset.map_zero, zero_add]
    exact le_rfl

/-! ## Idleness -/

theorem isDue_iff (b : Background) (job : Job) :
    b.isDue job = true ↔
      b.debouncer.generation? job.document.path = some job.generation :=
  Debouncer.isSome_wake? _ _ _

theorem not_isIdle_of_isDue (job : Job) (hm : job ∈ b.waiting) (hd : b.isDue job = true) :
    ¬b.IsIdle := by
  intro hi
  rw [hi.waiting job hm] at hd
  cases hd

theorem IsIdle.starts_eq_zero (h : b.IsIdle) (s : Step) : b.starts s = 0 := by
  cases s with
  | wake job =>
    refine if_neg ?_
    rintro ⟨hm, hd⟩
    rw [h.waiting job hm] at hd
    cases hd
  | _ => rfl

/-- **Idleness lasts** as long as no text is accepted for a check. -/
theorem IsIdle.step (h : b.IsIdle) (he : b.entering s = 0) : (b.step s).1.IsIdle := by
  rw [step_eq_move]
  suffices hi : (b.move s).IsIdle from ⟨hi.accepted, hi.drawn, hi.waiting⟩
  cases s with
  | accept document =>
    simp only [entering] at he
    split at he
    · exact absurd he (Multiset.singleton_ne_zero _)
    · rename_i ha
      simp only [move, ha]
      exact h
  | draw document =>
    simp only [move, h.accepted, Multiset.notMem_zero, if_false]
    exact h
  | install job inTime =>
    simp only [move, h.drawn, Multiset.notMem_zero, if_false]
    exact h
  | cancel path inTime =>
    refine ⟨h.accepted, h.drawn, ?_⟩
    intro job hj
    have hw := h.waiting job (Multiset.mem_of_le (stop_le _ _ _) hj)
    rw [← Bool.not_eq_true, isDue_iff] at hw ⊢
    simp only [move, Debouncer.generation?_cancel]
    split
    · intro hg
      cases hg
    · exact hw
  | wake job =>
    by_cases hm : job ∈ b.waiting
    · obtain ⟨hd, -⟩ | ⟨-, -, hw⟩ := wake_cases hm
      · rw [h.waiting job hm] at hd
        cases hd
      · rw [hw]
        exact ⟨h.accepted, h.drawn, fun other ho => h.waiting other (Multiset.mem_of_mem_erase ho)⟩
    · simp only [move, hm, if_false]
      exact h
  | finish job =>
    simp only [move]
    split
    · refine ⟨h.accepted, h.drawn, ?_⟩
      intro other ho
      have hw := h.waiting other ho
      rw [← Bool.not_eq_true, isDue_iff] at hw ⊢
      exact fun hg => hw (Debouncer.generation?_finish hg)
    · exact h
  | configure _ | ask _ | conclude _ _ =>
    simp only [move]
    split <;> exact ⟨h.accepted, h.drawn, h.waiting⟩
  | close _ | reconfigure _ | compare _ _ | reload _ => exact ⟨h.accepted, h.drawn, h.waiting⟩

/-! ## The language of texts -/

/-- Whether all texts on their way are written in Evi. -/
def OnlyEvi (b : Background) : Prop :=
  ∀ document ∈ b.coming + b.inHand, document.isEvi = true

theorem isEvi_of_mem_entering {document : Document} (h : document ∈ b.entering s) :
    document.isEvi = true := by
  cases s with
  | accept d =>
    simp only [entering, Validator.accept_snd] at h
    split at h
    · rename_i ha
      rw [Multiset.mem_singleton.1 h]
      exact (Bool.and_eq_true_iff.1 ha).1
    · exact absurd h (Multiset.notMem_zero _)
  | _ => exact absurd h (Multiset.notMem_zero _)

theorem OnlyEvi.step (h : b.OnlyEvi) (s : Step) : (b.step s).1.OnlyEvi := by
  have hc : ∀ document ∈ (b.starts s).map (·.document) + (b.step s).1.coming,
      document.isEvi = true := by
    intro document hd
    obtain he | hd := Multiset.mem_add.1 (Multiset.mem_of_le (starts_add_coming_le b s) hd)
    · exact isEvi_of_mem_entering he
    · exact h document (Multiset.mem_add.2 (.inl hd))
  intro document hd
  obtain hd | hd := Multiset.mem_add.1 hd
  · exact hc document (Multiset.mem_add.2 (.inr hd))
  · obtain hs | hd := Multiset.mem_add.1 (Multiset.mem_of_le (inHand_le b s) hd)
    · exact hc document (Multiset.mem_add.2 (.inl hs))
    · exact h document (Multiset.mem_add.2 (.inr hd))

theorem OnlyEvi.run (h : b.OnlyEvi) (steps : List Step) : (b.run steps).OnlyEvi := by
  induction steps generalizing b with
  | nil => exact h
  | cons s steps ih => exact ih (h.step s)

/-- **Only texts in Evi are on their way.** -/
theorem IsReachable.onlyEvi (h : b.IsReachable) : b.OnlyEvi := by
  obtain ⟨directory, tools, settings, steps, rfl⟩ := h
  apply OnlyEvi.run
  intro document hd
  exact absurd hd (Multiset.notMem_zero _)

end EviAssist.Background
