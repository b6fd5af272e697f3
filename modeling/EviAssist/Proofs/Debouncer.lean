import EviAssist.Debouncer
import EviAssist.Proofs.PathMap

/-!
# Generations of keys

A job starts when its moment comes if its generation is that of its key. The generation of a key
changes only when a trigger installs another job; ends and cancellations can only forget it.

* `Debouncer.generation?`: the generation of a key.
* `Debouncer.isSome_wake?`: which jobs start.
* `Debouncer.generation?_install`, `Debouncer.generation?_cancel`, `Debouncer.generation?_wake`,
  `Debouncer.generation?_finish`, `Debouncer.generation?_close`: what each operation does to the
  generations.
* `Debouncer.pending?`: the job that waits for a key, with one lemma for each operation.
* `Debouncer.running`: the jobs that run for a key, as far as its slot tells, with one lemma for
  each operation.
* `Debouncer.IsBusy`: whether a slot has a job that waits or runs; no operation of callers and
  tasks keeps any other slot.
* `Debouncer.drawn_wake`, `Debouncer.drawn_finish`: what draws no generation.
* `Debouncer.mem_close_snd_iff`: what is stopped when all is closed.
-/

namespace EviAssist.Debouncer

/-- The generation of a key. -/
def generation? (d : Debouncer) (key : Path) : Option Nat :=
  (d.slots.find? key).map (·.generation)

theorem generation?_congr (d : Debouncer) {key other : Path} (h : key.same other = true) :
    d.generation? key = d.generation? other := by
  rw [generation?, generation?, PathMap.find?_congr _ h]

/-- **A job starts if its generation is that of its key.** -/
theorem isSome_wake? (d : Debouncer) (key : Path) (generation : Nat) :
    (d.wake? key generation).isSome = true ↔ d.generation? key = some generation := by
  unfold wake? generation?
  cases d.slots.find? key with
  | none => simp
  | some slot => by_cases h : slot.generation = generation <;> simp [h]

theorem generation?_install (d : Debouncer) (key other : Path) (generation : Nat) :
    (d.install key generation).1.generation? other =
      if key.same other then some generation else d.generation? other := by
  simp only [generation?, install, PathMap.find?_insert]
  split <;> rfl

theorem generation?_cancel (d : Debouncer) (key other : Path) :
    (d.cancel key).1.generation? other =
      if key.same other then none else d.generation? other := by
  simp only [generation?, cancel, PathMap.find?_erase]
  split <;> rfl

/-- The start of a job leaves all generations as they are. -/
theorem generation?_wake {d d' : Debouncer} {key : Path} {generation : Nat}
    (h : d.wake? key generation = some d') (other : Path) :
    d'.generation? other = d.generation? other := by
  simp only [wake?] at h
  split at h
  · rename_i slot hf
    split at h
    · cases h
      simp only [generation?, PathMap.find?_insert]
      split
      · rename_i hs
        rw [← PathMap.find?_congr _ hs, hf]
        rfl
      · rfl
    · cases h
  · cases h

/-- The end of a job may forget a generation, and changes none. -/
theorem generation?_finish {d : Debouncer} {key other : Path} {generation n : Nat}
    (h : (d.finish key generation).generation? other = some n) : d.generation? other = some n := by
  simp only [finish] at h
  split at h
  · rename_i slot hf
    split at h
    · simp only [generation?, PathMap.find?_erase] at h
      split at h
      · cases h
      · exact h
    · simp only [generation?, PathMap.find?_insert] at h
      split at h
      · rename_i hs
        rw [generation?, ← PathMap.find?_congr _ hs, hf]
        exact h
      · exact h
  · exact h

theorem find?_close (d : Debouncer) (key : Path) :
    d.close.1.slots.find? key =
      (d.slots.find? key).map fun slot => { slot with pending := none } :=
  PathMap.find?_map d.slots (fun slot => { slot with pending := none }) key

/-- Closing leaves all generations as they are. -/
theorem generation?_close (d : Debouncer) (key : Path) :
    d.close.1.generation? key = d.generation? key := by
  rw [generation?, find?_close, Option.map_map]
  rfl

/-! ## Jobs that wait -/

/-- The generation of the job that waits for a key. -/
def pending? (d : Debouncer) (key : Path) : Option Nat :=
  (d.slots.find? key).bind (·.pending)

theorem pending?_congr (d : Debouncer) {key other : Path} (h : key.same other = true) :
    d.pending? key = d.pending? other := by
  rw [pending?, pending?, PathMap.find?_congr _ h]

theorem install_snd (d : Debouncer) (key : Path) (generation : Nat) :
    (d.install key generation).2 = d.pending? key := by
  simp only [install, pending?]
  cases d.slots.find? key <;> rfl

theorem cancel_snd (d : Debouncer) (key : Path) : (d.cancel key).2 = d.pending? key :=
  rfl

theorem mem_close_snd {d : Debouncer} {key : Path} {generation : Nat}
    (h : d.pending? key = some generation) : generation ∈ d.close.2 := by
  obtain ⟨slot, hf, hp⟩ := Option.bind_eq_some_iff.1 h
  exact List.mem_filterMap.2 ⟨slot, PathMap.mem_values_of_find? hf, hp⟩

theorem pending?_install (d : Debouncer) (key other : Path) (generation : Nat) :
    (d.install key generation).1.pending? other =
      if key.same other then some generation else d.pending? other := by
  simp only [pending?, install, PathMap.find?_insert]
  split <;> rfl

theorem pending?_cancel (d : Debouncer) (key other : Path) :
    (d.cancel key).1.pending? other = if key.same other then none else d.pending? other := by
  simp only [pending?, cancel, PathMap.find?_erase]
  split <;> rfl

theorem pending?_wake {d d' : Debouncer} {key : Path} {generation : Nat}
    (h : d.wake? key generation = some d') (other : Path) :
    d'.pending? other = if key.same other then none else d.pending? other := by
  simp only [wake?] at h
  split at h
  · split at h
    · cases h
      simp only [pending?, PathMap.find?_insert]
      split <;> rfl
    · cases h
  · cases h

theorem pending?_finish (d : Debouncer) (key other : Path) (generation : Nat) :
    (d.finish key generation).pending? other = d.pending? other := by
  simp only [finish]
  split
  · rename_i slot hf
    split
    · rename_i hn
      simp only [pending?, PathMap.find?_erase]
      split
      · rename_i hs
        rw [← PathMap.find?_congr _ hs, hf]
        exact (Option.isNone_iff_eq_none.1 hn.1).symm
      · rfl
    · simp only [pending?, PathMap.find?_insert]
      split
      · rename_i hs
        rw [← PathMap.find?_congr _ hs, hf]
        rfl
      · rfl
  · rfl

theorem generation?_finish_of_pending? {d : Debouncer} {key other : Path} {generation n : Nat}
    (h : d.pending? other = some n) :
    (d.finish key generation).generation? other = d.generation? other := by
  simp only [finish]
  split
  · rename_i slot hf
    split
    · rename_i hn
      simp only [generation?, PathMap.find?_erase]
      split
      · rename_i hs
        rw [pending?, ← PathMap.find?_congr _ hs, hf, Option.bind_some,
          Option.isNone_iff_eq_none.1 hn.1] at h
        cases h
      · rfl
    · simp only [generation?, PathMap.find?_insert]
      split
      · rename_i hs
        rw [← PathMap.find?_congr _ hs, hf]
        rfl
      · rfl
  · rfl

theorem pending?_close (d : Debouncer) (key : Path) : d.close.1.pending? key = none := by
  rw [pending?, find?_close]
  cases d.slots.find? key <;> rfl

/-! ## Jobs that run -/

/-- The generations of the jobs that run for a key, as far as its slot tells. -/
def running (d : Debouncer) (key : Path) : List Nat :=
  ((d.slots.find? key).map (·.running)).getD []

theorem running_install (d : Debouncer) (key other : Path) (generation : Nat) :
    (d.install key generation).1.running other = d.running other := by
  simp only [running, install, PathMap.find?_insert]
  split
  · rename_i hs
    rw [← PathMap.find?_congr _ hs]
    cases d.slots.find? key <;> rfl
  · rfl

theorem running_cancel (d : Debouncer) (key other : Path) :
    (d.cancel key).1.running other = if key.same other then [] else d.running other := by
  simp only [running, cancel, PathMap.find?_erase]
  split <;> rfl

theorem running_wake {d d' : Debouncer} {key : Path} {generation : Nat}
    (h : d.wake? key generation = some d') (other : Path) :
    d'.running other =
      if key.same other then d.running other ++ [generation] else d.running other := by
  simp only [wake?] at h
  split at h
  · rename_i slot hf
    split at h
    · cases h
      simp only [running, PathMap.find?_insert]
      split
      · rename_i hs
        rw [← PathMap.find?_congr _ hs, hf]
        rfl
      · rfl
    · cases h
  · cases h

theorem running_finish (d : Debouncer) (key other : Path) (generation : Nat) :
    (d.finish key generation).running other =
      if key.same other then (d.running other).filter (· ≠ generation) else d.running other := by
  simp only [finish]
  split
  · rename_i slot hf
    by_cases hs : key.same other = true
    · have hother : d.running other = slot.running := by
        rw [running, ← PathMap.find?_congr _ hs, hf]
        rfl
      rw [if_pos hs, hother]
      split
      · rename_i hn
        rw [running, PathMap.find?_erase, if_pos hs]
        exact hn.2.symm
      · rw [running, PathMap.find?_insert, if_pos hs]
        rfl
    · rw [if_neg hs]
      split
      · rw [running, PathMap.find?_erase, if_neg hs]
        rfl
      · rw [running, PathMap.find?_insert, if_neg hs]
        rfl
  · rename_i hf
    split
    · rename_i hs
      rw [running, ← PathMap.find?_congr _ hs, hf]
      rfl
    · rfl

/-! ## Slots in use -/

/-- Whether the slot of a key has a job that waits or runs. -/
def IsBusy (d : Debouncer) (key : Path) : Prop :=
  (d.pending? key).isSome = true ∨ d.running key ≠ []

theorem IsBusy.contains {d : Debouncer} {key : Path} (h : d.IsBusy key) :
    d.slots.contains key = true := by
  rw [PathMap.contains_eq_isSome_find?]
  cases hf : d.slots.find? key with
  | none => simp [IsBusy, pending?, running, hf] at h
  | some slot => rfl

theorem state_eq (d : Debouncer) (key : Path) :
    d.state key =
      if (d.pending? key).isSome then .scheduled
      else if (d.running key).isEmpty then .idle else .running := by
  unfold state pending? running
  cases d.slots.find? key <;> rfl

/-- **What an operation keeps**: after it, every slot that it has not touched is there as before,
and one that it has touched has a job. -/
theorem contains_install {d : Debouncer} {key other : Path} {generation : Nat}
    (h : (d.install key generation).1.slots.contains other = true) :
    (d.install key generation).1.IsBusy other ∨
      ¬key.same other = true ∧ d.slots.contains other = true := by
  rw [install, PathMap.contains_insert, Bool.or_eq_true] at h
  by_cases hs : key.same other = true
  · refine .inl (.inl ?_)
    rw [pending?_install, if_pos hs]
    rfl
  · exact .inr ⟨hs, h.resolve_left hs⟩

theorem contains_cancel {d : Debouncer} {key other : Path}
    (h : (d.cancel key).1.slots.contains other = true) :
    ¬key.same other = true ∧ d.slots.contains other = true := by
  rw [cancel, PathMap.contains_erase, Bool.and_eq_true, Bool.not_eq_true'] at h
  exact ⟨Bool.eq_false_iff.1 h.1, h.2⟩

theorem contains_wake {d d' : Debouncer} {key other : Path} {generation : Nat}
    (hw : d.wake? key generation = some d') (h : d'.slots.contains other = true) :
    d'.IsBusy other ∨ ¬key.same other = true ∧ d.slots.contains other = true := by
  by_cases hs : key.same other = true
  · refine .inl (.inr ?_)
    rw [running_wake hw, if_pos hs]
    exact List.concat_ne_nil _ _
  · refine .inr ⟨hs, ?_⟩
    simp only [wake?] at hw
    split at hw
    · split at hw <;> cases hw
      rw [PathMap.contains_insert, Bool.or_eq_true] at h
      exact h.resolve_left hs
    · cases hw

theorem contains_finish {d : Debouncer} {key other : Path} {generation : Nat}
    (h : (d.finish key generation).slots.contains other = true) :
    (d.finish key generation).IsBusy other ∨
      ¬key.same other = true ∧ d.slots.contains other = true := by
  have hpending := pending?_finish d key other generation
  have hrunning := running_finish d key other generation
  rw [IsBusy, hpending, hrunning]
  rw [finish] at h
  by_cases hs : key.same other = true
  · rw [if_pos hs, pending?, running, ← PathMap.find?_congr _ hs]
    split at h
    · rename_i slot hf
      rw [hf]
      dsimp only at h
      split at h
      · rw [PathMap.contains_erase, hs] at h
        cases h
      · rename_i hn
        by_cases hnone : slot.pending.isNone = true
        · exact .inl (.inr fun hempty => hn ⟨hnone, hempty⟩)
        · exact .inl (.inl (Option.isSome_iff_ne_none.2 (mt Option.isNone_iff_eq_none.2 hnone)))
    · rename_i hf
      rw [PathMap.contains_eq_isSome_find?, ← PathMap.find?_congr _ hs, hf] at h
      cases h
  · refine .inr ⟨hs, ?_⟩
    split at h
    · dsimp only at h
      split at h
      · rw [PathMap.contains_erase, Bool.and_eq_true] at h
        exact h.2
      · rw [PathMap.contains_insert, Bool.or_eq_true] at h
        exact h.resolve_left hs
    · exact h

/-! ## Generations that are drawn -/

theorem drawn_wake {d d' : Debouncer} {key : Path} {generation : Nat}
    (h : d.wake? key generation = some d') : d'.drawn = d.drawn := by
  simp only [wake?] at h
  split at h
  · split at h <;> cases h
    rfl
  · cases h

theorem drawn_finish (d : Debouncer) (key : Path) (generation : Nat) :
    (d.finish key generation).drawn = d.drawn := by
  simp only [finish]
  split
  · split <;> rfl
  · rfl

/-! ## Distinct keys -/

variable {d d' : Debouncer}

theorem distinct_install (h : d.slots.Distinct) (key : Path) (generation : Nat) :
    (d.install key generation).1.slots.Distinct :=
  PathMap.distinct_insert h _ _

theorem distinct_cancel (h : d.slots.Distinct) (key : Path) : (d.cancel key).1.slots.Distinct :=
  PathMap.distinct_erase h _

theorem distinct_wake (hd : d.slots.Distinct) {key : Path} {generation : Nat}
    (h : d.wake? key generation = some d') : d'.slots.Distinct := by
  simp only [wake?] at h
  split at h
  · split at h <;> cases h
    exact PathMap.distinct_insert hd _ _
  · cases h

theorem distinct_finish (h : d.slots.Distinct) (key : Path) (generation : Nat) :
    (d.finish key generation).slots.Distinct := by
  simp only [finish]
  split
  · split
    · exact PathMap.distinct_erase h _
    · exact PathMap.distinct_insert h _ _
  · exact h

theorem distinct_close (h : d.slots.Distinct) : d.close.1.slots.Distinct :=
  List.pairwise_map.2 h

/-- Closing stops the jobs that wait for any key, and no others. -/
theorem mem_close_snd_iff (h : d.slots.Distinct) {generation : Nat} :
    generation ∈ d.close.2 ↔ ∃ key, d.pending? key = some generation := by
  constructor
  · intro hm
    obtain ⟨slot, hs, hp⟩ := List.mem_filterMap.1 hm
    obtain ⟨key, hf⟩ := (PathMap.mem_values_iff h).1 hs
    exact ⟨key, Option.bind_eq_some_iff.2 ⟨slot, hf, hp⟩⟩
  · rintro ⟨key, hp⟩
    exact mem_close_snd hp

end EviAssist.Debouncer
