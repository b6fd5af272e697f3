import EviAssist.Path

/-!
# Laws of maps on paths

A change at a path is seen at the paths with the same components, and nowhere else.

* `PathMap.find?_insert`, `PathMap.find?_erase`: looking up after a change.
* `PathMap.contains_insert`, `PathMap.contains_erase`: the paths that have a value after a change.
* `PathMap.find?_congr`, `PathMap.contains_congr`: the spelling of a path does not matter.
* `PathMap.find?_map`: looking up when all values have changed.
* `PathMap.Distinct`, `PathMap.mem_values_iff`: every path is kept once, and what is kept is what
  is found.
-/

namespace EviAssist

namespace Path

theorem same_congr {p q r : Path} (h : p.same q = true) : p.same r = q.same r := by
  simp only [same, same_iff.1 h]

theorem same_congr_right {p q r : Path} (h : p.same q = true) : r.same p = r.same q := by
  rw [same_comm r p, same_comm r q, same_congr h]

theorem same_symm {p q : Path} (h : p.same q = true) : q.same p = true := by
  rwa [same_comm]

end Path

namespace PathMap

variable {α : Type}

@[simp] theorem find?_empty (p : Path) : ({} : PathMap α).find? p = none :=
  rfl

@[simp] theorem contains_empty (p : Path) : ({} : PathMap α).contains p = false :=
  rfl

theorem find?_congr (m : PathMap α) {p q : Path} (h : p.same q = true) : m.find? p = m.find? q := by
  simp only [find?, Path.same_congr_right h]

theorem contains_congr (m : PathMap α) {p q : Path} (h : p.same q = true) :
    m.contains p = m.contains q := by
  rw [contains_eq_isSome_find?, contains_eq_isSome_find?, find?_congr m h]

/-- **Looking up when all values have changed.** -/
theorem find?_map {β : Type} (m : PathMap α) (f : α → β) (p : Path) :
    PathMap.find? ⟨m.entries.map fun entry => (entry.1, f entry.2)⟩ p = (m.find? p).map f := by
  simp only [find?, List.find?_map, Option.map_map]
  rfl

theorem mem_values_of_find? {m : PathMap α} {p : Path} {a : α} (h : m.find? p = some a) :
    a ∈ m.values := by
  obtain ⟨entry, he, rfl⟩ := Option.map_eq_some_iff.1 h
  exact List.mem_map_of_mem (List.mem_of_find?_eq_some he)

/-! ## Insertion -/

theorem find?_overwrite_same {entries : List (Path × α)} {p : Path}
    (h : entries.any (fun entry => entry.1.same p) = true) (a : α) :
    ((entries.map fun entry => if entry.1.same p then (entry.1, a) else entry).find?
      fun entry => entry.1.same p).map (·.2) = some a := by
  induction entries with
  | nil => simp at h
  | cons entry rest ih =>
    rw [List.map_cons, List.find?_cons]
    by_cases hs : entry.1.same p
    · simp [hs]
    · rw [List.any_cons, Bool.or_eq_true] at h
      simp only [hs, Bool.false_eq_true, if_false]
      exact ih (h.resolve_left hs)

theorem find?_overwrite_other (entries : List (Path × α)) {p q : Path} (h : ¬p.same q = true)
    (a : α) :
    ((entries.map fun entry => if entry.1.same p then (entry.1, a) else entry).find?
      fun entry => entry.1.same q) = entries.find? fun entry => entry.1.same q := by
  induction entries with
  | nil => rfl
  | cons entry rest ih =>
    rw [List.map_cons, List.find?_cons, List.find?_cons]
    by_cases hs : entry.1.same p
    · have hq : ¬entry.1.same q = true := fun hq => h (by rwa [← Path.same_congr hs])
      simp only [hs, if_true, hq]
      exact ih
    · simp only [hs, Bool.false_eq_true, if_false]
      rw [ih]

theorem find?_insert_same (m : PathMap α) {p q : Path} (h : p.same q = true) (a : α) :
    (m.insert p a).find? q = some a := by
  rw [← find?_congr _ h]
  unfold insert
  split
  · exact find?_overwrite_same ‹_› a
  · rename_i hm
    have hn : (m.entries.find? fun entry => entry.1.same p) = none := by
      simpa [contains] using hm
    simp [find?, hn]

theorem find?_insert_other (m : PathMap α) {p q : Path} (h : ¬p.same q = true) (a : α) :
    (m.insert p a).find? q = m.find? q := by
  unfold insert
  split
  · exact congrArg _ (find?_overwrite_other m.entries h a)
  · simp [find?, h]

/-- **Looking up after an insertion.** -/
theorem find?_insert (m : PathMap α) (p q : Path) (a : α) :
    (m.insert p a).find? q = if p.same q then some a else m.find? q := by
  split
  · exact find?_insert_same m ‹_› a
  · exact find?_insert_other m ‹_› a

theorem contains_insert (m : PathMap α) (p q : Path) (a : α) :
    (m.insert p a).contains q = (p.same q || m.contains q) := by
  rw [contains_eq_isSome_find?, contains_eq_isSome_find?, find?_insert]
  by_cases h : p.same q <;> simp [h]

/-! ## Removal -/

/-- **Looking up after a removal.** -/
theorem find?_erase (m : PathMap α) (p q : Path) :
    (m.erase p).find? q = if p.same q then none else m.find? q := by
  simp only [find?, erase, List.find?_filter]
  split
  · rename_i h
    rw [Option.map_eq_none_iff, List.find?_eq_none]
    intro entry _
    simp [Path.same_congr_right h]
  · rename_i h
    congr 2
    funext entry
    by_cases hp : entry.1.same p
    · have hq : ¬entry.1.same q = true := fun hq => h (by rwa [← Path.same_congr hp])
      simp [hp, hq]
    · simp [hp]

theorem contains_erase (m : PathMap α) (p q : Path) :
    (m.erase p).contains q = (!p.same q && m.contains q) := by
  rw [contains_eq_isSome_find?, contains_eq_isSome_find?, find?_erase]
  by_cases h : p.same q <;> simp [h]

/-! ## Distinct paths -/

/-- Whether every path is kept once. -/
def Distinct (m : PathMap α) : Prop :=
  m.entries.Pairwise fun entry later => ¬entry.1.same later.1 = true

theorem distinct_empty : ({} : PathMap α).Distinct :=
  List.Pairwise.nil

theorem distinct_insert {m : PathMap α} (h : m.Distinct) (p : Path) (a : α) :
    (m.insert p a).Distinct := by
  unfold insert
  split
  · have hk : ∀ entry : Path × α,
        (if entry.1.same p then (entry.1, a) else entry).1 = entry.1 := by
      intro entry
      split <;> rfl
    refine List.pairwise_map.2 (h.imp fun hn => ?_)
    rwa [hk, hk]
  · rename_i hm
    refine List.pairwise_append.2 ⟨h, List.pairwise_singleton _ _, ?_⟩
    intro entry he later hl hs
    rw [List.mem_singleton.1 hl] at hs
    exact hm (List.any_eq_true.2 ⟨entry, he, hs⟩)

theorem distinct_erase {m : PathMap α} (h : m.Distinct) (p : Path) : (m.erase p).Distinct :=
  h.filter _

theorem find?_eq_some_of_mem {m : PathMap α} (h : m.Distinct) {entry : Path × α}
    (he : entry ∈ m.entries) : m.find? entry.1 = some entry.2 := by
  obtain ⟨entries⟩ := m
  induction entries with
  | nil => cases he
  | cons first rest ih =>
    obtain ⟨hf, hr⟩ := List.pairwise_cons.1 h
    rw [find?, List.find?_cons]
    cases he with
    | head => simp
    | tail _ he =>
      simp only [hf entry he]
      exact ih hr he

/-- **The values are those that are found.** -/
theorem mem_values_iff {m : PathMap α} (h : m.Distinct) {a : α} :
    a ∈ m.values ↔ ∃ p, m.find? p = some a := by
  constructor
  · intro ha
    obtain ⟨entry, he, rfl⟩ := List.mem_map.1 ha
    exact ⟨entry.1, find?_eq_some_of_mem h he⟩
  · rintro ⟨p, hf⟩
    exact mem_values_of_find? hf

end PathMap

end EviAssist
