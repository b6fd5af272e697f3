import EviAssist.Path

/-!
# Paths as they are first seen

Where paths come one after another, each is taken once: in the spelling and at the place of its
first occurrence.

* `Path.IsFirstSeen`: the different paths of a list, as they are first written.
* `Path.IsFirstSeen.concat_of_mem`, `Path.IsFirstSeen.concat_of_notMem`: one path more.
-/

namespace EviAssist.Path

variable {seen files : List Path} {p file : Path}

/-- Whether `files` are the different paths of `seen`, in the spelling and in the order in which
they are first seen. -/
structure IsFirstSeen (seen files : List Path) : Prop where
  complete : ∀ p ∈ seen, ∃ file ∈ files, file.same p = true
  spelled : ∀ file ∈ files, seen.find? (·.same file) = some file
  inOrder : files.Pairwise fun file later =>
    seen.findIdx (·.same file) < seen.findIdx (·.same later)

theorem IsFirstSeen.findIdx_append (h : IsFirstSeen seen files) (hf : file ∈ files)
    (later : List Path) :
    (seen ++ later).findIdx (·.same file) = seen.findIdx (·.same file) ∧
      seen.findIdx (·.same file) < seen.length := by
  have hm : file ∈ seen := List.mem_of_find?_eq_some (h.spelled file hf)
  have hlt : seen.findIdx (·.same file) < seen.length :=
    List.findIdx_lt_length_of_exists ⟨file, hm, same_self file⟩
  exact ⟨by rw [List.findIdx_append, if_pos hlt], hlt⟩

theorem IsFirstSeen.spelled_append (h : IsFirstSeen seen files) (hf : file ∈ files)
    (later : List Path) : (seen ++ later).find? (·.same file) = some file := by
  rw [List.find?_append, h.spelled file hf]
  rfl

theorem IsFirstSeen.inOrder_append (h : IsFirstSeen seen files) (later : List Path) :
    files.Pairwise fun file other =>
      (seen ++ later).findIdx (·.same file) < (seen ++ later).findIdx (·.same other) :=
  h.inOrder.imp_of_mem fun hf ho hlt => by
    rwa [(h.findIdx_append hf later).1, (h.findIdx_append ho later).1]

/-- Seeing a path again changes nothing. -/
theorem IsFirstSeen.concat_of_mem (h : IsFirstSeen seen files)
    (hp : ∃ file ∈ files, file.same p = true) : IsFirstSeen (seen ++ [p]) files where
  complete := List.forall_mem_append.2 ⟨h.complete, List.forall_mem_singleton.2 hp⟩
  spelled _ hf := h.spelled_append hf [p]
  inOrder := h.inOrder_append [p]

/-- A path that is seen for the first time comes last. -/
theorem IsFirstSeen.concat_of_notMem (h : IsFirstSeen seen files)
    (hp : ¬∃ file ∈ files, file.same p = true) : IsFirstSeen (seen ++ [p]) (files ++ [p]) := by
  -- A path of `seen` that is the same would be one of `files`, in some spelling.
  have hnew : ∀ q ∈ seen, ¬q.same p = true := by
    intro q hq hs
    obtain ⟨file, hf, hfile⟩ := h.complete q hq
    exact hp ⟨file, hf, same_trans hfile hs⟩
  have hidx : (seen ++ [p]).findIdx (·.same p) = seen.length := by
    rw [List.findIdx_append, List.findIdx_eq_length_of_false
      fun q hq => Bool.eq_false_iff.2 (hnew q hq), if_neg (Nat.lt_irrefl _)]
    simp [List.findIdx_cons]
  constructor
  · intro q hq
    obtain hq | hq := List.mem_append.1 hq
    · obtain ⟨file, hf, hs⟩ := h.complete q hq
      exact ⟨file, List.mem_append_left _ hf, hs⟩
    · rw [List.mem_singleton.1 hq]
      exact ⟨p, List.mem_append_right _ (List.mem_singleton_self p), same_self p⟩
  · intro file hf
    obtain hf | hf := List.mem_append.1 hf
    · exact h.spelled_append hf [p]
    · rw [List.mem_singleton.1 hf, List.find?_append, List.find?_eq_none.2 hnew]
      simp
  · refine List.pairwise_append.2 ⟨h.inOrder_append [p], List.pairwise_singleton _ _, ?_⟩
    intro file hf later hl
    rw [List.mem_singleton.1 hl, hidx, (h.findIdx_append hf [p]).1]
    exact (h.findIdx_append hf [p]).2

end EviAssist.Path
