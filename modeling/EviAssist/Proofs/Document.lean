import EviAssist.Document

/-!
# The word at a column

* `Document.bounds_of_wordSpan?`: a word touches the column that it is found at.
* `Document.wordBefore`: the part of a word that is left of a position.
-/

namespace EviAssist.Document

variable {line : List Char} {column : Nat} {span : Span}

theorem bounds_of_plainWord? (h : plainWord? line column = some span) :
    span.start ≤ column ∧ column ≤ span.stop := by
  unfold plainWord? at h
  simp only [Option.ite_none_left_eq_some, Option.some.injEq] at h
  obtain ⟨-, rfl⟩ := h
  refine ⟨?_, Nat.le_add_right _ _⟩
  dsimp only
  split <;> omega

/-- A word touches the column that it is found at. -/
theorem bounds_of_wordSpan? (h : wordSpan? line column = some span) :
    span.start ≤ column ∧ column ≤ span.stop := by
  unfold wordSpan? at h
  split at h
  · cases h
  split at h
  · rename_i literal hf
    cases h
    have hc := List.find?_some hf
    simp only [Span.covers, Bool.and_eq_true, decide_eq_true_eq] at hc
    exact ⟨hc.1, Nat.le_of_lt hc.2⟩
  · exact bounds_of_plainWord? h

/-- The part of the word at a position that is left of the position; nothing without a word. -/
def wordBefore (document : Document) (at' : Position) : String :=
  match document.wordRange? at', document.word? at' with
  | some range, some word =>
    String.ofList (word.toList.take (at'.character.toNat - range.start.character.toNat))
  | _, _ => ""

theorem take_slice (h : column ≤ span.stop) :
    (span.slice line).take (column - span.start) =
      (line.drop span.start).take (column - span.start) := by
  rw [Span.slice, List.drop_take, List.take_take, Nat.min_eq_left (by omega)]

end EviAssist.Document
