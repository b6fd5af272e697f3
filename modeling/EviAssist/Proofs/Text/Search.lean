import EviAssist.Text.Search

/-!
# Beginnings of texts

* `Text.afterStart?_eq_some_iff`, `Text.isSome_afterStart?_iff`: what follows a beginning.
* `Text.afterStart?_append_of_head`: a beginning of a text that something else follows.
* `Text.takeWhile_append_of_head`, `Text.dropWhile_append_of_head`: a run of one class of
  characters and what follows it.
-/

namespace EviAssist.Text

theorem afterStart?_append (start rest : List Char) :
    afterStart? start (start ++ rest) = some rest := by
  induction start with
  | nil => rfl
  | cons s start ih => rw [List.cons_append, afterStart?, if_pos rfl, ih]

theorem afterStart?_eq_some_iff {start cs rest : List Char} :
    afterStart? start cs = some rest ↔ cs = start ++ rest := by
  refine ⟨fun h => ?_, fun h => h ▸ afterStart?_append start rest⟩
  fun_induction afterStart? start cs with
  | case1 cs => exact Option.some.inj h
  | case2 s start => cases h
  | case3 s start cs ih => rw [List.cons_append, ← ih h]
  | case4 => cases h

/-- A text has a beginning when it is a prefix. -/
theorem isSome_afterStart?_iff {start cs : List Char} :
    (afterStart? start cs).isSome = true ↔ start <+: cs := by
  rw [Option.isSome_iff_exists]
  simp only [afterStart?_eq_some_iff]
  exact exists_congr fun _ => eq_comm

/-- What cannot continue a beginning stays behind what follows it. -/
theorem afterStart?_append_of_head {start tail : List Char} (h : ∀ c ∈ tail.head?, c ∉ start)
    (cs : List Char) :
    afterStart? start (cs ++ tail) = (afterStart? start cs).map (· ++ tail) := by
  induction start generalizing cs with
  | nil => rfl
  | cons s start ih =>
    cases cs with
    | nil =>
      cases tail with
      | nil => rfl
      | cons c tail =>
        have hne : s ≠ c := fun hc => h c rfl (hc ▸ .head _)
        exact if_neg hne
    | cons c cs =>
      rw [List.cons_append, afterStart?, afterStart?]
      split
      · exact ih (fun d hd hmem => h d hd (.tail _ hmem)) cs
      · rfl

/-! ## Runs -/

section Run

variable {α : Type} {p : α → Bool} {run rest : List α}

theorem takeWhile_append_of_head (h : ∀ c ∈ run, p c = true) (hr : ∀ c ∈ rest.head?, p c = false) :
    (run ++ rest).takeWhile p = run := by
  rw [List.takeWhile_append_of_pos h]
  cases rest with
  | nil => rw [List.takeWhile_nil, List.append_nil]
  | cons c rest =>
    rw [List.takeWhile_cons_of_neg (by simpa using hr c rfl), List.append_nil]

theorem dropWhile_append_of_head (h : ∀ c ∈ run, p c = true) (hr : ∀ c ∈ rest.head?, p c = false) :
    (run ++ rest).dropWhile p = rest := by
  rw [List.dropWhile_append_of_pos h]
  cases rest with
  | nil => rfl
  | cons c rest => exact List.dropWhile_cons_of_neg (by simpa using hr c rfl)

end Run

end EviAssist.Text
