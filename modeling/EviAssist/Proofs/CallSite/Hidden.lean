import EviAssist.Proofs.CallSite

/-!
# What is hidden from a call site

On the way back from a cursor a quote hides everything up to the next quote of its kind. What is
hidden may be left out without any influence on the call that is found.

* `CallSite.hidden`, `CallSite.visible`: the characters that are hidden, and those that are seen.
* `CallSite.arguments?_cons`: the way back over one character.
* `CallSite.arguments?_visible`: the commas.
* `CallSite.dropWhile_visible`, `CallSite.takeWhile_visible`, `CallSite.callee?_visible`: classes
  of characters without quotes, and the called name.
* `CallSite.find?_congr`: the call that is found.
-/

namespace EviAssist.CallSite

/-- The quote that a character opens on the way back, if it is one. -/
def opens? (c : Char) : Option Char :=
  if c = '"' ∨ c = '\'' then some c else none

/-- For each character of a text read backwards whether it is inside a literal, `quote` being the
quote not yet met again. -/
def hidden : Option Char → List Char → List Bool
  | _, [] => []
  | some quote, c :: cs => (c != quote) :: hidden (if c = quote then none else some quote) cs
  | none, c :: cs => false :: hidden (opens? c) cs

/-- The characters that are not marked. -/
def unmarked (cs : List Char) (marks : List Bool) : List Char :=
  ((cs.zip marks).filter fun entry => !entry.2).map (·.1)

variable {c quote : Char} {cs : List Char} {marks : List Bool}

/-! ## Characters without marks -/

theorem unmarked_cons (c : Char) (cs : List Char) (mark : Bool) (marks : List Bool) :
    unmarked (c :: cs) (mark :: marks) =
      if mark then unmarked cs marks else c :: unmarked cs marks := by
  cases mark <;> rfl

theorem unmarked_append (h : cs.length = marks.length) (rest : List Char) (more : List Bool) :
    unmarked (cs ++ rest) (marks ++ more) = unmarked cs marks ++ unmarked rest more := by
  simp only [unmarked, List.zip_append h, List.filter_append, List.map_append]

theorem reverse_zip (h : cs.length = marks.length) :
    cs.reverse.zip marks.reverse = (cs.zip marks).reverse := by
  induction cs generalizing marks with
  | nil => rfl
  | cons c cs ih =>
    obtain ⟨mark, marks, rfl⟩ := List.exists_cons_of_length_eq_add_one h.symm
    have hlength : cs.length = marks.length := Nat.succ.inj h
    rw [List.reverse_cons, List.reverse_cons, List.zip_append (by simpa using hlength),
      ih hlength, List.zip_cons_cons, List.zip_nil_left, List.zip_cons_cons, List.reverse_cons]

theorem unmarked_reverse (h : cs.length = marks.length) :
    unmarked cs.reverse marks.reverse = (unmarked cs marks).reverse := by
  rw [unmarked, reverse_zip h, List.filter_reverse, List.map_reverse, ← unmarked]

theorem mem_of_mem_unmarked (h : c ∈ unmarked cs marks) : c ∈ cs := by
  obtain ⟨entry, he, rfl⟩ := List.mem_map.1 h
  exact (List.of_mem_zip (List.mem_filter.1 he).1).1

theorem length_unmarked_le (cs : List Char) (marks : List Bool) :
    (unmarked cs marks).length ≤ cs.length := by
  rw [unmarked, List.length_map]
  refine Nat.le_trans (List.length_filter_le _ _) ?_
  rw [List.length_zip]
  exact Nat.min_le_left _ _

/-! ## The way back -/

/-- What is seen of a text on the way back. -/
def visible (quote : Option Char) (cs : List Char) : List Char :=
  unmarked cs (hidden quote cs)

theorem length_hidden (quote : Option Char) (cs : List Char) :
    (hidden quote cs).length = cs.length := by
  induction cs generalizing quote with
  | nil => cases quote <;> rfl
  | cons c cs ih => cases quote <;> rw [hidden, List.length_cons, ih, List.length_cons]

theorem visible_some :
    visible (some quote) (c :: cs) =
      if c = quote then c :: visible none cs else visible (some quote) cs := by
  rw [visible, hidden, unmarked_cons]
  by_cases h : c = quote <;> simp [h, visible]

theorem visible_none : visible none (c :: cs) = c :: visible (opens? c) cs :=
  rfl

theorem opens?_of_isPlain (h : IsPlain c) : opens? c = none := by
  simp only [IsPlain, List.mem_cons, List.not_mem_nil, or_false, not_or] at h
  simp only [opens?, h, or_self, if_false]

/-- The way back over a character outside of literals: the open parenthesis of the call ends it,
and any other character changes the nesting and the commas whatever stands before it. -/
theorem arguments?_cons (n : Nesting) (k : Nat) (c : Char) :
    (c = '(' ∧ ∀ cs, arguments? none n k (c :: cs) = some (k, cs)) ∨
      ∃ m l, ∀ cs, arguments? none n k (c :: cs) = arguments? (opens? c) m l cs := by
  by_cases hc : IsPlain c
  · exact .inr ⟨n, k, fun cs => by rw [arguments?_plain hc, opens?_of_isPlain hc]⟩
  · simp only [IsPlain, List.mem_cons, List.not_mem_nil, or_false, not_not] at hc
    obtain rfl | rfl | rfl | rfl | rfl | rfl | rfl | rfl | rfl := hc
    · exact .inr ⟨n, _, fun _ => arguments?_comma⟩
    · obtain ⟨parens, brackets, braces⟩ := n
      cases parens with
      | zero => exact .inl ⟨rfl, fun _ => rfl⟩
      | succ parens => exact .inr ⟨⟨parens, brackets, braces⟩, k, fun _ => rfl⟩
    all_goals exact .inr ⟨_, _, fun _ => rfl⟩

/-- **What is hidden has no influence** on the commas counted, and only what is seen is left. -/
theorem arguments?_visible (quote : Option Char) (n : Nesting) (k : Nat) (cs : List Char) :
    arguments? quote n k (visible quote cs) =
      (arguments? quote n k cs).map fun (commas, rest) => (commas, visible none rest) := by
  induction cs generalizing quote n k with
  | nil => cases quote <;> rfl
  | cons c cs ih =>
    cases quote with
    | some quote =>
      rw [visible_some, arguments?]
      by_cases h : c = quote
      · rw [if_pos h, if_pos h, arguments?, if_pos h, ih]
      · rw [if_neg h, if_neg h, ih]
    | none =>
      rw [visible_none]
      obtain ⟨rfl, hends⟩ | ⟨m, l, hgoes⟩ := arguments?_cons n k c
      · rw [hends, hends]
        rfl
      · rw [hgoes, hgoes, ih]

/-! ## Classes of characters without quotes -/

section Classes

variable {p : Char → Bool} (hdouble : p '"' = false) (hsingle : p '\'' = false)

include hdouble hsingle

theorem opens?_of_class (h : p c = true) : opens? c = none := by
  refine if_neg ?_
  rintro (rfl | rfl)
  · exact Bool.noConfusion (hdouble.symm.trans h)
  · exact Bool.noConfusion (hsingle.symm.trans h)

theorem dropWhile_visible (cs : List Char) :
    (visible none cs).dropWhile p = visible none (cs.dropWhile p) := by
  induction cs with
  | nil => rfl
  | cons c cs ih =>
    rw [visible_none]
    by_cases h : p c = true
    · rw [List.dropWhile_cons_of_pos h, List.dropWhile_cons_of_pos h,
        opens?_of_class hdouble hsingle h, ih]
    · rw [List.dropWhile_cons_of_neg h, List.dropWhile_cons_of_neg h, visible_none]

theorem takeWhile_visible (cs : List Char) :
    (visible none cs).takeWhile p = cs.takeWhile p := by
  induction cs with
  | nil => rfl
  | cons c cs ih =>
    rw [visible_none]
    by_cases h : p c = true
    · rw [List.takeWhile_cons_of_pos h, List.takeWhile_cons_of_pos h,
        opens?_of_class hdouble hsingle h, ih]
    · rw [List.takeWhile_cons_of_neg h, List.takeWhile_cons_of_neg h]

end Classes

/-! ## Calls -/

/-- A name never reaches into a literal. -/
theorem callee?_visible (cs : List Char) : callee? (visible none cs) = callee? cs := by
  rw [callee?, dropWhile_visible (by decide) (by decide),
    takeWhile_visible (by decide) (by decide), ← callee?]

/-- **What is hidden has no influence on the call found**: positions find the same call when the
texts before them are seen alike on the way back. -/
theorem find?_congr {text text' : String} {at' at'' : Position}
    (h : (textBefore text' at'').reverse = visible none (textBefore text at').reverse) :
    find? text' at'' = find? text at' := by
  rw [find?_eq, find?_eq, h, arguments?_visible]
  cases arguments? none {} 0 (textBefore text at').reverse with
  | none => rfl
  | some found =>
    change (callee? (visible none found.2)).map _ = _
    rw [callee?_visible]
    rfl

end EviAssist.CallSite
