import EviAssist.Proofs.CallSite.Hidden
import EviAssist.Proofs.Document.Literals

/-!
# Literals before a call site

Two readers tell which characters are inside string literals. A document's lines are read forwards,
and a backslash in a literal takes the next character with it. Calls are looked for backwards from
the cursor, where a backslash means nothing and a literal begins at the next quote.

* `CallSite.emptied`, `CallSite.emptiedColumn`: a line with its literals emptied, and its columns.
* `CallSite.hidden_closed`, `CallSite.enclosed_eq_hidden_iff`: where both readers agree.
* `CallSite.find?_unmarked`: a text of one line without what is hidden before a column.
* `CallSite.readers_agree_iff`: the readers agree unless a literal has a quote in it, and as long
  as none has, the contents of literals have no influence.
-/

namespace EviAssist.CallSite

open Document

/-- A line with the content of each literal left out. -/
def emptied (line : List Char) : List Char :=
  unmarked line (enclosed line)

/-- Where a column of a line is when the content of each literal has been left out. -/
def emptiedColumn (line : List Char) (column : Nat) : Nat :=
  (unmarked (line.take column) ((enclosed line).take column)).length

variable {c quote : Char} {cs content rest line : List Char} {marks : List Bool} {column : Nat}

/-! ## Both readers -/

theorem hidden_content (h : quote ∉ content) :
    hidden (some quote) (content ++ quote :: rest) =
      List.replicate content.length true ++ false :: hidden none rest := by
  induction content with
  | nil => simp [hidden]
  | cons c content ih =>
    rw [List.mem_cons, not_or] at h
    rw [List.cons_append, hidden, if_neg (Ne.symm h.1), ih h.2]
    simp [List.replicate_succ, Ne.symm h.1]

theorem mem_zip_replicate (h : c ∈ content) :
    (c, true) ∈ content.zip (List.replicate content.length true) := by
  obtain ⟨i, hi⟩ := List.mem_iff_getElem?.1 h
  have hlt : i < content.length := (List.getElem?_eq_some_iff.1 hi).1
  exact List.mem_iff_getElem?.2
    ⟨i, List.getElem?_zip_eq_some.2 ⟨hi, List.getElem?_replicate_of_lt hlt⟩⟩

/-- **Both readers agree over closed literals** without quotes in them. -/
theorem hidden_closed (h : Closed cs marks) (hquote : ('"', true) ∉ cs.zip marks)
    (hs : '\'' ∉ cs) :
    hidden none (cs.reverse ++ rest) = marks.reverse ++ hidden none rest := by
  induction h generalizing rest with
  | nil => rfl
  | plain hc _ ih =>
    rw [List.zip_cons_cons, List.mem_cons, not_or] at hquote
    rw [List.mem_cons, not_or] at hs
    have hopens : opens? _ = none := if_neg fun ho => ho.elim hc (Ne.symm hs.1)
    rw [List.reverse_cons, List.append_assoc, List.singleton_append, ih hquote.2 hs.2, hidden,
      hopens, List.reverse_cons, List.append_assoc, List.singleton_append]
  | literal content _ ih =>
    rw [List.zip_cons_cons, List.zip_append List.length_replicate.symm,
      List.zip_cons_cons] at hquote
    simp only [List.mem_cons, List.mem_append, not_or] at hquote hs
    obtain ⟨-, hcontent, -, hquote⟩ := hquote
    have hnone : '"' ∉ content.reverse := fun hm =>
      hcontent (mem_zip_replicate (List.mem_reverse.1 hm))
    simp only [List.reverse_cons, List.reverse_append, List.append_assoc, List.cons_append,
      List.nil_append, List.reverse_replicate]
    rw [ih hquote hs.2.2.2, ← content.length_reverse, ← hidden_content hnone]
    rfl

theorem quote_not_hidden (hs : '\'' ∉ cs) {opened : Option Char}
    (ho : opened = none ∨ opened = some '"') : ('"', true) ∉ cs.zip (hidden opened cs) := by
  induction cs generalizing opened with
  | nil => simp
  | cons c cs ih =>
    rw [List.mem_cons, not_or] at hs
    obtain rfl | rfl := ho
    · rw [hidden, List.zip_cons_cons, List.mem_cons, not_or]
      refine ⟨by simp, ih hs.2 ?_⟩
      by_cases hc : c = '"'
      · rw [hc]
        exact .inr rfl
      · exact .inl (if_neg fun h => h.elim hc (Ne.symm hs.1))
    · rw [hidden, List.zip_cons_cons, List.mem_cons, not_or]
      refine ⟨?_, ih hs.2 ?_⟩
      · rw [Prod.mk.injEq]
        rintro ⟨rfl, hne⟩
        exact absurd hne (by decide)
      · split
        · exact .inl rfl
        · exact .inr rfl

/-- **Where the readers agree**: unless a literal has a quote in it. -/
theorem enclosed_eq_hidden_iff (h : ClosesLiterals line column)
    (hs : '\'' ∉ line) :
    (enclosed line).take column = (hidden none (line.take column).reverse).reverse ↔
      ¬HasQuoteInside line column := by
  have hbefore : '\'' ∉ line.take column := fun hm => hs (List.mem_of_mem_take hm)
  rw [hasQuoteInside_iff]
  constructor
  · intro heq
    have hzip := reverse_zip (length_hidden none (line.take column).reverse).symm
    rw [List.reverse_reverse] at hzip
    rw [heq, hzip, List.mem_reverse]
    exact quote_not_hidden (fun hm => hbefore (List.mem_reverse.1 hm)) (.inl rfl)
  · intro hquote
    have hhidden : hidden none ((line.take column).reverse ++ []) = _ :=
      hidden_closed (closed_take h) hquote hbefore
    rw [List.append_nil, hidden, List.append_nil] at hhidden
    rw [hhidden, List.reverse_reverse]

/-! ## Texts of one line -/

theorem linesOf_of_notMem (h : '\n' ∉ cs) (hne : cs ≠ []) : Text.linesOf cs = [cs] := by
  induction cs with
  | nil => exact absurd rfl hne
  | cons c rest ih =>
    rw [List.mem_cons, not_or] at h
    rw [Text.linesOf.eq_4 c rest (Ne.symm h.1)
      (fun more _ hr => h.2 (hr ▸ List.mem_cons_self))]
    cases rest with
    | nil => rfl
    | cons d rest => rw [ih h.2 (List.cons_ne_nil d rest)]

theorem textBefore_of_notMem {text : String} (h : '\n' ∉ text.toList) (character : UInt32) :
    textBefore text ⟨0, character⟩ = text.toList.take character.toNat := by
  change before (Text.linesOf text.toList) 0 character.toNat = _
  by_cases hne : text.toList = []
  · rw [hne, List.take_nil]
    rfl
  · rw [linesOf_of_notMem h hne]
    rfl

theorem textBefore_append (h : '\n' ∉ cs ++ rest) (hlength : cs.length < UInt32.size) :
    textBefore (String.ofList (cs ++ rest)) ⟨0, UInt32.ofNat cs.length⟩ = cs := by
  rw [textBefore_of_notMem (by rwa [String.toList_ofList]), String.toList_ofList,
    UInt32.toNat_ofNat_of_lt' hlength, List.take_left]

/-- A text of one line may lose what is hidden before a column. -/
theorem find?_unmarked {text : String} (h : '\n' ∉ text.toList) (character : UInt32)
    {marks : List Bool}
    (hmarks : marks = (hidden none (text.toList.take character.toNat).reverse).reverse)
    (rest : List Char) (hrest : '\n' ∉ rest) :
    find? (String.ofList (unmarked (text.toList.take character.toNat) marks ++ rest))
        ⟨0, UInt32.ofNat (unmarked (text.toList.take character.toNat) marks).length⟩ =
      find? text ⟨0, character⟩ := by
  have hseen : '\n' ∉ unmarked (text.toList.take character.toNat) marks ++ rest := by
    rw [List.mem_append, not_or]
    exact ⟨fun hm => h (List.mem_of_mem_take (mem_of_mem_unmarked hm)), hrest⟩
  have hlength := length_unmarked_le (text.toList.take character.toNat) marks
  rw [List.length_take] at hlength
  have hcharacter := character.toNat_lt_size
  apply find?_congr
  rw [textBefore_append hseen (by omega), textBefore_of_notMem h, hmarks, ← unmarked_reverse,
    List.reverse_reverse, visible]
  rw [List.length_reverse, length_hidden, List.length_reverse]

theorem emptied_eq (line : List Char) (column : Nat) :
    emptied line = unmarked (line.take column) ((enclosed line).take column) ++
      unmarked (line.drop column) ((enclosed line).drop column) := by
  rw [← unmarked_append (by simp [length_enclosed]), List.take_append_drop,
    List.take_append_drop, emptied]

/-- **Contents of literals and calls.** In a text of one line without single quotes, in which the
literals that begin before a column end there, both readers tell the same characters before the
column to be inside literals unless one of the literals has a quote in it. When none has, the call
at the column is the one found when all literals have been emptied. In any case it is the one found
when all that is hidden on the way back has been left out. -/
theorem readers_agree_iff {text : String} {character : UInt32} (hline : '\n' ∉ text.toList)
    (hsingle : '\'' ∉ text.toList) (hclosed : ClosesLiterals text.toList character.toNat) :
    let line := text.toList
    let column := character.toNat
    let marks := (hidden none (line.take column).reverse).reverse
    ((enclosed line).take column = marks ↔ ¬HasQuoteInside line column) ∧
      (¬HasQuoteInside line column →
        find? (String.ofList (emptied line)) ⟨0, UInt32.ofNat (emptiedColumn line column)⟩ =
          find? text ⟨0, character⟩) ∧
      find? (String.ofList (unmarked (line.take column) marks))
          ⟨0, UInt32.ofNat (unmarked (line.take column) marks).length⟩ =
        find? text ⟨0, character⟩ := by
  intro line column marks
  have hagree := enclosed_eq_hidden_iff hclosed hsingle
  refine ⟨hagree, fun hquote => ?_, ?_⟩
  · rw [emptied_eq line column, emptiedColumn]
    exact find?_unmarked hline character (hagree.2 hquote) _ fun hm =>
      hline (List.mem_of_mem_drop (mem_of_mem_unmarked hm))
  · have hseen := find?_unmarked hline character rfl [] List.not_mem_nil
    rwa [List.append_nil] at hseen

/-- A literal with a quote in it: forwards it ends at the last quote, and backwards it begins at
the quote inside and another one begins at its own first quote and hides the call. -/
theorem readers_disagree_over_quote :
    let text := "f(\"a\\\"b\", "
    '\n' ∉ text.toList ∧ '\'' ∉ text.toList ∧ ClosesLiterals text.toList 10 ∧
      HasQuoteInside text.toList 10 ∧
      (enclosed text.toList).take 10 ≠ (hidden none (text.toList.take 10).reverse).reverse ∧
      find? text ⟨0, 10⟩ = none ∧
      String.ofList (emptied text.toList) = "f(\"\", " ∧ emptiedColumn text.toList 10 = 6 ∧
      find? "f(\"\", " ⟨0, 6⟩ = some ⟨"f", 1⟩ := by
  intro text
  have hline : '\n' ∉ text.toList := by decide
  have hsingle : '\'' ∉ text.toList := by decide
  have hclosed : ClosesLiterals text.toList (10 : UInt32).toNat := by
    unfold ClosesLiterals
    decide
  have hquote : HasQuoteInside text.toList (10 : UInt32).toNat := by
    unfold HasQuoteInside
    decide
  obtain ⟨hagree, -, -⟩ := readers_agree_iff hline hsingle hclosed
  refine ⟨hline, hsingle, hclosed, hquote, fun heq => hagree.1 heq hquote, ?_⟩
  decide +kernel

end EviAssist.CallSite
