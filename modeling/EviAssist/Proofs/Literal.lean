import EviAssist.Feature
import EviAssist.Literal
import EviAssist.Proofs.Document.Words

/-!
# String literals

A reader of the line finds literals from quote to quote; the type of a word is told by a pattern
that the whole word must have. On text of one line the two agree on every content: pairs of a
backslash and any character, and characters other than quotes and backslashes.

* `Literal.IsBody`: what the pattern allows between the quotes.
* `Literal.type?_eq_string_iff`: the words that the pattern takes for strings.
* `Document.endsAfter_iff_isBody`: what the reader passes over inside a literal.
* `Document.wordSpan?_of_covers`, `Document.wordSpan?_cases`: literals are words as a whole, and no
  other word begins with a quote.
* `Feature.tells_string_literals`: the words of type `chr*`, and what is shown for them.
-/

namespace EviAssist

/-! ## Lines -/

theorem Text.notMem_of_mem_linesOf {text cs : List Char} (h : cs ∈ linesOf text) :
    '\n' ∉ cs := by
  fun_induction linesOf text generalizing cs with
  | case1 => cases h
  | case2 rest ih =>
    obtain rfl | h := List.mem_cons.1 h
    · exact List.not_mem_nil
    · exact ih h
  | case3 rest ih =>
    obtain rfl | h := List.mem_cons.1 h
    · exact List.not_mem_nil
    · exact ih h
  | case4 c rest hfeed hreturn heq ih =>
    rw [List.mem_singleton.1 h, List.mem_singleton]
    exact Ne.symm hfeed
  | case5 c rest hfeed hreturn first more heq ih =>
    rw [heq] at ih
    obtain rfl | h := List.mem_cons.1 h
    · rw [List.mem_cons, not_or]
      exact ⟨Ne.symm hfeed, ih List.mem_cons_self⟩
    · exact ih (List.mem_cons_of_mem _ h)

/-! ## The pattern -/

namespace Literal

/-- What may stand between the quotes of a string: pairs of a backslash and a character of the same
line, and characters other than quotes and backslashes. -/
inductive IsBody : List Char → Prop
  /-- Nothing. -/
  | nil : IsBody []
  /-- A backslash takes the next character with it. -/
  | escape {c : Char} {content : List Char} :
    c ≠ '\n' → IsBody content → IsBody ('\\' :: c :: content)
  /-- Any other character but a quote. -/
  | plain {c : Char} {content : List Char} :
    c ≠ '"' → c ≠ '\\' → IsBody content → IsBody (c :: content)

variable {cs content : List Char} {word : String}

theorem isStringRest_append_quote (h : IsBody content) :
    isStringRest (content ++ ['"']) = true := by
  induction h with
  | nil => rfl
  | escape hc _ ih => simpa [isStringRest, hc] using ih
  | plain hq hb _ ih =>
    rw [List.cons_append, isStringRest.eq_4 _ _ (fun _ _ h => absurd h hb) (fun h => absurd h hq)]
    simpa [hq, hb] using ih

theorem isStringRest_iff :
    isStringRest cs = true ↔ ∃ content, IsBody content ∧ cs = content ++ ['"'] := by
  constructor
  · intro h
    fun_induction isStringRest cs with
    | case1 => cases h
    | case2 c rest ih =>
      rw [Bool.and_eq_true, bne_iff_ne] at h
      obtain ⟨content, hbody, rfl⟩ := ih h.2
      exact ⟨_, .escape h.1 hbody, rfl⟩
    | case3 => exact ⟨[], .nil, rfl⟩
    | case4 c rest _ _ ih =>
      simp only [Bool.and_eq_true, bne_iff_ne] at h
      obtain ⟨content, hbody, rfl⟩ := ih h.2
      exact ⟨_, .plain h.1.1 h.1.2 hbody, rfl⟩
  · rintro ⟨content, hbody, rfl⟩
    exact isStringRest_append_quote hbody

theorem isString_iff :
    isString cs = true ↔ ∃ content, IsBody content ∧ cs = '"' :: (content ++ ['"']) := by
  constructor
  · intro h
    unfold isString at h
    split at h
    · obtain ⟨content, hbody, rfl⟩ := isStringRest_iff.1 h
      exact ⟨content, hbody, rfl⟩
    · cases h
  · rintro ⟨content, hbody, rfl⟩
    exact isStringRest_append_quote hbody

theorem not_number_of_quote (rest : List Char) :
    isUnsignedInteger (unsigned ('"' :: rest)) = false ∧
      isUnsignedDecimal (unsigned ('"' :: rest)) = false :=
  ⟨by cases rest <;> rfl, rfl⟩

/-- **The words that the pattern takes for strings.** -/
theorem type?_eq_string_iff :
    type? word = some "chr*" ↔
      ∃ content, IsBody content ∧ word.toList = '"' :: (content ++ ['"']) := by
  rw [← isString_iff]
  constructor
  · intro h
    simp only [type?] at h
    split_ifs at h with _ _ hs
    · exact absurd (Option.some.inj h) (by decide)
    · exact absurd (Option.some.inj h) (by decide)
    · exact hs
  · intro h
    obtain ⟨content, -, heq⟩ := isString_iff.1 h
    obtain ⟨hinteger, hdecimal⟩ := not_number_of_quote (content ++ ['"'])
    rw [← heq] at hinteger hdecimal
    simp only [type?, hinteger, hdecimal, h, Bool.false_eq_true, if_false, if_true]

end Literal

/-! ## The reader -/

namespace Document

open Literal (IsBody)

variable {cs content after : List Char} {column : Nat} {s t : Span}

theorem lt_stop_of_mem_literalsFrom {opened : Option Nat}
    (h : s ∈ literalsFrom column opened cs) : column < s.stop := by
  fun_induction literalsFrom column opened cs with
  | case1 => cases h
  | case2 column start c rest ih => exact Nat.lt_of_succ_lt (Nat.lt_of_succ_lt (ih h))
  | case3 column start rest ih =>
    obtain rfl | h := List.mem_cons.1 h
    · exact Nat.lt_succ_self _
    · exact Nat.lt_of_succ_lt (ih h)
  | case4 column rest ih => exact Nat.lt_of_succ_lt (ih h)
  | case5 column opened c rest _ _ _ ih => exact Nat.lt_of_succ_lt (ih h)

theorem literalsFrom_some_plain {c : Char} (hq : c ≠ '"') (hb : c ≠ '\\') (column start : Nat)
    (rest : List Char) :
    literalsFrom column (some start) (c :: rest) = literalsFrom (column + 1) (some start) rest :=
  literalsFrom.eq_5 column (some start) c rest (fun _ _ _ _ h => absurd h hb)
    (fun _ _ h => absurd h hq) (by simp)

theorem endsAfter_of_isBody (h : IsBody content) : EndsAfter content after := by
  induction h with
  | nil => exact fun _ _ => rfl
  | @escape c content _ _ ih =>
    intro column start
    rw [List.cons_append, List.cons_append, literalsFrom, ih]
    simp only [List.length_cons, Nat.add_comm, Nat.add_left_comm]
  | @plain c content hq hb _ ih =>
    intro column start
    rw [List.cons_append, literalsFrom_some_plain hq hb, ih]
    simp only [List.length_cons, Nat.add_comm, Nat.add_left_comm]

theorem isBody_of_head? {start : Nat} (hline : '\n' ∉ content)
    (h : (literalsFrom column (some start) (content ++ '"' :: after)).head? =
      some ⟨start, column + content.length + 1⟩) : IsBody content := by
  fun_induction Literal.isStringRest content generalizing column with
  | case1 => exact .nil
  | case2 c rest ih =>
    simp only [List.mem_cons, not_or] at hline
    rw [List.cons_append, List.cons_append, literalsFrom] at h
    refine .escape (Ne.symm hline.2.1) (@ih (column + 2) hline.2.2 (h.trans ?_))
    simp only [List.length_cons, Nat.add_comm, Nat.add_left_comm]
  | case3 =>
    rw [List.cons_append, literalsFrom] at h
    simp at h
  | case4 c rest hescape _ ih =>
    simp only [List.mem_cons, not_or] at hline
    by_cases hq : c = '"'
    · rw [hq, List.cons_append, literalsFrom] at h
      simp at h
    by_cases hb : c = '\\'
    · -- A backslash at the end takes the quote with it, so the literal ends later.
      have hrest : rest = [] := by
        cases rest with
        | nil => rfl
        | cons d more => exact (hescape d more hb rfl).elim
      rw [hb, hrest, List.cons_append, List.nil_append, literalsFrom] at h
      have hstop := lt_stop_of_mem_literalsFrom (List.mem_of_head? h)
      simp at hstop
    · rw [List.cons_append, literalsFrom_some_plain hq hb] at h
      refine .plain hq hb (@ih (column + 1) hline.2 (h.trans ?_))
      simp only [List.length_cons, Nat.add_comm, Nat.add_left_comm]

/-- **What a reader passes over inside a literal** of one line. -/
theorem endsAfter_iff_isBody (hline : '\n' ∉ content) :
    EndsAfter content after ↔ IsBody content :=
  ⟨fun h => isBody_of_head? hline (congrArg List.head? (h 0 0)), endsAfter_of_isBody⟩

theorem literals_eq_singleton_iff :
    literals cs = [⟨0, cs.length⟩] ↔
      ∃ content, cs = '"' :: (content ++ ['"']) ∧ EndsAfter content [] := by
  constructor
  · intro h
    have hmem : (⟨0, cs.length⟩ : Span) ∈ literals cs := by
      rw [h]
      exact List.mem_singleton_self _
    obtain ⟨before, content, after, rfl, hends, heq⟩ := exists_of_mem_literalsFrom hmem
    simp only [Span.mk.injEq, List.length_append, List.length_cons] at heq
    obtain rfl := List.length_eq_zero_iff.1 (show before.length = 0 by omega)
    obtain rfl := List.length_eq_zero_iff.1 (show after.length = 0 by omega)
    exact ⟨content, rfl, hends⟩
  · rintro ⟨content, rfl, hends⟩
    rw [literals, literalsFrom_literal hends]
    simp [literalsFrom]

/-! ## Words -/

/-- **A literal is a word as a whole**, at every column that it covers. -/
theorem wordSpan?_of_covers (hs : s ∈ literals cs) (hc : s.covers column = true) :
    wordSpan? cs column = some s := by
  obtain ⟨-, hline, -⟩ := quotes_of_mem_literals hs
  have hfind : (literals cs).find? (·.covers column) = some s := by
    cases hf : (literals cs).find? (·.covers column) with
    | none => exact absurd hc (List.find?_eq_none.1 hf s hs)
    | some t =>
      -- No other literal covers the column.
      have ht := List.find?_some hf
      have hapart := (IsWord.literal hs).eq_or_disjoint (.literal (List.mem_of_find?_eq_some hf))
      simp only [Span.covers, Bool.and_eq_true, decide_eq_true_eq] at hc ht
      obtain rfl | hapart := hapart
      · rfl
      · omega
  simp only [Span.covers, Bool.and_eq_true, decide_eq_true_eq] at hc
  rw [wordSpan?, if_neg (by omega), hfind]

theorem IsRun.ne_quote {start stop : Nat} (h : IsRun cs start stop) :
    cs[signedStart cs start]? ≠ some '"' := by
  intro hq
  obtain heq | ⟨-, hminus⟩ := signedStart_cases cs start
  · rw [heq] at hq
    have hword := h.isWordAt start (Nat.le_refl _) h.lt
    rw [isWordAt_quote hq] at hword
    cases hword
  · rw [hminus] at hq
    cases hq

/-- What is found at a column is the literal that covers it, or it does not begin with a quote. -/
theorem wordSpan?_cases (h : wordSpan? cs column = some s) :
    (s ∈ literals cs ∧ s.covers column = true) ∨
      (∀ t ∈ literals cs, t.covers column = false) ∧ cs[s.start]? ≠ some '"' := by
  unfold wordSpan? at h
  split at h
  · cases h
  rename_i hc
  split at h
  · rename_i hfind
    cases h
    have hcovers := List.find?_some hfind
    exact .inl ⟨List.mem_of_find?_eq_some hfind, hcovers⟩
  · rename_i hfind
    obtain ⟨start, hrun, -, -, hs⟩ := exists_isRun_of_plainWord? (Nat.le_of_not_lt hc) h
    refine .inr ⟨fun t ht => ?_, hs ▸ hrun.ne_quote⟩
    rw [← Bool.not_eq_true]
    exact List.find?_eq_none.1 hfind t ht

theorem exists_slice_of_mem_literals (hline : '\n' ∉ cs) (hs : s ∈ literals cs) :
    ∃ content, IsBody content ∧ s.slice cs = '"' :: (content ++ ['"']) := by
  obtain ⟨before, content, after, rfl, hends, rfl⟩ := exists_of_mem_literalsFrom hs
  simp only [List.mem_append, List.mem_cons, not_or] at hline
  refine ⟨content, (endsAfter_iff_isBody hline.2.2.1).1 hends, ?_⟩
  rw [Span.slice, List.drop_take]
  dsimp only
  rw [Nat.zero_add, List.drop_left, show before.length + content.length + 2 - before.length =
    content.length + 1 + 1 by omega, List.take_succ_cons, List.take_length_add_append]
  rfl

theorem notMem_of_line? {d : Document} {number : UInt32} (h : d.line? number = some cs) :
    '\n' ∉ cs :=
  Text.notMem_of_mem_linesOf (List.mem_of_getElem? h)

/-- Whether a position is in a closed string literal, the quotes included. -/
def IsInString (d : Document) (at' : Position) : Prop :=
  ∃ cs s, d.line? at'.line = some cs ∧ s ∈ literals cs ∧
    s.covers at'.character.toNat = true

variable {d : Document} {at' : Position} {word : String}

theorem type?_of_mem_literals {number : UInt32} (hline : d.line? number = some cs)
    (hs : s ∈ literals cs) :
    Literal.type? (String.ofList (s.slice cs)) = some "chr*" := by
  obtain ⟨content, hbody, hslice⟩ := exists_slice_of_mem_literals (notMem_of_line? hline) hs
  refine Literal.type?_eq_string_iff.2 ⟨content, hbody, ?_⟩
  rw [String.toList_ofList, hslice]

theorem head?_word?_iff (h : d.word? at' = some word) :
    word.toList.head? = some '"' ↔ d.IsInString at' := by
  obtain ⟨cs, s, hline, hs, rfl⟩ := word?_eq_some_iff.1 h
  obtain ⟨hlt, hstop⟩ := (isWord_of_wordSpan? hs).bounds
  obtain ⟨-, hget⟩ := getElem?_slice (s := s) hstop
  have hhead : (String.ofList (s.slice cs)).toList.head? = cs[s.start]? := by
    rw [String.toList_ofList, List.head?_eq_getElem?, hget 0 (by omega), Nat.add_zero]
  rw [hhead]
  obtain ⟨hmem, hcovers⟩ | ⟨hfree, hne⟩ := wordSpan?_cases hs
  · obtain ⟨-, -, hfirst, -⟩ := quotes_of_mem_literals hmem
    exact iff_of_true hfirst ⟨cs, s, hline, hmem, hcovers⟩
  · refine iff_of_false hne ?_
    rintro ⟨cs', t, hline', ht, hcovers⟩
    cases hline.symm.trans hline'
    rw [hfree t ht] at hcovers
    cases hcovers

/-- The pattern takes a word for a string when the position is in one. -/
theorem type?_word?_iff (h : d.word? at' = some word) :
    Literal.type? word = some "chr*" ↔ d.IsInString at' := by
  constructor
  · intro htype
    obtain ⟨content, -, heq⟩ := Literal.type?_eq_string_iff.1 htype
    exact (head?_word?_iff h).1 (by rw [heq, List.head?_cons])
  · rintro ⟨cs, s, hline, hs, hcovers⟩
    have hword := word?_eq_some_iff.2 ⟨cs, s, hline, wordSpan?_of_covers hs hcovers, rfl⟩
    cases h.symm.trans hword
    exact type?_of_mem_literals hline hs

end Document

namespace Feature

open Document

/-- Over a literal its type is shown, and evi is not asked. -/
theorem hover_of_covers {d : Document} {at' : Position} {cs : List Char} {s : Span}
    (hline : d.line? at'.line = some cs) (hs : s ∈ literals cs)
    (hc : s.covers at'.character.toNat = true) :
    hover d at' =
      .done (some ⟨.code (String.ofList (s.slice cs) ++ " -> chr*"), s.onLine at'.line⟩) := by
  have hspan := wordSpan?_of_covers hs hc
  have hrange := wordRange?_eq_some_iff.2 ⟨cs, s, hline, hspan, rfl⟩
  have hword := word?_eq_some_iff.2 ⟨cs, s, hline, hspan, rfl⟩
  rw [hover, hrange, hword]
  dsimp only
  rw [type?_of_mem_literals hline hs]
  dsimp only
  rw [String.append_assoc]
  rfl

/-- A literal with an escaped quote, and one that is never closed. -/
example :
    literals "\"a\\\"b\" \"c".toList = [⟨0, 6⟩] ∧
      Literal.type? "\"a\\\"b\"" = some "chr*" ∧ Literal.type? "\"c" = none := by
  decide

end Feature

end EviAssist
