import EviAssist.Document
import Mathlib.Logic.Basic

/-!
# Literals of a line

A line is read forwards. Outside of literals it goes one character at a time, and each literal is
passed as a whole: a backslash in it takes the next character with it, so a quote may be inside.

* `Span.encloses`, `Document.enclosed`: the characters inside literals.
* `Document.ClosesLiterals`, `Document.HasQuoteInside`: what a column may ask of the literals
  before it.
* `Document.reading_induction`: a line character by character and literal by literal.
* `Document.exists_of_mem_literalsFrom`, `Document.pairwise_literalsFrom`: what a literal is, and
  that literals come one after another.
* `Document.Closed`, `Document.closed_take`: the characters before a column that closes its
  literals.
-/

namespace EviAssist

/-- Whether a column is between the quotes of a literal. -/
def Span.encloses (s : Span) (column : Nat) : Bool :=
  s.start < column && column + 1 < s.stop

namespace Document

/-- For each character of a line whether it is inside a literal. -/
def enclosed (line : List Char) : List Bool :=
  (List.range line.length).map fun column => (literals line).any (·.encloses column)

/-- Whether every literal that begins before a column of a line ends before it: a quote there
belongs to such a literal. -/
def ClosesLiterals (cs : List Char) (column : Nat) : Prop :=
  ∀ i < column, cs[i]? = some '"' → ∃ s ∈ literals cs, s.covers i = true ∧ s.stop ≤ column

/-- Whether a literal has a quote in it before a column of a line. -/
def HasQuoteInside (cs : List Char) (column : Nat) : Prop :=
  ∃ i < column, cs[i]? = some '"' ∧ ∃ s ∈ literals cs, s.encloses i = true

variable {c : Char} {cs content after line : List Char} {column : Nat}

/-! ## Reading -/

theorem literalsFrom_of_ne (h : c ≠ '"') (rest : List Char) (column : Nat) :
    literalsFrom column none (c :: rest) = literalsFrom (column + 1) none rest :=
  literalsFrom.eq_5 column none c rest nofun nofun fun _ hc => h hc

theorem literalsFrom_some_cons (h : c ≠ '"') (rest : List Char) :
    ∃ skipped left, c :: rest = skipped ++ left ∧ left.length < (c :: rest).length ∧
      ∀ column start, literalsFrom column (some start) (c :: rest) =
        literalsFrom (column + skipped.length) (some start) left := by
  have hone : (∀ d more, c = '\\' → rest = d :: more → False) → ∀ column start,
      literalsFrom column (some start) (c :: rest) =
        literalsFrom (column + 1) (some start) rest := fun hn column start =>
    literalsFrom.eq_5 column (some start) c rest (fun _ d more _ => hn d more)
      (fun _ _ hc => h hc) nofun
  cases rest with
  | nil => exact ⟨[c], [], rfl, by simp, hone nofun⟩
  | cons d more =>
    by_cases hb : c = '\\'
    · rw [hb]
      exact ⟨['\\', d], more, rfl, Nat.lt_succ_of_lt (Nat.lt_succ_self _), fun _ _ => rfl⟩
    · exact ⟨[c], d :: more, rfl, by simp, hone fun _ _ hc => absurd hc hb⟩

/-- Whether a reader inside a literal meets its end after `content`. -/
def EndsAfter (content after : List Char) : Prop :=
  ∀ column start, literalsFrom column (some start) (content ++ '"' :: after) =
    ⟨start, column + content.length + 1⟩ ::
      literalsFrom (column + content.length + 1) none after

theorem endsAfter_or_eq_nil (cs : List Char) :
    (∃ content after, cs = content ++ '"' :: after ∧ EndsAfter content after) ∨
      ∀ column start, literalsFrom column (some start) cs = [] := by
  induction hlength : cs.length using Nat.strongRecOn generalizing cs with
  | _ length ih =>
    cases cs with
    | nil => exact .inr fun _ _ => rfl
    | cons c rest =>
      by_cases hquote : c = '"'
      · rw [hquote]
        exact .inl ⟨[], rest, rfl, fun _ _ => rfl⟩
      · obtain ⟨skipped, left, heq, hlt, hstep⟩ := literalsFrom_some_cons hquote rest
        rw [heq] at hstep ⊢
        obtain ⟨content, after, rfl, hends⟩ | hopen := ih _ (hlength ▸ hlt) left rfl
        · refine .inl ⟨skipped ++ content, after, by rw [List.append_assoc], ?_⟩
          intro column start
          rw [List.append_assoc, hstep, hends, List.length_append, ← Nat.add_assoc]
        · exact .inr fun column start => by rw [hstep, hopen]

/-- Reading forwards outside of literals: one character at a time, and each literal as a whole. -/
theorem reading_induction {P : List Char → Prop} (nil : P [])
    (plain : ∀ c rest, c ≠ '"' → P rest → P (c :: rest))
    (literal : ∀ content after, EndsAfter content after → P after →
      P ('"' :: (content ++ '"' :: after)))
    (unclosed : ∀ rest, (∀ column start, literalsFrom column (some start) rest = []) →
      P ('"' :: rest)) (cs : List Char) : P cs := by
  induction hlength : cs.length using Nat.strongRecOn generalizing cs with
  | _ length ih =>
    cases cs with
    | nil => exact nil
    | cons c rest =>
      by_cases hquote : c = '"'
      · rw [hquote]
        obtain ⟨content, after, rfl, hends⟩ | hopen := endsAfter_or_eq_nil rest
        · have hlt : after.length < length := by
            simp only [← hlength, List.length_cons, List.length_append]
            omega
          exact literal content after hends (ih after.length hlt after rfl)
        · exact unclosed rest hopen
      · exact plain c rest hquote (ih rest.length (by simp [← hlength]) rest rfl)

theorem literalsFrom_literal (h : EndsAfter content after) (column : Nat) :
    literalsFrom column none ('"' :: (content ++ '"' :: after)) =
      ⟨column, column + content.length + 2⟩ ::
        literalsFrom (column + content.length + 2) none after := by
  rw [literalsFrom, h, show column + 1 + content.length + 1 = column + content.length + 2 by omega]

theorem le_start_of_mem_literalsFrom {s : Span} (h : s ∈ literalsFrom column none cs) :
    column ≤ s.start := by
  induction cs using reading_induction generalizing column with
  | nil => cases h
  | plain c rest hc ih =>
    rw [literalsFrom_of_ne hc] at h
    exact Nat.le_of_succ_le (ih h)
  | literal content after hends ih =>
    rw [literalsFrom_literal hends, List.mem_cons] at h
    obtain rfl | h := h
    · exact Nat.le_refl _
    · have hlater := ih h
      omega
  | unclosed rest hopen =>
    rw [literalsFrom, hopen] at h
    cases h

/-- Literals come one after another. -/
theorem pairwise_literalsFrom (column : Nat) (cs : List Char) :
    (literalsFrom column none cs).Pairwise fun s later => s.stop ≤ later.start := by
  induction cs using reading_induction generalizing column with
  | nil => exact .nil
  | plain c rest hc ih =>
    rw [literalsFrom_of_ne hc]
    exact ih _
  | literal content after hends ih =>
    rw [literalsFrom_literal hends]
    exact .cons (fun _ => le_start_of_mem_literalsFrom) (ih _)
  | unclosed rest hopen =>
    rw [literalsFrom, hopen]
    exact .nil

/-- **What a literal is**: a quote, what a reader inside passes over, and the quote that ends
it. -/
theorem exists_of_mem_literalsFrom {s : Span} (h : s ∈ literalsFrom column none cs) :
    ∃ before content after, cs = before ++ '"' :: (content ++ '"' :: after) ∧
      EndsAfter content after ∧
      s = ⟨column + before.length, column + before.length + content.length + 2⟩ := by
  induction cs using reading_induction generalizing column with
  | nil => cases h
  | plain c rest hc ih =>
    rw [literalsFrom_of_ne hc] at h
    obtain ⟨before, content, after, rfl, hends, rfl⟩ := ih h
    refine ⟨c :: before, content, after, rfl, hends, ?_⟩
    simp only [List.length_cons, Nat.add_assoc, Nat.add_comm 1]
  | literal content after hends ih =>
    rw [literalsFrom_literal hends, List.mem_cons] at h
    obtain rfl | h := h
    · exact ⟨[], content, after, rfl, hends, rfl⟩
    · obtain ⟨before, inner, rest, rfl, hinner, rfl⟩ := ih h
      refine ⟨'"' :: (content ++ '"' :: before), inner, rest, by simp, hinner, ?_⟩
      simp only [List.length_cons, List.length_append, Span.mk.injEq]
      omega
  | unclosed rest hopen =>
    rw [literalsFrom, hopen] at h
    cases h

/-- `Document.enclosed` for the rest of a line, which begins outside of literals. -/
def enclosedFrom (column : Nat) (cs : List Char) : List Bool :=
  (List.range' column cs.length).map fun i => (literalsFrom column none cs).any (·.encloses i)

theorem enclosed_eq (line : List Char) : enclosed line = enclosedFrom 0 line := by
  rw [enclosed, enclosedFrom, List.range_eq_range']
  rfl

theorem any_encloses_of_le {i : Nat} (h : i ≤ column) :
    ((literalsFrom column none cs).any (·.encloses i)) = false := by
  rw [List.any_eq_false]
  intro s hs
  have hstart := le_start_of_mem_literalsFrom hs
  simp only [Span.encloses, Bool.and_eq_true, decide_eq_true_eq]
  omega

theorem enclosedFrom_of_ne (h : c ≠ '"') (rest : List Char) (column : Nat) :
    enclosedFrom column (c :: rest) = false :: enclosedFrom (column + 1) rest := by
  rw [enclosedFrom, List.length_cons, List.range'_succ, List.map_cons, literalsFrom_of_ne h,
    any_encloses_of_le (Nat.le_succ column), enclosedFrom]

theorem enclosedFrom_literal (h : EndsAfter content after) (column : Nat) :
    enclosedFrom column ('"' :: (content ++ '"' :: after)) =
      false :: (List.replicate content.length true ++
        false :: enclosedFrom (column + content.length + 2) after) := by
  have hlength : ('"' :: (content ++ '"' :: after)).length =
      content.length + (after.length + 1) + 1 := by
    simp only [List.length_cons, List.length_append]
  have hinside : ∀ i, (literalsFrom column none ('"' :: (content ++ '"' :: after))).any
      (·.encloses i) = (decide (column < i ∧ i < column + content.length + 1) ||
        (literalsFrom (column + content.length + 2) none after).any (·.encloses i)) := by
    intro i
    rw [literalsFrom_literal h, List.any_cons, Span.encloses]
    simp
  rw [enclosedFrom, hlength, List.range'_succ, ← List.range'_append_1, List.range'_succ]
  simp only [List.map_cons, List.map_append, hinside]
  refine congrArg₂ List.cons ?_ (congrArg₂ List.append ?_ (congrArg₂ List.cons ?_ ?_))
  · rw [any_encloses_of_le (by omega), decide_eq_false (by omega), Bool.or_self]
  · refine List.eq_replicate_iff.2 ⟨by simp, fun mark hm => ?_⟩
    obtain ⟨i, hi, rfl⟩ := List.mem_map.1 hm
    rw [List.mem_range'_1] at hi
    rw [decide_eq_true (by omega), Bool.true_or]
  · rw [any_encloses_of_le (by omega), decide_eq_false (by omega), Bool.or_self]
  · rw [enclosedFrom, show column + 1 + content.length + 1 = column + content.length + 2 by omega]
    refine List.map_congr_left fun i hi => ?_
    rw [List.mem_range'_1] at hi
    rw [decide_eq_false (by omega), Bool.false_or]

/-! ## Closed literals -/

/-- Characters in which every literal is closed, with marks at those inside literals. -/
inductive Closed : List Char → List Bool → Prop
  /-- Nothing. -/
  | nil : Closed [] []
  /-- A character outside of literals, and more. -/
  | plain {c : Char} {cs : List Char} {marks : List Bool} :
    c ≠ '"' → Closed cs marks → Closed (c :: cs) (false :: marks)
  /-- A literal, and more. -/
  | literal (content : List Char) {cs : List Char} {marks : List Bool} :
    Closed cs marks → Closed ('"' :: (content ++ '"' :: cs))
      (false :: (List.replicate content.length true ++ false :: marks))

theorem take_add_append {α : Type} {l : List α} {length : Nat} (h : l.length = length)
    (r : List α) (i : Nat) : (l ++ r).take (length + i) = l ++ r.take i := by
  rw [← h, List.take_length_add_append]

theorem closed_takeFrom {start : Nat}
    (h : ∀ i < column, cs[i]? = some '"' → ∃ s ∈ literalsFrom start none cs,
      s.covers (start + i) = true ∧ s.stop ≤ start + column) :
    Closed (cs.take column) ((enclosedFrom start cs).take column) := by
  simp only [Span.covers, Bool.and_eq_true, decide_eq_true_eq] at h
  induction cs using reading_induction generalizing start column with
  | nil => cases column <;> exact .nil
  | plain c rest hc ih =>
    cases column with
    | zero => exact .nil
    | succ column =>
      rw [enclosedFrom_of_ne hc, List.take_succ_cons, List.take_succ_cons]
      refine .plain hc (ih fun i hi hq => ?_)
      obtain ⟨s, hs, hcovers, hstop⟩ := h (i + 1) (by omega) hq
      rw [literalsFrom_of_ne hc] at hs
      exact ⟨s, hs, by omega, by omega⟩
  | literal content after hends ih =>
    cases column with
    | zero => exact .nil
    | succ column =>
      rw [literalsFrom_literal hends] at h
      simp only [List.mem_cons, exists_eq_or_imp] at h
      -- The literal ends before the column, since none that begins later covers its first quote.
      have hfits : content.length + 1 ≤ column := by
        obtain hfirst | ⟨s, hs, hcovers, -⟩ := h 0 (by omega) rfl
        · omega
        · have hstart := le_start_of_mem_literalsFrom hs
          omega
      obtain ⟨left, rfl⟩ := Nat.exists_eq_add_of_le hfits
      rw [enclosedFrom_literal hends, Nat.add_assoc content.length 1 left, Nat.add_comm 1 left,
        List.take_succ_cons, List.take_succ_cons, take_add_append rfl,
        take_add_append List.length_replicate, List.take_succ_cons, List.take_succ_cons]
      refine .literal content (ih fun i hi hq => ?_)
      obtain hfirst | ⟨s, hs, hcovers, hstop⟩ := h (content.length + (i + 1) + 1) (by omega) (by
        rw [List.getElem?_cons_succ, List.getElem?_append_right (by omega),
          Nat.add_sub_cancel_left, List.getElem?_cons_succ, hq])
      · omega
      · exact ⟨s, hs, by omega, by omega⟩
  | unclosed rest hopen =>
    cases column with
    | zero => exact .nil
    | succ column =>
      obtain ⟨s, hs, -⟩ := h 0 (by omega) rfl
      rw [literalsFrom, hopen] at hs
      cases hs

theorem closed_take (h : ClosesLiterals line column) :
    Closed (line.take column) ((enclosed line).take column) := by
  rw [enclosed_eq]
  refine closed_takeFrom fun i hi hq => ?_
  rw [Nat.zero_add, Nat.zero_add]
  exact h i hi hq

theorem getElem?_enclosed {i : Nat} (h : i < line.length) :
    (enclosed line)[i]? = some ((literals line).any (·.encloses i)) := by
  rw [enclosed, List.getElem?_map, List.getElem?_range h, Option.map_some]

theorem length_enclosed (line : List Char) : (enclosed line).length = line.length := by
  rw [enclosed, List.length_map, List.length_range]

theorem hasQuoteInside_iff :
    HasQuoteInside line column ↔
      ('"', true) ∈ (line.take column).zip ((enclosed line).take column) := by
  rw [List.mem_iff_getElem?]
  refine exists_congr fun i => ?_
  rw [List.getElem?_zip_eq_some, List.getElem?_take, List.getElem?_take]
  by_cases hi : i < column
  · rw [if_pos hi, if_pos hi]
    refine (and_iff_right hi).trans (and_congr_right fun hq => ?_)
    rw [getElem?_enclosed (List.getElem?_eq_some_iff.1 hq).1, Option.some.injEq, List.any_eq_true]
  · simp [hi]

end Document

end EviAssist
