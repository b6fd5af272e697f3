import EviAssist.Proofs.Document
import EviAssist.Proofs.Document.Literals
import Mathlib.Data.List.TakeWhile

/-!
# The words of a line

A word is a closed literal, or a run of word characters that goes on as far as it can and has no
character in a literal; a minus sign before a digit that begins the run belongs to it. Two words of
a line are the same or have no character in common, so the words that are found at the columns of a
line cut it into pieces. Their columns are numbers of 32 bits, so in a line that is wider than these
can tell the end of a range is not that of its word.

* `Document.IsRun`, `Document.IsWord`: the words of a line, without a column to find them at.
* `Document.isWord_of_wordSpan?`: what is found at a column is a word.
* `Document.IsWord.eq_or_disjoint`: two words of a line.
* `Document.words_partition_line`: the ranges of words, and what stands in them.
* `Document.wordRange?_of_wide_line`: a word that the range found for it does not reach.
-/

namespace EviAssist

/-- The columns of a range on one line. -/
def Range.columns (r : Range) : Span :=
  ⟨r.start.character.toNat, r.stop.character.toNat⟩

namespace Document

/-- Whether a line has a word character at a column. -/
def isWordAt (cs : List Char) (i : Nat) : Bool :=
  cs[i]?.any isWordChar

/-- Word characters from `start` up to and without `stop`, and none before or after them. -/
structure IsRun (cs : List Char) (start stop : Nat) : Prop where
  lt : start < stop
  isWordAt : ∀ i, start ≤ i → i < stop → isWordAt cs i = true
  before : ∀ i, i + 1 = start → Document.isWordAt cs i = false
  after : Document.isWordAt cs stop = false

/-- Where the word begins whose word characters begin at `start`: a minus sign before a digit is
part of the word. -/
def signedStart (cs : List Char) (start : Nat) : Nat :=
  if 0 < start && cs[start - 1]? == some '-' && cs[start]?.any Char.isDigit then start - 1
  else start

/-- Whether some characters of a line are a word. -/
inductive IsWord (cs : List Char) : Span → Prop
  /-- A closed literal. -/
  | literal {s : Span} : s ∈ literals cs → IsWord cs s
  /-- A run outside of literals. -/
  | run {start stop : Nat} : IsRun cs start stop →
    (∀ i, start ≤ i → i < stop → ∀ s ∈ literals cs, s.covers i = false) →
    IsWord cs ⟨signedStart cs start, stop⟩

variable {cs : List Char} {column start stop : Nat} {s t span : Span}

/-! ## Runs -/

theorem any_getElem?_of_lt_takeWhile {α : Type} {p : α → Bool} {l : List α} {i : Nat}
    (h : i < (l.takeWhile p).length) : l[i]?.any p = true := by
  have hi : l[i]? = some (l.takeWhile p)[i] :=
    List.prefix_iff_getElem?.1 (List.takeWhile_prefix p) i h
  rw [hi, Option.any_some]
  exact List.mem_takeWhile_imp (List.getElem_mem h)

theorem any_getElem?_length_takeWhile {α : Type} (p : α → Bool) (l : List α) :
    l[(l.takeWhile p).length]?.any p = false := by
  induction l with
  | nil => rfl
  | cons a l ih =>
    by_cases h : p a = true
    · rw [List.takeWhile_cons_of_pos h, List.length_cons, List.getElem?_cons_succ, ih]
    · rw [List.takeWhile_cons_of_neg h]
      simpa using h

theorem lt_length_of_isWordAt {i : Nat} (h : isWordAt cs i = true) : i < cs.length := by
  obtain ⟨c, hc, -⟩ := (Option.any_eq_true _ _).1 h
  exact (List.getElem?_eq_some_iff.1 hc).1

theorem isWordAt_quote {i : Nat} (h : cs[i]? = some '"') : isWordAt cs i = false := by
  rw [isWordAt, h]
  decide

theorem isRun_around (hc : column ≤ cs.length)
    (hne : ((cs.take column).reverse.takeWhile isWordChar).length +
      ((cs.drop column).takeWhile isWordChar).length ≠ 0) :
    IsRun cs (column - ((cs.take column).reverse.takeWhile isWordChar).length)
      (column + ((cs.drop column).takeWhile isWordChar).length) := by
  have hleft : ((cs.take column).reverse.takeWhile isWordChar).length ≤ column := by
    refine Nat.le_trans (List.takeWhile_prefix _).length_le ?_
    rw [List.length_reverse, List.length_take]
    exact Nat.min_le_left _ _
  -- Left of the column the line is read backwards.
  have hback : ∀ i, i < column → (cs.take column).reverse[column - 1 - i]? = cs[i]? := by
    intro i hi
    have hlength : (cs.take column).length = column := List.length_take_of_le hc
    rw [List.getElem?_reverse (by omega), hlength, List.getElem?_take_of_lt (by omega),
      show column - 1 - (column - 1 - i) = i by omega]
  have hforth : ∀ i, (cs.drop column)[i]? = cs[column + i]? := fun i => List.getElem?_drop
  refine ⟨by omega, fun i hstart hstop => ?_, fun i hi => ?_, ?_⟩
  · by_cases hi : i < column
    · rw [isWordAt, ← hback i hi]
      exact any_getElem?_of_lt_takeWhile (by omega)
    · rw [isWordAt, show i = column + (i - column) by omega, ← hforth]
      exact any_getElem?_of_lt_takeWhile (by omega)
  · rw [isWordAt, ← hback i (by omega),
      show column - 1 - i = ((cs.take column).reverse.takeWhile isWordChar).length by omega]
    exact any_getElem?_length_takeWhile _ _
  · rw [isWordAt, ← hforth]
    exact any_getElem?_length_takeWhile _ _

theorem exists_isRun_of_plainWord? (hc : column ≤ cs.length)
    (h : plainWord? cs column = some span) :
    ∃ start, IsRun cs start span.stop ∧ start ≤ column ∧ column ≤ span.stop ∧
      span.start = signedStart cs start := by
  unfold plainWord? at h
  simp only [Option.ite_none_left_eq_some, Option.some.injEq] at h
  obtain ⟨hne, rfl⟩ := h
  exact ⟨_, isRun_around hc hne, Nat.sub_le _ _, Nat.le_add_right _ _, rfl⟩

theorem signedStart_cases (cs : List Char) (start : Nat) :
    signedStart cs start = start ∨
      signedStart cs start + 1 = start ∧ cs[signedStart cs start]? = some '-' := by
  unfold signedStart
  split
  · rename_i h
    simp only [Bool.and_eq_true, decide_eq_true_eq, beq_iff_eq] at h
    exact .inr ⟨by omega, h.1.2⟩
  · exact .inl rfl

theorem signedStart_le (cs : List Char) (start : Nat) : signedStart cs start ≤ start := by
  obtain h | ⟨h, -⟩ := signedStart_cases cs start
  · exact Nat.le_of_eq h
  · omega

theorem IsRun.start_le {start' stop' : Nat} (h : IsRun cs start stop)
    (h' : IsRun cs start' stop') (hlt : start' < stop) : start' ≤ start := by
  refine Nat.le_of_not_lt fun hs => ?_
  have hword := h.isWordAt (start' - 1) (by omega) (by omega)
  rw [h'.before (start' - 1) (by omega)] at hword
  cases hword

theorem IsRun.stop_le {start' stop' : Nat} (h : IsRun cs start stop)
    (h' : IsRun cs start' stop') (hle : start' ≤ stop) : stop' ≤ stop := by
  refine Nat.le_of_not_lt fun hs => ?_
  have hword := h'.isWordAt stop hle hs
  rw [h.after] at hword
  cases hword

theorem IsRun.eq_of_lt {start' stop' : Nat} (h : IsRun cs start stop)
    (h' : IsRun cs start' stop') (hlt : start < stop') (hlt' : start' < stop) :
    start = start' ∧ stop = stop' :=
  ⟨Nat.le_antisymm (h'.start_le h hlt) (h.start_le h' hlt'),
    Nat.le_antisymm (h'.stop_le h (Nat.le_of_lt hlt)) (h.stop_le h' (Nat.le_of_lt hlt'))⟩

theorem IsRun.stop_le_signedStart {start' stop' : Nat} (h : IsRun cs start stop)
    (h' : IsRun cs start' stop') (hle : stop ≤ start') : stop ≤ signedStart cs start' := by
  obtain heq | ⟨hlt, -⟩ := signedStart_cases cs start'
  · rwa [heq]
  · -- What follows the run is no word character, so the next run begins later.
    have hne : stop ≠ start' := by
      rintro rfl
      have hword := h'.isWordAt stop (Nat.le_refl _) h'.lt
      rw [h.after] at hword
      cases hword
    omega

/-! ## Literals -/

theorem quotes_of_mem_literals (h : s ∈ literals cs) :
    s.start + 2 ≤ s.stop ∧ s.stop ≤ cs.length ∧ cs[s.start]? = some '"' ∧
      cs[s.stop - 1]? = some '"' := by
  obtain ⟨before, content, after, rfl, -, rfl⟩ := exists_of_mem_literalsFrom h
  refine ⟨by dsimp only; omega, by simp; omega, ?_, ?_⟩
  · simp
  · rw [List.getElem?_append_right (by dsimp only; omega)]
    rw [show 0 + before.length + content.length + 2 - 1 - before.length = content.length + 1 by
      omega]
    simp

/-- A literal has nothing of a run, or all of it, and all columns that touch it, inside its
quotes. -/
theorem literal_beside_run (hs : s ∈ literals cs) (h : IsRun cs start stop) :
    s.stop ≤ start ∨ stop ≤ s.start ∨ s.start < start ∧ stop < s.stop := by
  obtain ⟨hlength, -, hfirst, hlast⟩ := quotes_of_mem_literals hs
  have hne : ∀ i, cs[i]? = some '"' → i < start ∨ stop ≤ i := by
    intro i hi
    have hword := isWordAt_quote hi
    by_cases hlt : i < start
    · exact .inl hlt
    · refine .inr (Nat.le_of_not_lt fun hstop => ?_)
      rw [h.isWordAt i (Nat.le_of_not_lt hlt) hstop] at hword
      cases hword
  have hf := hne _ hfirst
  have hl := hne _ hlast
  omega

/-! ## Words -/

/-- **What is found at a column is a word.** -/
theorem isWord_of_wordSpan? (h : wordSpan? cs column = some s) : IsWord cs s := by
  unfold wordSpan? at h
  split at h
  · cases h
  rename_i hc
  split at h
  · cases h
    exact .literal (List.mem_of_find?_eq_some ‹_›)
  · rename_i hfind
    obtain ⟨start, hrun, hstart, hstop, hs⟩ :=
      exists_isRun_of_plainWord? (Nat.le_of_not_lt hc) h
    have hword : IsWord cs ⟨signedStart cs start, s.stop⟩ := by
      refine .run hrun fun i hi hi' t ht => ?_
      -- A literal that has a character of the run has the column too.
      have hfree := List.find?_eq_none.1 hfind t ht
      have hbeside := literal_beside_run ht hrun
      simp only [Span.covers, Bool.and_eq_true, decide_eq_true_eq] at hfree
      simp only [Span.covers, Bool.and_eq_false_iff, decide_eq_false_iff_not]
      omega
    rwa [← hs] at hword

theorem IsWord.bounds (h : IsWord cs s) : s.start < s.stop ∧ s.stop ≤ cs.length := by
  cases h with
  | literal hs =>
    obtain ⟨hlength, hline, -⟩ := quotes_of_mem_literals hs
    exact ⟨by omega, hline⟩
  | @run start stop hrun =>
    have hlt := hrun.lt
    refine ⟨Nat.lt_of_le_of_lt (signedStart_le cs start) hlt, ?_⟩
    exact Nat.le_of_pred_lt (lt_length_of_isWordAt (hrun.isWordAt _ (Nat.le_sub_one_of_lt hlt)
      (Nat.sub_one_lt_of_lt hlt)))

/-- A literal and a run outside of it have no character in common, nor the minus sign before the
run. -/
theorem literal_apart_run (hs : s ∈ literals cs) (h : IsRun cs start stop)
    (hfree : ∀ i, start ≤ i → i < stop → s.covers i = false) :
    s.stop ≤ signedStart cs start ∨ stop ≤ s.start := by
  obtain ⟨hlength, -, -, hlast⟩ := quotes_of_mem_literals hs
  have hlt := h.lt
  have hnot := hfree start (Nat.le_refl _) hlt
  simp only [Span.covers, Bool.and_eq_false_iff, decide_eq_false_iff_not] at hnot
  have hbeside := literal_beside_run hs h
  obtain heq | ⟨heq, hminus⟩ := signedStart_cases cs start
  · omega
  · have hne : s.stop - 1 ≠ signedStart cs start := by
      intro hi
      rw [← hi, hlast] at hminus
      cases hminus
    omega

/-- **Two words of a line** are the same, or one ends before the other one begins. -/
theorem IsWord.eq_or_disjoint (hs : IsWord cs s) (ht : IsWord cs t) :
    s = t ∨ s.stop ≤ t.start ∨ t.stop ≤ s.start := by
  cases hs with
  | literal hs =>
    cases ht with
    | literal ht =>
      obtain ⟨i, hi, rfl⟩ := List.getElem_of_mem hs
      obtain ⟨j, hj, rfl⟩ := List.getElem_of_mem ht
      have hpairs := List.pairwise_iff_getElem.1 (pairwise_literalsFrom 0 cs)
      obtain hlt | rfl | hlt := Nat.lt_trichotomy i j
      · exact .inr (.inl (hpairs i j hi hj hlt))
      · exact .inl rfl
      · exact .inr (.inr (hpairs j i hj hi hlt))
    | run hrun hfree =>
      exact .inr (literal_apart_run hs hrun fun i hi hi' => hfree i hi hi' s hs)
  | run hrun hfree =>
    cases ht with
    | literal ht =>
      exact .inr (literal_apart_run ht hrun fun i hi hi' => hfree i hi hi' t ht).symm
    | @run start' stop' hrun' hfree' =>
      rename_i start stop
      by_cases hle : stop ≤ start'
      · exact .inr (.inl (hrun.stop_le_signedStart hrun' hle))
      by_cases hle' : stop' ≤ start
      · exact .inr (.inr (hrun'.stop_le_signedStart hrun hle'))
      obtain ⟨rfl, rfl⟩ := hrun.eq_of_lt hrun' (Nat.lt_of_not_le hle') (Nat.lt_of_not_le hle)
      exact .inl rfl

/-! ## Ranges -/

theorem getElem?_slice (h : s.stop ≤ cs.length) :
    (s.slice cs).length = s.stop - s.start ∧
      ∀ i < s.stop - s.start, (s.slice cs)[i]? = cs[s.start + i]? := by
  refine ⟨?_, fun i hi => ?_⟩
  · rw [Span.slice, List.length_drop, List.length_take_of_le h]
  · rw [Span.slice, List.getElem?_drop, List.getElem?_take_of_lt (by omega)]

theorem wordRange?_eq_some_iff {d : Document} {at' : Position} {r : Range} :
    d.wordRange? at' = some r ↔ ∃ cs s, d.line? at'.line = some cs ∧
      wordSpan? cs at'.character.toNat = some s ∧ s.onLine at'.line = r := by
  simp [wordRange?, Option.bind_eq_some_iff]

theorem word?_eq_some_iff {d : Document} {at' : Position} {word : String} :
    d.word? at' = some word ↔ ∃ cs s, d.line? at'.line = some cs ∧
      wordSpan? cs at'.character.toNat = some s ∧ String.ofList (s.slice cs) = word := by
  simp [word?, Option.bind_eq_some_iff]

theorem toNat_ofNat_le (n : Nat) : (UInt32.ofNat n).toNat ≤ n := by
  rw [UInt32.toNat_ofNat']
  exact Nat.mod_le _ _

/-- The columns of a word as a range. The range begins where the word begins, since the position
that it is found at has a column there or later. -/
theorem columns_onLine {column : UInt32} (hs : s.start ≤ column.toNat) (number : UInt32) :
    (s.onLine number).columns.start = s.start ∧ (s.onLine number).columns.stop ≤ s.stop ∧
      (s.stop < UInt32.size → (s.onLine number).columns = s) := by
  have hstart : (UInt32.ofNat s.start).toNat = s.start :=
    UInt32.toNat_ofNat_of_lt' (Nat.lt_of_le_of_lt hs column.toNat_lt)
  refine ⟨hstart, toNat_ofNat_le _, fun h => ?_⟩
  have hstop : (UInt32.ofNat s.stop).toNat = s.stop := UInt32.toNat_ofNat_of_lt' h
  rw [Range.columns, Span.onLine]
  dsimp only
  rw [hstart, hstop]

/-- **The words of a line are a partition.** A range that is found at a position is on its line,
does not begin after the position and does not end after the line; two ranges found on a line are
the same, or no column is in both of them. In a line of less than `2 ^ 32` characters a range has at
least one character and does not end before the position, and what is found there as a word is the
characters of the range, one by one. -/
theorem words_partition_line (d : Document) (number : UInt32) :
    (∀ column r, d.wordRange? ⟨number, column⟩ = some r →
      ∃ cs, d.line? number = some cs ∧ r.start.line = number ∧ r.stop.line = number ∧
        r.columns.start ≤ column.toNat ∧ r.columns.stop ≤ cs.length ∧
        (cs.length < UInt32.size →
          r.columns.start < r.columns.stop ∧ column.toNat ≤ r.columns.stop ∧
            ∃ word, d.word? ⟨number, column⟩ = some word ∧ word.toList = r.columns.slice cs ∧
              word.toList.length = r.columns.stop - r.columns.start ∧
              ∀ i < r.columns.stop - r.columns.start,
                word.toList[i]? = cs[r.columns.start + i]?)) ∧
      ∀ column column' r r', d.wordRange? ⟨number, column⟩ = some r →
        d.wordRange? ⟨number, column'⟩ = some r' →
          r = r' ∨ ∀ i, ¬(r.columns.covers i = true ∧ r'.columns.covers i = true) := by
  constructor
  · intro column r h
    obtain ⟨cs, s, hline, hs, rfl⟩ := wordRange?_eq_some_iff.1 h
    obtain ⟨hlt, hstop⟩ := (isWord_of_wordSpan? hs).bounds
    obtain ⟨hleft, hright⟩ := bounds_of_wordSpan? hs
    obtain ⟨hstart, hle, hcolumns⟩ := columns_onLine hleft number
    refine ⟨cs, hline, rfl, rfl, hstart ▸ hleft, Nat.le_trans hle hstop, fun hwide => ?_⟩
    obtain ⟨hlength, hget⟩ := getElem?_slice (s := s) hstop
    rw [hcolumns (by omega)]
    refine ⟨hlt, hright, _, word?_eq_some_iff.2 ⟨cs, s, hline, hs, rfl⟩, ?_⟩
    rw [String.toList_ofList]
    exact ⟨rfl, hlength, hget⟩
  · intro column column' r r' h h'
    obtain ⟨cs, s, hline, hs, rfl⟩ := wordRange?_eq_some_iff.1 h
    obtain ⟨cs', t, hline', ht, rfl⟩ := wordRange?_eq_some_iff.1 h'
    cases hline.symm.trans hline'
    obtain rfl | hapart := (isWord_of_wordSpan? hs).eq_or_disjoint (isWord_of_wordSpan? ht)
    · exact .inl rfl
    · obtain ⟨hstart, hstop, -⟩ := columns_onLine (bounds_of_wordSpan? hs).1 number
      obtain ⟨hstart', hstop', -⟩ := columns_onLine (bounds_of_wordSpan? ht).1 number
      refine .inr fun i => ?_
      simp only [Span.covers, Bool.and_eq_true, decide_eq_true_eq]
      omega

/-- A number with its sign, after the word before it. -/
theorem finds_signed_number :
    let d : Document := ⟨⟨"/a"⟩, "a-5\"b c\"d", "evi"⟩
    let r : Range := ⟨⟨0, 1⟩, ⟨0, 3⟩⟩
    d.wordRange? ⟨0, 2⟩ = some r ∧ "a-5\"b c\"d".length < UInt32.size ∧
      ∃ word, d.word? ⟨0, 2⟩ = some word ∧
        word.toList = r.columns.slice "a-5\"b c\"d".toList := by
  intro d r
  have hrange : d.wordRange? ⟨0, 2⟩ = some r := by decide +kernel
  obtain ⟨hranges, -⟩ := words_partition_line d 0
  obtain ⟨cs, hline, -, -, -, -, hword⟩ := hranges 2 r hrange
  have hcs : d.line? 0 = some "a-5\"b c\"d".toList := by decide +kernel
  cases hcs.symm.trans hline
  obtain ⟨-, -, word, hfound, hslice, -⟩ := hword (by decide)
  exact ⟨hrange, by decide, word, hfound, hslice⟩

/-- A word, a number with its sign, a literal with a blank in it, and what follows it at once. -/
example :
    (List.range 9).map (wordSpan? "a-5\"b c\"d".toList) =
      [some ⟨0, 1⟩, some ⟨0, 1⟩, some ⟨1, 3⟩, some ⟨3, 8⟩, some ⟨3, 8⟩, some ⟨3, 8⟩, some ⟨3, 8⟩,
        some ⟨3, 8⟩, some ⟨8, 9⟩] := by
  decide

/-! ## Wide lines -/

theorem linesOf_of_isWordChar (hne : cs ≠ []) (hcs : ∀ c ∈ cs, isWordChar c = true) :
    Text.linesOf cs = [cs] := by
  induction cs with
  | nil => exact absurd rfl hne
  | cons c cs ih =>
    obtain ⟨hc, hrest⟩ := List.forall_mem_cons.1 hcs
    have hends (e : Char) (he : isWordChar e = false) : c ≠ e := by
      rintro rfl
      rw [hc] at he
      cases he
    rw [Text.linesOf_cons (hends '\n' (by decide)) (hends '\r' (by decide))]
    cases cs with
    | nil => rfl
    | cons c' cs => rw [ih nofun hrest]

theorem literalsFrom_of_isWordChar (hcs : ∀ c ∈ cs, isWordChar c = true) (column : Nat) :
    literalsFrom column none cs = [] := by
  induction cs generalizing column with
  | nil => rfl
  | cons c cs ih =>
    obtain ⟨hc, hrest⟩ := List.forall_mem_cons.1 hcs
    have hquote : c ≠ '"' := by
      rintro rfl
      revert hc
      decide
    rw [literalsFrom_of_ne hquote, ih hrest]

theorem wordRange?_of_isWordChar {d : Document} (hne : d.text.toList ≠ [])
    (hcs : ∀ c ∈ d.text.toList, isWordChar c = true) :
    d.wordRange? ⟨0, 0⟩ = some (Span.onLine ⟨0, d.text.toList.length⟩ 0) := by
  refine wordRange?_eq_some_iff.2 ⟨d.text.toList, _, ?_, ?_, rfl⟩
  · show (Text.linesOf d.text.toList)[0]? = _
    rw [linesOf_of_isWordChar hne hcs]
    rfl
  · have hlength : d.text.toList.length ≠ 0 := mt List.length_eq_zero_iff.1 hne
    rw [wordSpan?, if_neg (by simp), literals, literalsFrom_of_isWordChar hcs]
    simp [plainWord?, List.takeWhile_eq_self_iff.2 hcs, hlength]

/-- A line may be too wide for the columns of an editor: the word that fills one of `2 ^ 32`
characters is found, but its range ends where it begins. -/
theorem wordRange?_of_wide_line :
    let d : Document := ⟨⟨"/a"⟩, String.ofList (List.replicate UInt32.size 'a'), "evi"⟩
    ∃ r, d.wordRange? ⟨0, 0⟩ = some r ∧ r = ⟨⟨0, 0⟩, ⟨0, 0⟩⟩ ∧
      ¬r.columns.start < r.columns.stop := by
  intro d
  have htext : d.text.toList = List.replicate UInt32.size 'a' := String.toList_ofList
  have hlength : d.text.toList.length = UInt32.size := by rw [htext, List.length_replicate]
  have hword : ∀ c ∈ d.text.toList, isWordChar c = true := by
    intro c hc
    rw [htext] at hc
    rw [List.eq_of_mem_replicate hc]
    decide
  have hne : d.text.toList ≠ [] := by
    rw [← List.length_pos_iff, hlength]
    decide
  have hrange := wordRange?_of_isWordChar hne hword
  rw [hlength] at hrange
  exact ⟨_, hrange, rfl, by decide⟩

end Document

end EviAssist
