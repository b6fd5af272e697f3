import EviAssist.Proofs.Json.Text
import Mathlib.Data.List.TakeWhile

/-!
# Strings and numbers are read from their own texts

What stands behind a string or a number has no part in it. A string ends with its quote; a number is
read as the same whatever comes behind it, as long as it ends there.

* `Json.readString?_eq_some_iff`: the texts that are read as a string.
* `Json.Takes`: the characters that a reader takes.
* `Json.takes_readNumber?`: a number is read from its own characters.
-/

namespace EviAssist.Json

/-! ## Strings -/

theorem eq_writes_of_readString? {cs s rest : List Char} (h : readString? cs = some (s, rest)) :
    ∃ t, WritesChars s t ∧ cs = t ++ '"' :: rest := by
  -- One case for each kind of character; what follows it is read in the same way.
  fun_induction readString? cs generalizing s rest with
  | case1 => cases h
  | case2 after =>
    cases h
    exact ⟨[], .nil, rfl⟩
  | case3 a b c d after ihPair ihUnit =>
    obtain ⟨n, hn, h⟩ := Option.bind_eq_some_iff.1 h
    by_cases hhigh : 0xD800 ≤ n ∧ n < 0xDC00
    · rw [if_pos hhigh] at h
      split at h
      · rename_i e f g k after'
        obtain ⟨low, hlow, h⟩ := Option.bind_eq_some_iff.1 h
        by_cases hrange : 0xDC00 ≤ low ∧ low < 0xE000
        · rw [if_pos hrange] at h
          obtain ⟨⟨s', rest'⟩, hmore, h⟩ := Option.bind_eq_some_iff.1 h
          cases h
          obtain ⟨t, ht, rfl⟩ := ihPair hmore
          exact ⟨_, .pair hn hhigh hlow hrange ht, rfl⟩
        · rw [if_neg hrange] at h
          cases h
      · cases h
    · rw [if_neg hhigh] at h
      by_cases hlow : 0xDC00 ≤ n ∧ n < 0xE000
      · rw [if_pos hlow] at h
        cases h
      · rw [if_neg hlow] at h
        obtain ⟨⟨s', rest'⟩, hmore, h⟩ := Option.bind_eq_some_iff.1 h
        cases h
        obtain ⟨t, ht, rfl⟩ := ihUnit hmore
        exact ⟨_, .unit hn (by omega) ht, rfl⟩
  | case4 c after hunit ih =>
    obtain ⟨escaped, hescaped, h⟩ := Option.bind_eq_some_iff.1 h
    obtain ⟨⟨s', rest'⟩, hmore, h⟩ := Option.bind_eq_some_iff.1 h
    cases h
    obtain ⟨t, ht, rfl⟩ := ih hmore
    exact ⟨_, .short hescaped ht, rfl⟩
  | case5 => cases h
  | case6 c after hquote _ hescape hcontrol ih =>
    obtain ⟨⟨s', rest'⟩, hmore, h⟩ := Option.bind_eq_some_iff.1 h
    cases h
    obtain ⟨t, ht, rfl⟩ := ih hmore
    have hne : c ≠ '\\' := by
      rintro rfl
      cases t with
      | nil => exact hescape _ _ rfl rfl
      | cons d t => exact hescape _ _ rfl rfl
    exact ⟨_, .plain hquote hne (Nat.not_lt.1 hcontrol) ht, rfl⟩

/-- The texts that are read as a string. -/
theorem readString?_eq_some_iff {cs s rest : List Char} :
    readString? cs = some (s, rest) ↔ ∃ t, WritesChars s t ∧ cs = t ++ '"' :: rest := by
  refine ⟨eq_writes_of_readString?, ?_⟩
  rintro ⟨t, ht, rfl⟩
  exact readString?_of_writes ht rest

/-! ## Numbers -/

/-- Whether a reader takes exactly the characters `t`, whatever comes behind them. -/
def Takes {α : Type} (read : List Char → Option (α × List Char)) (t : List Char) (a : α) : Prop :=
  ∀ rest, Stops rest → read (t ++ rest) = some (a, rest)

theorem digits_eq {cs ds rest : List Char} (h : digits cs = (ds, rest)) :
    cs = ds ++ rest ∧ (∀ c ∈ ds, c.isDigit = true) ∧ ∀ c ∈ rest.head?, c.isDigit = false := by
  cases h
  refine ⟨List.takeWhile_append_dropWhile.symm, fun c => List.mem_takeWhile_imp, ?_⟩
  intro c hc
  have hnot := List.head?_dropWhile_not Char.isDigit cs
  rw [Option.mem_def.1 hc] at hnot
  simpa using hnot

theorem ne_sign_of_isDigit {c : Char} (h : c.isDigit = true) : c ≠ '-' ∧ c ≠ '+' := by
  constructor <;> rintro rfl <;> exact absurd h (by decide)

theorem takes_readExponent? {cs rest : List Char} {e : Int}
    (h : readExponent? cs = some (e, rest)) :
    ∃ t, cs = t ++ rest ∧ Takes readExponent? t e := by
  unfold readExponent? at h
  split at h
  rename_i isNegative cs' hsign
  obtain ⟨ds, rest', hds⟩ : ∃ ds rest', digits cs' = (ds, rest') := ⟨_, _, rfl⟩
  rw [hds] at h
  obtain ⟨rfl, hdigits, -⟩ := digits_eq hds
  cases ds with
  | nil => cases h
  | cons d ds =>
    cases h
    obtain ⟨hminus, hplus⟩ := ne_sign_of_isDigit (hdigits d (.head _))
    have hread (after : List Char) (hs : Stops after) :
        digits (d :: (ds ++ after)) = (d :: ds, after) := digits_append hdigits hs
    split at hsign
    · cases hsign
      exact ⟨'-' :: d :: ds, rfl, fun after hs => by simp [readExponent?, hread after hs]⟩
    · cases hsign
      exact ⟨'+' :: d :: ds, rfl, fun after hs => by simp [readExponent?, hread after hs]⟩
    · cases hsign
      refine ⟨d :: ds, rfl, fun after hs => ?_⟩
      simp [readExponent?, hminus, hplus, hread after hs]

theorem forall_head?_append {p : Char → Prop} {t rest after : List Char}
    (h : ∀ c ∈ (t ++ rest).head?, p c) (ha : ∀ c ∈ after.head?, p c) :
    ∀ c ∈ (t ++ after).head?, p c := by
  cases t with
  | nil => exact ha
  | cons d t => exact h

/-- The rest of a number after its digits: an exponent or none. -/
def readEnd? (isNegative : Bool) (significand : Nat) (shift : Int) (isWhole : Bool) :
    List Char → Option (Number × List Char)
  | c :: rest =>
    if c = 'e' ∨ c = 'E' then do
      let (exponent, rest') ← readExponent? rest
      return (.real isNegative (← toReal? significand shift exponent), rest')
    else readFraction?.finish isNegative significand shift (c :: rest) isWhole
  | [] => readFraction?.finish isNegative significand shift [] isWhole

section Fraction

variable {isNegative isWhole : Bool} {significand : Nat} {shift : Int} {whole cs rest : List Char}
  {n : Number}

theorem takes_finish
    (h : readFraction?.finish isNegative significand shift cs isWhole = some (n, rest)) :
    cs = rest ∧ ∀ after,
      readFraction?.finish isNegative significand shift after isWhole = some (n, after) := by
  unfold readFraction?.finish at h ⊢
  by_cases hnatural : isWhole ∧ shift = 0 ∧ isNegative = false
  · simp only [if_pos hnatural, Option.some.injEq, Prod.mk.injEq] at h ⊢
    exact ⟨h.2, fun after => ⟨h.1, trivial⟩⟩
  · by_cases hnegative : isWhole ∧ shift = 0 ∧ 0 < significand ∧ significand ≤ UInt64.size / 2
    · simp only [if_neg hnatural, if_pos hnegative, Option.some.injEq, Prod.mk.injEq] at h ⊢
      exact ⟨h.2, fun after => ⟨h.1, trivial⟩⟩
    · simp only [if_neg hnatural, if_neg hnegative, Option.map_eq_some_iff, Prod.mk.injEq] at h ⊢
      obtain ⟨x, hx, hn, hrest⟩ := h
      exact ⟨hrest, fun after => ⟨x, hx, hn, trivial⟩⟩

theorem readEnd?_of_stops (hs : Stops cs) :
    readEnd? isNegative significand shift isWhole cs =
      readFraction?.finish isNegative significand shift cs isWhole := by
  cases cs with
  | nil => rfl
  | cons c cs =>
    obtain ⟨-, -, he, hE⟩ := hs c rfl
    exact if_neg (by simp [he, hE])

theorem takes_readEnd?
    (h : readEnd? isNegative significand shift isWhole cs = some (n, rest)) :
    ∃ t, cs = t ++ rest ∧ Takes (readEnd? isNegative significand shift isWhole) t n := by
  have hfinish (h : readFraction?.finish isNegative significand shift cs isWhole = some (n, rest)) :
      ∃ t, cs = t ++ rest ∧ Takes (readEnd? isNegative significand shift isWhole) t n := by
    obtain ⟨rfl, hall⟩ := takes_finish h
    exact ⟨[], rfl, fun after hs => (readEnd?_of_stops hs).trans (hall after)⟩
  cases cs with
  | nil => exact hfinish h
  | cons c cs =>
    rw [readEnd?] at h
    split at h
    · rename_i hmark
      obtain ⟨⟨exponent, rest'⟩, hexponent, h⟩ := Option.bind_eq_some_iff.1 h
      obtain ⟨x, hx, h⟩ := Option.bind_eq_some_iff.1 h
      cases h
      obtain ⟨t, rfl, ht⟩ := takes_readExponent? hexponent
      refine ⟨c :: t, rfl, fun after hs => ?_⟩
      rw [List.cons_append, readEnd?, if_pos hmark, ht after hs]
      simp [hx]
    · exact hfinish h

theorem readFraction?_point {d : Char} {ds : List Char} (hd : ∀ c ∈ d :: ds, c.isDigit = true)
    (hr : ∀ c ∈ rest.head?, c.isDigit = false) :
    readFraction? isNegative whole ('.' :: (d :: ds ++ rest)) =
      readEnd? isNegative (leading (leading 0 whole).1 (d :: ds)).1
        (((leading 0 whole).2.length : Int) -
          ((d :: ds).length - (leading (leading 0 whole).1 (d :: ds)).2.length : Nat))
        false rest := by
  rw [readFraction?]
  simp only [digits_append_of_head hd hr]
  cases rest <;> rfl

theorem readFraction?_whole (hp : ∀ c ∈ cs.head?, c ≠ '.') :
    readFraction? isNegative whole cs =
      readEnd? isNegative (leading 0 whole).1 (leading 0 whole).2.length true cs := by
  rw [readFraction?]
  cases cs with
  | nil => rfl
  | cons c cs =>
    have hne := hp c rfl
    simp [hne, readEnd?]

theorem takes_readFraction? (h : readFraction? isNegative whole cs = some (n, rest)) :
    ∃ t, cs = t ++ rest ∧ Takes (readFraction? isNegative whole) t n := by
  by_cases hpoint : ∀ c ∈ cs.head?, c ≠ '.'
  · rw [readFraction?_whole hpoint] at h
    obtain ⟨t, rfl, ht⟩ := takes_readEnd? h
    refine ⟨t, rfl, fun after hs => ?_⟩
    rw [readFraction?_whole (forall_head?_append hpoint fun c hc => (hs c hc).2.1), ht after hs]
  · obtain ⟨cs, rfl⟩ : ∃ cs', cs = '.' :: cs' := by
      cases cs with
      | nil => exact absurd nofun hpoint
      | cons c cs => simp_all
    obtain ⟨ds, cs', hds⟩ : ∃ ds cs', digits cs = (ds, cs') := ⟨_, _, rfl⟩
    obtain ⟨rfl, hdigits, hrest⟩ := digits_eq hds
    cases ds with
    | nil =>
      rw [readFraction?] at h
      simp only [hds] at h
      cases h
    | cons d ds =>
      rw [readFraction?_point hdigits hrest] at h
      obtain ⟨t, rfl, ht⟩ := takes_readEnd? h
      refine ⟨'.' :: (d :: ds ++ t), by simp, fun after hs => ?_⟩
      have := forall_head?_append hrest fun c hc => (hs c hc).1
      rw [List.cons_append, List.append_assoc, readFraction?_point hdigits this, ht after hs]

end Fraction

/-- A number after its sign. -/
def readUnsigned? (isNegative : Bool) (cs : List Char) : Option (Number × List Char) :=
  match digits cs with
  | ([], _) => none
  | (['0'], rest) => readFraction? isNegative ['0'] rest
  | ('0' :: _, _) => none
  | (whole, rest) => readFraction? isNegative whole rest

theorem readNumber?_minus (cs : List Char) : readNumber? ('-' :: cs) = readUnsigned? true cs :=
  rfl

theorem readNumber?_unsigned {cs : List Char} (h : ∀ c ∈ cs.head?, c ≠ '-') :
    readNumber? cs = readUnsigned? false cs := by
  unfold readNumber?
  split
  rename_i hsign
  split at hsign
  · exact absurd rfl (h '-' rfl)
  · cases hsign
    rfl

/-- The digits of the whole part of a number: a zero in front is all of it. -/
def IsWhole (ds : List Char) : Prop :=
  ds ≠ [] ∧ ∀ more, ds = '0' :: more → more = []

theorem readUnsigned?_eq {isNegative : Bool} {cs ds rest : List Char} (h : digits cs = (ds, rest))
    (hw : IsWhole ds) : readUnsigned? isNegative cs = readFraction? isNegative ds rest := by
  unfold readUnsigned?
  split
  · exact absurd (congrArg Prod.fst (h.symm.trans ‹_›)) hw.1
  · cases h.symm.trans ‹_›
    rfl
  · rename_i more _ hne hds
    cases h.symm.trans hds
    exact absurd (hw.2 more rfl) hne
  · cases h.symm.trans ‹_›
    rfl

theorem isWhole_of_readUnsigned? {isNegative : Bool} {cs ds rest : List Char}
    {found : Number × List Char} (hds : digits cs = (ds, rest))
    (h : readUnsigned? isNegative cs = some found) : IsWhole ds := by
  unfold readUnsigned? at h
  rw [hds] at h
  split at h
  · cases h
  · cases ‹(ds, rest) = _›
    exact ⟨List.cons_ne_nil _ _, fun more hmore => (List.cons.inj hmore).2.symm⟩
  · cases h
  · rename_i hempty hzero hzeros heq
    cases heq
    exact ⟨hempty, fun more hmore => absurd hmore (hzeros more)⟩

theorem takes_readUnsigned? {isNegative : Bool} {cs rest : List Char} {n : Number}
    (h : readUnsigned? isNegative cs = some (n, rest)) :
    ∃ t, cs = t ++ rest ∧ (∃ d ∈ t.head?, d.isDigit = true) ∧
      Takes (readUnsigned? isNegative) t n := by
  obtain ⟨ds, cs', hds⟩ : ∃ ds cs', digits cs = (ds, cs') := ⟨_, _, rfl⟩
  have hw := isWhole_of_readUnsigned? hds h
  rw [readUnsigned?_eq hds hw] at h
  obtain ⟨rfl, hdigits, hrest⟩ := digits_eq hds
  obtain ⟨t, rfl, ht⟩ := takes_readFraction? h
  refine ⟨ds ++ t, (List.append_assoc ..).symm, ?_, fun after hs => ?_⟩
  · cases ds with
    | nil => exact absurd rfl hw.1
    | cons d ds => exact ⟨d, rfl, hdigits d (.head _)⟩
  · have := forall_head?_append hrest fun c hc => (hs c hc).1
    rw [List.append_assoc, readUnsigned?_eq (digits_append_of_head hdigits this) hw, ht after hs]

/-- A number is read from its own characters. -/
theorem takes_readNumber? {cs rest : List Char} {n : Number} (h : readNumber? cs = some (n, rest)) :
    ∃ t, cs = t ++ rest ∧ (∃ c ∈ t.head?, c.isDigit = true ∨ c = '-') ∧ Takes readNumber? t n := by
  by_cases hminus : ∀ c ∈ cs.head?, c ≠ '-'
  · rw [readNumber?_unsigned hminus] at h
    obtain ⟨t, rfl, ⟨d, hd, hdigit⟩, ht⟩ := takes_readUnsigned? h
    refine ⟨t, rfl, ⟨d, hd, .inl hdigit⟩, fun after hs => ?_⟩
    rw [readNumber?_unsigned, ht after hs]
    intro c hc
    obtain ⟨t', rfl⟩ : ∃ t', t = d :: t' := List.head?_eq_some_iff.1 hd
    cases hc
    exact (ne_sign_of_isDigit hdigit).1
  · obtain ⟨cs, rfl⟩ : ∃ cs', cs = '-' :: cs' := by
      cases cs with
      | nil => exact absurd nofun hminus
      | cons c cs => simp_all
    rw [readNumber?_minus] at h
    obtain ⟨t, rfl, -, ht⟩ := takes_readUnsigned? h
    refine ⟨'-' :: t, rfl, ⟨'-', rfl, .inr rfl⟩, fun after hs => ?_⟩
    rw [List.cons_append, readNumber?_minus, ht after hs]

end EviAssist.Json
