import EviAssist.Text.Blank
import EviAssist.Text.Numeral
import Mathlib.Data.List.Basic

/-!
# Numerals and blanks

The digits of a number are read as the number, and blanks around a text are cut off.

* `Text.natOf_decimal`, `Text.readUInt32?_decimal`, `Text.hexValue?_hexDigit`: digits are read back.
* `Text.isBlank_of_isAlphanum`: no letter or digit is blank.
* `Text.trim_append`: a text between blanks that has none at its own ends.
-/

namespace EviAssist.Text

theorem natOf_eq_ofDigitChars (ds : List Char) (start : Nat) :
    natOf ds start = Nat.ofDigitChars 10 ds start := by
  induction ds generalizing start with
  | nil => rfl
  | cons d ds ih =>
    rw [Nat.ofDigitChars_cons, ← ih, Nat.mul_comm]
    rfl

theorem natOf_decimal (n : Nat) : natOf (decimal n) 0 = n := by
  rw [natOf_eq_ofDigitChars]
  exact Nat.ofDigitChars_toDigits (by omega) (by omega)

theorem isDigit_of_mem_decimal {n : Nat} {c : Char} (h : c ∈ decimal n) : c.isDigit = true :=
  Nat.isDigit_of_mem_toDigits (by omega) (by omega) h

theorem toNat_of_isAlphanum {c : Char} (h : c.isAlphanum = true) :
    0x20 < c.toNat ∧ c.toNat < 0x80 := by
  change (decide (65 ≤ c.val ∧ c.val ≤ 90) || (decide (97 ≤ c.val) && decide (c.val ≤ 122)) ||
    (decide (48 ≤ c.val) && decide (c.val ≤ 57))) = true at h
  simp only [Bool.or_eq_true, Bool.and_eq_true, decide_eq_true_eq, UInt32.le_iff_toNat_le,
    Char.toNat_val, UInt32.reduceToNat] at h
  omega

theorem isBlank_of_isAlphanum {c : Char} (h : c.isAlphanum = true) : isBlank c = false := by
  have hc := toNat_of_isAlphanum h
  simp [isBlank]
  omega

theorem isBlank_of_isDigit {c : Char} (h : c.isDigit = true) : isBlank c = false :=
  isBlank_of_isAlphanum (by rw [Char.isAlphanum, h, Bool.or_true])

theorem readUnsigned?_eq_some_iff {cs : List Char} {n : Nat} :
    readUnsigned? cs = some n ↔
      ∃ digits, (cs = digits ∨ cs = '+' :: digits) ∧ digits ≠ [] ∧
        (∀ c ∈ digits, c.isDigit = true) ∧ natOf digits 0 = n := by
  have hnat {ds : List Char} : readNat? ds = some n ↔
      ds ≠ [] ∧ (∀ c ∈ ds, c.isDigit = true) ∧ natOf ds 0 = n := by
    simp [readNat?, and_assoc]
  unfold readUnsigned?
  split
  · rename_i ds
    rw [hnat]
    constructor
    · exact fun h => ⟨ds, .inr rfl, h⟩
    · rintro ⟨digits, rfl | heq, hne, hall, hn⟩
      · exact absurd (hall '+' (.head _)) (by decide)
      · cases heq
        exact ⟨hne, hall, hn⟩
  · rename_i hplus
    rw [hnat]
    constructor
    · exact fun h => ⟨cs, .inl rfl, h⟩
    · rintro ⟨digits, rfl | rfl, h⟩
      · exact h
      · exact absurd rfl (hplus digits)

theorem readUInt32?_eq_some_iff {cs : List Char} {n : UInt32} :
    readUInt32? cs = some n ↔ readUnsigned? cs = some n.toNat := by
  unfold readUInt32?
  cases hread : readUnsigned? cs with
  | none => simp
  | some value =>
    have hsize : n.toNat < UInt32.size := n.toNat_lt
    simp only [Option.some.injEq]
    split
    · rename_i hlt
      rw [Option.some.injEq, ← UInt32.toNat_inj, UInt32.toNat_ofNat_of_lt' hlt]
    · rename_i hge
      exact ⟨nofun, fun h => absurd (h ▸ hsize) hge⟩

/-- The digits of a number of 32 bits are read as it. -/
theorem readUInt32?_decimal (n : UInt32) : readUInt32? (decimal n.toNat) = some n :=
  readUInt32?_eq_some_iff.2 <| readUnsigned?_eq_some_iff.2
    ⟨_, .inl rfl, Nat.toDigits_ne_nil, fun _ hc => isDigit_of_mem_decimal hc, natOf_decimal _⟩

theorem toList_toString (n : UInt32) : (toString n).toList = decimal n.toNat :=
  String.toList_ofList

theorem hexValue?_hexDigit : ∀ n < 16, hexValue? (hexDigit n) = some n := by
  decide

/-! ## Blanks -/

/-- A text between blanks that has none at its own ends. -/
theorem trim_append {before t after : List Char} (hb : ∀ c ∈ before, isBlank c = true)
    (ha : ∀ c ∈ after, isBlank c = true) (hfirst : ∀ c ∈ t.head?, isBlank c = false)
    (hlast : ∀ c ∈ t.getLast?, isBlank c = false) : trim (before ++ t ++ after) = t := by
  have hend : trimEnd (t ++ after) = t := by
    have ha' : ∀ c ∈ after.reverse, isBlank c = true := fun c hc => ha c (List.mem_reverse.1 hc)
    rw [trimEnd, List.reverse_append, List.dropWhile_append_of_pos ha']
    cases h : t.reverse with
    | nil => exact (List.reverse_eq_nil_iff.1 h).symm
    | cons c u =>
      have hc := hlast c (by rw [← List.head?_reverse, h]; rfl)
      rw [List.dropWhile_cons_of_neg (by simp [hc]), ← h, List.reverse_reverse]
  rw [trim, List.append_assoc, List.dropWhile_append_of_pos hb]
  cases t with
  | nil =>
    have hnil : (after ++ []).dropWhile isBlank = [] := List.dropWhile_append_of_pos ha
    rw [List.append_nil] at hnil
    rw [List.nil_append, hnil]
    rfl
  | cons c u =>
    have hc := hfirst c rfl
    rw [List.cons_append, List.dropWhile_cons_of_neg (by simp [hc])]
    exact hend

end EviAssist.Text
