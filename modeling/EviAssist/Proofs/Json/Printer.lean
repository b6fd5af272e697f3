import EviAssist.Json.Printer
import EviAssist.Proofs.Json.Text

/-!
# Printed values as texts

A value printed without blanks is one of the texts of the value, from which it is read back. Only
whole numbers are printed here; those with a fraction are not among the texts of `Json.Writes`.

* `Json.isWhole`: whether all numbers of a value are whole, not negative and fit 64 bits.
* `Json.writes_write`: what is printed is a text of the value.
-/

namespace EviAssist.Json

mutual

/-- Whether all numbers of a value are whole, not negative and fit 64 bits. -/
def isWhole : Json → Bool
  | number (.natural n) => n < UInt64.size
  | number _ => false
  | array items => areWhole items
  | object members => areMembersWhole members
  | _ => true

/-- Whether all numbers of the items are. -/
def areWhole : List Json → Bool
  | [] => true
  | item :: items => isWhole item && areWhole items

/-- Whether all numbers of the members are. -/
def areMembersWhole : List (String × Json) → Bool
  | [] => true
  | (_, value) :: members => isWhole value && areMembersWhole members

end

/-! ## Characters -/

theorem readUnit?_escape {n : Nat} (h : n < 0x20) :
    readUnit? '0' '0' (lowerHexDigit (n / 16)) (lowerHexDigit (n % 16)) = some n := by
  interval_cases n <;> rfl

theorem writesChars_escape (c : Char) {s t : List Char} (h : WritesChars s t) :
    WritesChars (c :: s) (escapeChar c ++ t) := by
  have hshort {e d : Char} (hc : c = d) (hs : shortEscape? e = some d) :
      WritesChars (c :: s) (['\\', e] ++ t) := hc ▸ .short hs h
  unfold escapeChar
  split_ifs with hquote hescape hb hf hn hr ht hcontrol
  · exact hshort hquote rfl
  · exact hshort hescape rfl
  · exact hshort hb rfl
  · exact hshort hf rfl
  · exact hshort hn rfl
  · exact hshort hr rfl
  · exact hshort ht rfl
  · have hu := WritesChars.unit (readUnit?_escape hcontrol) (by omega) h
    rwa [Char.ofNat_toNat] at hu
  · exact .plain hquote hescape (Nat.not_lt.1 hcontrol) h

theorem writesChars_flatMap (s : List Char) : WritesChars s (s.flatMap escapeChar) := by
  induction s with
  | nil => exact .nil
  | cons c s ih => exact writesChars_escape c ih

/-! ## Values -/

theorem Writes.asItem {v : Json} {t : List Char} (h : Writes v t) : WritesItem v t := by
  simpa using @WritesItem.item v [] t [] nofun nofun h

theorem WritesItem.asMember {v : Json} {t : List Char} (name : String) (h : WritesItem v t) :
    WritesMember (name, v) (writeText name ++ ':' :: t) := by
  have hm := @WritesMember.member name.toList _ [] [] t v nofun nofun
    (writesChars_flatMap name.toList) h
  simpa [writeText, String.ofList_toList] using hm

mutual

/-- **What is printed for a value is one of its texts.** -/
theorem writes_write (v : Json) (h : v.isWhole = true) : Writes v v.write := by
  cases v with
  | null => exact .null
  | bool b =>
    cases b with
    | false => exact .false
    | true => exact .true
  | number n =>
    cases n with
    | natural n => exact .number (of_decide_eq_true h)
    | negative n => cases h
    | real isNegative x => cases h
  | text s =>
    have ht := Writes.text (writesChars_flatMap s.toList)
    rwa [String.ofList_toList] at ht
  | array items =>
    cases items with
    | nil => exact @Writes.noItems [] nofun
    | cons item items => exact .array (writesItems_write (item :: items) nofun h)
  | object members =>
    cases members with
    | nil => exact @Writes.noMembers [] nofun
    | cons m members => exact .object (writesMembers_write (m :: members) nofun h)

theorem writesItems_write (items : List Json) (hne : items ≠ []) (h : areWhole items = true) :
    WritesItems items (Text.joinWith [','] (writeItems items)) := by
  cases items with
  | nil => exact absurd rfl hne
  | cons item items =>
    obtain ⟨hitem, hitems⟩ := Bool.and_eq_true_iff.1 h
    have hfirst := (writes_write item hitem).asItem
    cases items with
    | nil => exact .last hfirst
    | cons next items =>
      have hall := WritesItems.cons hfirst (writesItems_write (next :: items) nofun hitems)
      simpa [writeItems, Text.joinWith] using hall

theorem writesMembers_write (members : List (String × Json)) (hne : members ≠ [])
    (h : areMembersWhole members = true) :
    WritesMembers members (Text.joinWith [','] (writeMembers members)) := by
  cases members with
  | nil => exact absurd rfl hne
  | cons m members =>
    obtain ⟨name, value⟩ := m
    obtain ⟨hvalue, hmembers⟩ := Bool.and_eq_true_iff.1 h
    have hfirst := (writes_write value hvalue).asItem.asMember name
    cases members with
    | nil => exact .last hfirst
    | cons next members =>
      have hall := WritesMembers.cons hfirst (writesMembers_write (next :: members) nofun hmembers)
      simpa [writeMembers, Text.joinWith] using hall

end

end EviAssist.Json
