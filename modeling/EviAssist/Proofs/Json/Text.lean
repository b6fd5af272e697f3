import EviAssist.Json.Parser
import EviAssist.Proofs.Text.Numeral
import EviAssist.Proofs.Text.Search
import Mathlib.Data.List.Basic
import Mathlib.Tactic.IntervalCases

/-!
# Texts of JSON values

A value can be written in many ways: blanks may stand between the tokens, characters in quotes may
be escaped, and the members of an object may come in any order. All of them are read as the same
value. Numbers are whole here and not negative.

* `Json.normal`: a value with the members of its objects sorted, each name once.
* `Json.depth`: how deep arrays and objects nest in a value.
* `Json.WritesChars`, `Json.Writes`: the texts of a string and of a value.
* `Json.reads`: a text is read as its value, whatever comes after it.
* `Json.parse?_of_writes`: the same of a text as a whole.
-/

namespace EviAssist.Json

/-! ## Values as they are written -/

mutual

/-- A value with the members of its objects sorted; of two with one name the last counts. -/
def normal : Json → Json
  | array items => array (normalItems items)
  | object members => ofList (normalMembers members)
  | value => value

/-- Each item with its members sorted. -/
def normalItems : List Json → List Json
  | [] => []
  | item :: items => normal item :: normalItems items

/-- Each member with the members of its value sorted. -/
def normalMembers : List (String × Json) → List (String × Json)
  | [] => []
  | (name, value) :: members => (name, normal value) :: normalMembers members

end

mutual

/-- How deep arrays and objects nest in a value. -/
def depth : Json → Nat
  | array items => depthItems items + 1
  | object members => depthMembers members + 1
  | _ => 0

/-- How deep they nest in an item at most. -/
def depthItems : List Json → Nat
  | [] => 0
  | item :: items => max (depth item) (depthItems items)

/-- How deep they nest in the value of a member at most. -/
def depthMembers : List (String × Json) → Nat
  | [] => 0
  | (_, value) :: members => max (depth value) (depthMembers members)

end

theorem normalItems_eq_map (items : List Json) : normalItems items = items.map normal := by
  induction items with
  | nil => rfl
  | cons item items ih => rw [normalItems, ih, List.map_cons]

theorem normalMembers_eq_map (members : List (String × Json)) :
    normalMembers members = members.map fun m => (m.1, m.2.normal) := by
  induction members with
  | nil => rfl
  | cons m members ih => rw [normalMembers, ih, List.map_cons]

theorem depthItems_le_iff {items : List Json} {d : Nat} :
    depthItems items ≤ d ↔ ∀ item ∈ items, item.depth ≤ d := by
  induction items with
  | nil => simp [depthItems]
  | cons item items ih => rw [depthItems, List.forall_mem_cons, ← ih]; omega

theorem depthMembers_le_iff {members : List (String × Json)} {d : Nat} :
    depthMembers members ≤ d ↔ ∀ m ∈ members, m.2.depth ≤ d := by
  induction members with
  | nil => simp [depthMembers]
  | cons m members ih => rw [depthMembers, List.forall_mem_cons, ← ih]; omega

/-! ## The grammar -/

/-- Any number of blanks. -/
def IsGap (cs : List Char) : Prop :=
  ∀ c ∈ cs, isSpace c = true

/-- What may stand between quotes for some characters. -/
inductive WritesChars : List Char → List Char → Prop where
  | nil : WritesChars [] []
  /-- A character that stands for itself. -/
  | plain {c : Char} {s t : List Char} (quote : c ≠ '"') (escape : c ≠ '\\')
      (control : 0x20 ≤ c.toNat) : WritesChars s t → WritesChars (c :: s) (c :: t)
  /-- An escape of one letter. -/
  | short {e c : Char} {s t : List Char} (escape : shortEscape? e = some c) :
      WritesChars s t → WritesChars (c :: s) ('\\' :: e :: t)
  /-- An escape of four digits. -/
  | unit {a b c d : Char} {n : Nat} {s t : List Char} (unit : readUnit? a b c d = some n)
      (surrogate : ¬(0xD800 ≤ n ∧ n < 0xE000)) :
      WritesChars s t → WritesChars (Char.ofNat n :: s) ('\\' :: 'u' :: a :: b :: c :: d :: t)
  /-- Two escapes of four digits for one character. -/
  | pair {a b c d e f g h : Char} {high low : Nat} {s t : List Char}
      (first : readUnit? a b c d = some high) (isHigh : 0xD800 ≤ high ∧ high < 0xDC00)
      (second : readUnit? e f g h = some low) (isLow : 0xDC00 ≤ low ∧ low < 0xE000) :
      WritesChars s t → WritesChars (pairChar high low :: s)
        ('\\' :: 'u' :: a :: b :: c :: d :: '\\' :: 'u' :: e :: f :: g :: h :: t)

mutual

/-- The texts of a value, without blanks before and after. -/
inductive Writes : Json → List Char → Prop where
  | null : Writes null ['n', 'u', 'l', 'l']
  | true : Writes (bool true) ['t', 'r', 'u', 'e']
  | false : Writes (bool false) ['f', 'a', 'l', 's', 'e']
  | number {n : Nat} (bound : n < UInt64.size) : Writes (nat n) (Text.decimal n)
  | text {s t : List Char} (chars : WritesChars s t) :
      Writes (text (String.ofList s)) ('"' :: t ++ ['"'])
  | noItems {gap : List Char} (blank : IsGap gap) : Writes (array []) ('[' :: gap ++ [']'])
  | array {items : List Json} {t : List Char} (all : WritesItems items t) :
      Writes (array items) ('[' :: t ++ [']'])
  | noMembers {gap : List Char} (blank : IsGap gap) : Writes (object []) ('{' :: gap ++ ['}'])
  | object {members : List (String × Json)} {t : List Char} (all : WritesMembers members t) :
      Writes (object members) ('{' :: t ++ ['}'])

/-- The texts of an item, with blanks around it. -/
inductive WritesItem : Json → List Char → Prop where
  | item {v : Json} {before t after : List Char} (blank : IsGap before) (blank' : IsGap after)
      (value : Writes v t) : WritesItem v (before ++ t ++ after)

/-- The texts of at least one item, with commas between. -/
inductive WritesItems : List Json → List Char → Prop where
  | last {v : Json} {t : List Char} (item : WritesItem v t) : WritesItems [v] t
  | cons {v : Json} {items : List Json} {t u : List Char} (item : WritesItem v t)
      (more : WritesItems items u) : WritesItems (v :: items) (t ++ ',' :: u)

/-- The texts of a member, with blanks around its name and its value. -/
inductive WritesMember : String × Json → List Char → Prop where
  | member {s t before after u : List Char} {v : Json} (blank : IsGap before)
      (blank' : IsGap after) (chars : WritesChars s t) (value : WritesItem v u) :
      WritesMember (String.ofList s, v) (before ++ '"' :: t ++ '"' :: after ++ ':' :: u)

/-- The texts of at least one member, with commas between. -/
inductive WritesMembers : List (String × Json) → List Char → Prop where
  | last {m : String × Json} {t : List Char} (member : WritesMember m t) : WritesMembers [m] t
  | cons {m : String × Json} {members : List (String × Json)} {t u : List Char}
      (member : WritesMember m t) (more : WritesMembers members u) :
      WritesMembers (m :: members) (t ++ ',' :: u)

end

/-! ## Tokens -/

theorem skipSpace_gap {gap : List Char} (h : IsGap gap) (cs : List Char) :
    skipSpace (gap ++ cs) = skipSpace cs :=
  List.dropWhile_append_of_pos h

theorem skipSpace_cons {c : Char} (h : isSpace c = false) (cs : List Char) :
    skipSpace (c :: cs) = c :: cs :=
  List.dropWhile_cons_of_neg (by simp [h])

theorem readString?_of_writes {s t : List Char} (h : WritesChars s t) (rest : List Char) :
    readString? (t ++ '"' :: rest) = some (s, rest) := by
  induction h with
  | nil => simp [readString?]
  | plain quote escape control _ ih =>
    have hc := Nat.not_lt.2 control
    simp [readString?, escape, hc, ih]
  | @short e c s t escape _ ih =>
    have hu : e ≠ 'u' := by
      rintro rfl
      cases escape
    simp [readString?, hu, escape, ih]
  | @unit a b c d n s t unit surrogate _ ih =>
    have hhigh : ¬(0xD800 ≤ n ∧ n < 0xDC00) := by omega
    have hlow : ¬(0xDC00 ≤ n ∧ n < 0xE000) := by omega
    simp only [List.cons_append, readString?, unit, Option.bind_eq_bind, Option.bind_some,
      if_neg hhigh, if_neg hlow, ih]
    rfl
  | pair first isHigh second isLow _ ih => simp [readString?, first, isHigh, second, isLow, ih]

/-! ## Numbers -/

/-- Whether a number ends before the characters. -/
def Stops (cs : List Char) : Prop :=
  ∀ c ∈ cs.head?, c.isDigit = false ∧ c ≠ '.' ∧ c ≠ 'e' ∧ c ≠ 'E'

theorem digits_append_of_head {ds rest : List Char} (hd : ∀ c ∈ ds, c.isDigit = true)
    (hr : ∀ c ∈ rest.head?, c.isDigit = false) : digits (ds ++ rest) = (ds, rest) := by
  rw [digits, Text.takeWhile_append_of_head hd hr, Text.dropWhile_append_of_head hd hr]

theorem digits_append {ds rest : List Char} (hd : ∀ c ∈ ds, c.isDigit = true) (hr : Stops rest) :
    digits (ds ++ rest) = (ds, rest) :=
  digits_append_of_head hd fun c hc => (hr c hc).1

theorem le_natOf (ds : List Char) (start : Nat) : start ≤ Text.natOf ds start := by
  induction ds generalizing start with
  | nil => exact le_rfl
  | cons d ds ih => 
    have := ih (start * 10 + Text.digitValue d)
    simp only [Text.natOf, List.foldl_cons] at this ⊢
    omega

theorem leading_eq {ds : List Char} {start : Nat} (h : Text.natOf ds start < UInt64.size) :
    leading start ds = (Text.natOf ds start, []) := by
  induction ds generalizing start with
  | nil => rfl
  | cons d ds ih =>
    have hle := le_natOf ds (start * 10 + Text.digitValue d)
    rw [leading, if_pos (hle.trans_lt h), ih h]
    rfl

theorem decimal_head {n : Nat} (hn : n ≠ 0) : ∀ c ∈ (Text.decimal n).head?, c ≠ '0' := by
  induction n using Nat.strong_induction_on with
  | _ n ih =>
    rw [Text.decimal]
    by_cases hlt : n < 10
    · rw [Nat.toDigits_of_lt_base hlt]
      rintro c ⟨⟩
      interval_cases n <;> first | exact absurd rfl hn | decide
    · rw [Nat.toDigits_of_base_le (by omega) (by omega),
        List.head?_append_of_ne_nil _ Nat.toDigits_ne_nil]
      exact ih (n / 10) (by omega) (by omega)

theorem readFraction?_of_stops {whole rest : List Char}
    (hw : Text.natOf whole 0 < UInt64.size) (hr : Stops rest) :
    readFraction? false whole rest = some (.natural (Text.natOf whole 0), rest) := by
  rw [readFraction?, leading_eq hw]
  cases rest with
  | nil => rfl
  | cons c rest =>
    obtain ⟨-, hpoint, he, hE⟩ := hr c rfl
    simp [hpoint, he, hE, readFraction?.finish]

theorem readNumber?_decimal {n : Nat} (hn : n < UInt64.size) {rest : List Char} (hr : Stops rest) :
    readNumber? (Text.decimal n ++ rest) = some (.natural n, rest) := by
  have hd := digits_append (fun c => Text.isDigit_of_mem_decimal (n := n)) hr
  have hw : Text.natOf (Text.decimal n) 0 < UInt64.size := by rwa [Text.natOf_decimal]
  have hf := readFraction?_of_stops hw hr
  rw [Text.natOf_decimal] at hf
  have hhead := fun h => decimal_head (n := n) h
  have hdigit := fun c => Text.isDigit_of_mem_decimal (n := n) (c := c)
  unfold readNumber?
  cases hds : Text.decimal n with
  | nil => exact absurd hds Nat.toDigits_ne_nil
  | cons d ds =>
    rw [hds] at hd hf hhead hdigit
    have hminus : d ≠ '-' := by
      rintro rfl
      exact absurd (hdigit '-' (.head _)) (by decide)
    have hzero : d = '0' → ds = [] := by
      intro h0
      by_cases hn0 : n = 0
      · rw [hn0] at hds
        cases hds
        rfl
      · exact absurd h0 (hhead hn0 d rfl)
    split
    rename_i negative cs hsign
    split at hsign
    · rename_i heq
      exact absurd (List.cons.inj heq).1 hminus
    cases hsign
    rw [hd]
    by_cases h0 : d = '0'
    · rw [h0, hzero h0] at hf ⊢
      exact hf
    · split
      · cases ‹_ = ([], _)›
      · rename_i heq
        cases heq
        exact absurd rfl h0
      · rename_i heq
        cases heq
        exact absurd rfl h0
      · rename_i heq
        cases heq
        exact hf

/-! ## Values -/

/-- The first character of a value. -/
def Opens (c : Char) : Prop :=
  c ∈ ['n', 't', 'f', '"', '[', '{'] ∨ c.isDigit = true

/-- The last character of a value. -/
def Closes (c : Char) : Prop :=
  c ∈ ['l', 'e', '"', ']', '}'] ∨ c.isDigit = true

theorem Writes.opens {v : Json} {t : List Char} (h : Writes v t) : ∃ c u, t = c :: u ∧ Opens c := by
  cases h with
  | number bound =>
    rename_i n
    cases hd : Text.decimal n with
    | nil => exact absurd hd Nat.toDigits_ne_nil
    | cons d ds =>
      exact ⟨d, ds, rfl, .inr (Text.isDigit_of_mem_decimal (n := n) (hd ▸ List.mem_cons_self))⟩
  | _ => exact ⟨_, _, rfl, .inl (by decide)⟩

theorem Writes.closes {v : Json} {t : List Char} (h : Writes v t) :
    ∃ u c, t = u ++ [c] ∧ Closes c := by
  cases h with
  | number bound =>
    rename_i n
    have hne : Text.decimal n ≠ [] := Nat.toDigits_ne_nil
    exact ⟨_, _, (List.dropLast_append_getLast hne).symm,
      .inr (Text.isDigit_of_mem_decimal (List.getLast_mem hne))⟩
  | null => exact ⟨['n', 'u', 'l'], 'l', rfl, .inl (by decide)⟩
  | true => exact ⟨['t', 'r', 'u'], 'e', rfl, .inl (by decide)⟩
  | false => exact ⟨['f', 'a', 'l', 's'], 'e', rfl, .inl (by decide)⟩
  | _ => exact ⟨_, _, rfl, .inl (by decide)⟩

theorem isBlank_of_isSpace {c : Char} (h : isSpace c = true) : Text.isBlank c = true := by
  simp only [isSpace, Bool.or_eq_true, beq_iff_eq] at h
  rcases h with ((rfl | rfl) | rfl) | rfl <;> decide

theorem Opens.isBlank_eq {c : Char} (h : Opens c) : Text.isBlank c = false := by
  rcases h with h | h
  · simp only [List.mem_cons, List.not_mem_nil, or_false] at h
    rcases h with rfl | rfl | rfl | rfl | rfl | rfl <;> decide
  · exact Text.isBlank_of_isDigit h

theorem Closes.isBlank_eq {c : Char} (h : Closes c) : Text.isBlank c = false := by
  rcases h with h | h
  · simp only [List.mem_cons, List.not_mem_nil, or_false] at h
    rcases h with rfl | rfl | rfl | rfl | rfl <;> decide
  · exact Text.isBlank_of_isDigit h

theorem Opens.isSpace_eq {c : Char} (h : Opens c) : isSpace c = false := by
  by_contra hc
  rw [Bool.not_eq_false] at hc
  exact Bool.false_ne_true (h.isBlank_eq.symm.trans (isBlank_of_isSpace hc))

theorem Opens.ne_bracket {c : Char} (h : Opens c) : c ≠ ']' := by
  rintro rfl
  rcases h with h | h
  · exact absurd h (by decide)
  · exact absurd h (by decide)

theorem Writes.skipSpace_eq {v : Json} {t gap : List Char} (h : Writes v t) (hg : IsGap gap)
    (rest : List Char) : skipSpace (gap ++ t ++ rest) = t ++ rest := by
  obtain ⟨c, u, rfl, hc⟩ := h.opens
  rw [List.append_assoc, skipSpace_gap hg]
  exact skipSpace_cons hc.isSpace_eq _

theorem stops_nil : Stops [] :=
  nofun

theorem stops_cons {c : Char} (hc : c ∈ [',', ']', '}']) (rest : List Char) :
    Stops (c :: rest) := by
  rintro _ ⟨⟩
  simp only [List.mem_cons, List.not_mem_nil, or_false] at hc
  rcases hc with rfl | rfl | rfl <;> decide

theorem Stops.gap {gap rest : List Char} (h : Stops rest) (hg : IsGap gap) :
    Stops (gap ++ rest) := by
  cases gap with
  | nil => exact h
  | cons c gap =>
    rintro _ ⟨⟩
    have hc := hg c (.head _)
    simp only [isSpace, Bool.or_eq_true, beq_iff_eq] at hc
    rcases hc with ((rfl | rfl) | rfl) | rfl <;> decide

theorem readValue?_number {fuel depth : Nat} {cs ds : List Char} {d : Char}
    (h : skipSpace cs = d :: ds) (hd : d.isDigit = true ∨ d = '-') :
    readValue? (fuel + 1) depth cs =
      (readNumber? (d :: ds)).map fun (n, after) => (number n, after) := by
  have hne : ∀ c ∈ ['n', 't', 'f', '"', '[', '{'], d ≠ c := by
    rintro c hc rfl
    simp only [List.mem_cons, List.not_mem_nil, or_false] at hc
    rcases hc with rfl | rfl | rfl | rfl | rfl | rfl <;> exact absurd hd (by decide)
  simp only [List.forall_mem_cons] at hne
  rw [readValue?, h]
  split <;> simp_all

theorem readValue?_decimal {fuel depth n : Nat} (hn : n < UInt64.size) {gap rest : List Char}
    (hg : IsGap gap) (hr : Stops rest) :
    readValue? (fuel + 1) depth (gap ++ Text.decimal n ++ rest) = some (nat n, rest) := by
  have hskip := (Writes.number hn).skipSpace_eq hg rest
  have hread := readNumber?_decimal hn hr
  cases hd : Text.decimal n with
  | nil => exact absurd hd Nat.toDigits_ne_nil
  | cons d ds =>
    rw [hd] at hskip hread
    have hdigit := Text.isDigit_of_mem_decimal (n := n) (hd ▸ List.mem_cons_self)
    rw [readValue?_number hskip (.inl hdigit)]
    exact congrArg _ hread

theorem WritesItem.length_pos {v : Json} {t : List Char} (h : WritesItem v t) : 0 < t.length := by
  cases h with
  | item blank blank' value =>
    obtain ⟨c, u, rfl, -⟩ := value.opens
    simp

theorem WritesItems.skipSpace_ne {items : List Json} {t : List Char} (h : WritesItems items t)
    (rest after : List Char) : skipSpace (t ++ rest) ≠ ']' :: after := by
  have hitem : ∀ {v t}, WritesItem v t → ∀ rest, skipSpace (t ++ rest) ≠ ']' :: after := by
    intro v t hv rest
    cases hv with
    | @item v before t after' blank blank' value =>
      obtain ⟨c, u, hcu, hc⟩ := value.opens
      rw [List.append_assoc, value.skipSpace_eq blank, hcu]
      intro heq
      exact hc.ne_bracket (List.cons.inj heq).1
  cases h with
  | last item => exact hitem item rest
  | cons item more =>
    rw [List.append_assoc]
    exact hitem item _

theorem WritesMembers.skipSpace_ne {members : List (String × Json)} {t : List Char}
    (h : WritesMembers members t) (rest after : List Char) :
    skipSpace (t ++ rest) ≠ '}' :: after := by
  have hmember : ∀ {m t}, WritesMember m t → ∀ rest, skipSpace (t ++ rest) ≠ '}' :: after := by
    intro m t hm rest
    cases hm with
    | member blank blank' chars value =>
      simp only [List.append_assoc]
      rw [skipSpace_gap blank, List.cons_append, skipSpace_cons (by decide)]
      intro heq
      cases heq
  cases h with
  | last member => exact hmember member rest
  | cons member more =>
    rw [List.append_assoc]
    exact hmember member _

/-! ## Reading -/

/-- Whether a number of steps is enough to read every item of at most that length. -/
def ReadsItem (fuel : Nat) : Prop :=
  ∀ {depth v t rest}, WritesItem v t → v.depth ≤ depth → t.length ≤ fuel → Stops rest →
    ∃ gap, IsGap gap ∧ readValue? fuel depth (t ++ rest) = some (v.normal, gap ++ rest)

/-- Whether it is enough to read all items of a shorter text. -/
def ReadsItems (fuel : Nat) : Prop :=
  ∀ {depth items t} rest, WritesItems items t → depthItems items ≤ depth → t.length < fuel →
    readItems? fuel depth (t ++ ']' :: rest) = some (normalItems items, rest)

/-- Whether it is enough to read all members of a shorter text. -/
def ReadsMembers (fuel : Nat) : Prop :=
  ∀ {depth members t} rest, WritesMembers members t → depthMembers members ≤ depth →
    t.length < fuel →
    readMembers? fuel depth (t ++ '}' :: rest) = some (normalMembers members, rest)

variable {fuel : Nat}

theorem ReadsItem.succ (hi : ReadsItems fuel) (hm : ReadsMembers fuel) : ReadsItem (fuel + 1) := by
  intro depth v t rest h hdepth hfuel hr
  cases h with
  | @item _ before t after blank blank' value =>
    refine ⟨after, blank', ?_⟩
    rw [List.append_assoc _ after]
    have hskip := value.skipSpace_eq blank (after ++ rest)
    simp only [List.length_append] at hfuel
    cases value with
    | null | true | false =>
      rw [readValue?, hskip]
      rfl
    | number bound => exact readValue?_decimal bound blank (hr.gap blank')
    | @text s t chars =>
      have hs := readString?_of_writes chars (after ++ rest)
      simp only [List.cons_append, List.append_assoc, List.nil_append] at hskip ⊢
      rw [readValue?, hskip]
      simp only [hs]
      rfl
    | @noItems gap hgap =>
      obtain ⟨depth, rfl⟩ := Nat.exists_eq_add_of_le' hdepth
      simp only [List.cons_append, List.append_assoc, List.nil_append] at hskip ⊢
      simp only [readValue?, hskip, skipSpace_gap hgap,
        skipSpace_cons (show isSpace ']' = false by decide)]
      rfl
    | @array items t all =>
      obtain ⟨depth, rfl⟩ := Nat.exists_eq_add_of_le' (Nat.le_of_add_left_le hdepth)
      have hread := hi (after ++ rest) all (Nat.le_of_add_le_add_right hdepth)
        (by simp at hfuel; omega)
      have hne := all.skipSpace_ne (']' :: (after ++ rest))
      simp only [List.cons_append, List.append_assoc, List.nil_append] at hskip ⊢
      simp only [readValue?, hskip]
      rw [hread]
      rfl
    | @noMembers gap hgap =>
      obtain ⟨depth, rfl⟩ := Nat.exists_eq_add_of_le' hdepth
      simp only [List.cons_append, List.append_assoc, List.nil_append] at hskip ⊢
      simp only [readValue?, hskip, skipSpace_gap hgap,
        skipSpace_cons (show isSpace '}' = false by decide)]
      rfl
    | @object members t all =>
      obtain ⟨depth, rfl⟩ := Nat.exists_eq_add_of_le' (Nat.le_of_add_left_le hdepth)
      have hread := hm (after ++ rest) all (Nat.le_of_add_le_add_right hdepth)
        (by simp at hfuel; omega)
      have hne := all.skipSpace_ne ('}' :: (after ++ rest))
      simp only [List.cons_append, List.append_assoc, List.nil_append] at hskip ⊢
      simp only [readValue?, hskip]
      rw [hread]
      rfl

theorem ReadsItems.succ (hv : ReadsItem fuel) (hi : ReadsItems fuel) : ReadsItems (fuel + 1) := by
  intro depth items t rest h hdepth hfuel
  have hdepth := depthItems_le_iff.1 hdepth
  cases h with
  | @last v t item =>
    obtain ⟨gap, hg, hread⟩ := hv item (hdepth v (.head _)) (by omega)
      (stops_cons (c := ']') (by decide) rest)
    simp only [readItems?, hread, Option.bind_eq_bind, Option.bind_some, skipSpace_gap hg,
      skipSpace_cons (show isSpace ']' = false by decide)]
    rfl
  | @cons v items t u item more =>
    simp only [List.length_append, List.length_cons] at hfuel
    obtain ⟨gap, hg, hread⟩ := hv item (hdepth v (.head _)) (by omega)
      (stops_cons (c := ',') (by decide) (u ++ ']' :: rest))
    have hmore := hi rest more (depthItems_le_iff.2 fun w hw => hdepth w (.tail _ hw)) (by omega)
    simp only [List.append_assoc, List.cons_append, readItems?, hread, Option.bind_eq_bind,
      Option.bind_some, skipSpace_gap hg, skipSpace_cons (show isSpace ',' = false by decide),
      hmore]
    rfl

theorem WritesMember.parts {m : String × Json} {t : List Char} (h : WritesMember m t)
    (tail : List Char) :
    ∃ s cs gap u, m.1 = String.ofList s ∧ WritesItem m.2 u ∧ u.length ≤ t.length ∧
      skipSpace (t ++ tail) = '"' :: cs ∧
      readString? cs = some (s, gap ++ ':' :: (u ++ tail)) ∧
      skipSpace (gap ++ ':' :: (u ++ tail)) = ':' :: (u ++ tail) := by
  cases h with
  | @member s t before after u v blank blank' chars value =>
    refine ⟨s, t ++ '"' :: (after ++ ':' :: (u ++ tail)), after, u, rfl, value, ?_, ?_,
      readString?_of_writes chars _, ?_⟩
    · simp
      omega
    · simp only [List.append_assoc, List.cons_append]
      rw [skipSpace_gap blank, skipSpace_cons (by decide)]
    · rw [skipSpace_gap blank', skipSpace_cons (by decide)]

theorem ReadsMembers.succ (hv : ReadsItem fuel) (hm : ReadsMembers fuel) :
    ReadsMembers (fuel + 1) := by
  intro depth members t rest h hdepth hfuel
  have hdepth := depthMembers_le_iff.1 hdepth
  cases h with
  | @last m t member =>
    obtain ⟨s, cs, gap, u, hs, value, hlen, hskip, hstring, hcolon⟩ :=
      member.parts ('}' :: rest)
    obtain ⟨gap', hg, hread⟩ := hv value (hdepth m (.head _)) (by omega)
      (stops_cons (c := '}') (by decide) rest)
    simp only [readMembers?, hskip, hstring, hcolon, hread, Option.bind_eq_bind, Option.bind_some,
      skipSpace_gap hg, skipSpace_cons (show isSpace '}' = false by decide), ← hs]
    rfl
  | @cons m members t w member more =>
    simp only [List.length_append, List.length_cons] at hfuel
    obtain ⟨s, cs, gap, u, hs, value, hlen, hskip, hstring, hcolon⟩ :=
      member.parts (',' :: (w ++ '}' :: rest))
    obtain ⟨gap', hg, hread⟩ := hv value (hdepth m (.head _)) (by omega)
      (stops_cons (c := ',') (by decide) (w ++ '}' :: rest))
    have hmore := hm rest more (depthMembers_le_iff.2 fun x hx => hdepth x (.tail _ hx)) (by omega)
    simp only [List.append_assoc, List.cons_append, readMembers?, hskip, hstring, hcolon, hread,
      Option.bind_eq_bind, Option.bind_some, skipSpace_gap hg,
      skipSpace_cons (show isSpace ',' = false by decide), hmore, ← hs]
    rfl

/-- Every text is read when enough steps may be taken: every part of a text is shorter than it. -/
theorem reads (fuel : Nat) : ReadsItem fuel ∧ ReadsItems fuel ∧ ReadsMembers fuel := by
  induction fuel with
  | zero =>
    refine ⟨?_, ?_, ?_⟩
    · intro _ _ _ _ h _ hfuel
      exact absurd h.length_pos (by omega)
    · intro _ _ _ _ _ _ hfuel
      omega
    · intro _ _ _ _ _ _ hfuel
      omega
  | succ fuel ih =>
    obtain ⟨hv, hi, hm⟩ := ih
    exact ⟨ReadsItem.succ hi hm, ReadsItems.succ hv hi, ReadsMembers.succ hv hm⟩

/-- **A text is read as its value.** -/
theorem parse?_of_writes {v : Json} {t : List Char} (h : Writes v t) (hd : v.depth ≤ deepest) :
    parse? t = some v.normal := by
  have hitem : WritesItem v t := by
    simpa using @WritesItem.item v [] t [] nofun nofun h
  obtain ⟨gap, hg, hread⟩ := (reads (2 * t.length + 2)).1 hitem hd (by omega) stops_nil
  rw [List.append_nil, List.append_nil] at hread
  have hgap : skipSpace gap = [] := by
    simpa [skipSpace] using skipSpace_gap hg []
  rw [parse?, hread]
  simp only [Option.bind_eq_bind, Option.bind_some, hgap, if_true]

end EviAssist.Json
