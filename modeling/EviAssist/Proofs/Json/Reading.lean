import EviAssist.Proofs.Json.Scalar

/-!
# Values are read from their own texts

What stands behind a value has no part in it: the characters that a reader takes are read as the
same value whatever comes behind them. So the text of an object is taken apart into its members, and
those are all that it holds.

* `Json.IsTextOf`: the characters that are read as a value.
* `Json.readValue?_eq_some`, `Json.parse?_eq_some_iff`: what is read is such a text.
* `Json.IsObjectText`: the texts of an object with the members written in it.
* `Json.parse?_eq_object_iff`: an object is read from the members written in its text.
-/

namespace EviAssist.Json

/-! ## Values -/

/-- Whether the characters `t`, at least one, are read as the value `v`, whatever comes behind
them; arrays and objects nest at most `depth` deep in it. -/
def IsTextOf (depth : Nat) (v : Json) (t : List Char) : Prop :=
  t ≠ [] ∧ ∀ fuel, t.length ≤ fuel → Takes (readValue? fuel depth) t v

/-- Whether the characters `t` are read as the items up to the bracket that is the last of them. -/
def AreItemsOf (depth : Nat) (items : List Json) (t : List Char) : Prop :=
  ∀ fuel rest, t.length ≤ fuel → readItems? fuel depth (t ++ rest) = some (items, rest)

/-- The texts of a member: its name in quotes, a colon and its value, with blanks around each. -/
inductive IsMember (depth : Nat) : String × Json → List Char → Prop where
  | member {s t before between u after : List Char} {v : Json} (blank : IsGap before)
      (blank' : IsGap between) (blank'' : IsGap after) (name : WritesChars s t)
      (value : IsTextOf depth v u) : IsMember depth (String.ofList s, v)
        (before ++ '"' :: (t ++ '"' :: (between ++ ':' :: (u ++ after))))

/-- The texts of at least one member, with commas between. -/
inductive AreMembers (depth : Nat) : List (String × Json) → List Char → Prop where
  | last {m : String × Json} {t : List Char} (member : IsMember depth m t) : AreMembers depth [m] t
  | cons {m : String × Json} {members : List (String × Json)} {t u : List Char}
      (member : IsMember depth m t) (more : AreMembers depth members u) :
      AreMembers depth (m :: members) (t ++ ',' :: u)

variable {fuel depth : Nat} {cs rest t : List Char} {v : Json}

theorem exists_gap (cs : List Char) :
    ∃ gap cs', IsGap gap ∧ cs = gap ++ cs' ∧ skipSpace cs = cs' :=
  ⟨cs.takeWhile isSpace, skipSpace cs, fun _ => List.mem_takeWhile_imp,
    List.takeWhile_append_dropWhile.symm, rfl⟩

theorem readValue?_gap {gap : List Char} (hg : IsGap gap) :
    readValue? (fuel + 1) depth (gap ++ cs) = readValue? (fuel + 1) depth cs := by
  rw [readValue?, readValue?, skipSpace_gap hg]

theorem IsTextOf.gap {gap : List Char} (h : IsTextOf depth v t) (hg : IsGap gap) :
    IsTextOf depth v (gap ++ t) := by
  refine ⟨fun hnil => h.1 (List.append_eq_nil_iff.1 hnil).2, fun fuel hfuel rest hs => ?_⟩
  have hpos := List.length_pos_of_ne_nil h.1
  rw [List.length_append] at hfuel
  obtain ⟨fuel, rfl⟩ := Nat.exists_eq_add_one.2 (show 0 < fuel by omega)
  rw [List.append_assoc, readValue?_gap hg]
  exact h.2 (fuel + 1) (by omega) rest hs

theorem isTextOf_cons {c : Char} (hc : isSpace c = false)
    (h : ∀ fuel rest, t.length ≤ fuel → Stops rest →
      skipSpace (c :: (t ++ rest)) = c :: (t ++ rest) →
      readValue? (fuel + 1) depth (c :: (t ++ rest)) = some (v, rest)) :
    IsTextOf depth v (c :: t) := by
  refine ⟨List.cons_ne_nil _ _, fun fuel hfuel rest hs => ?_⟩
  obtain ⟨fuel, rfl⟩ := Nat.exists_eq_add_one.2 (show 0 < fuel by simp at hfuel; omega)
  exact h fuel rest (Nat.le_of_succ_le_succ hfuel) hs (skipSpace_cons hc _)

theorem isTextOf_null : IsTextOf depth null ['n', 'u', 'l', 'l'] :=
  isTextOf_cons (by decide) fun fuel rest _ _ hskip => by rw [readValue?, hskip]; rfl

theorem isTextOf_true : IsTextOf depth (bool true) ['t', 'r', 'u', 'e'] :=
  isTextOf_cons (by decide) fun fuel rest _ _ hskip => by rw [readValue?, hskip]; rfl

theorem isTextOf_false : IsTextOf depth (bool false) ['f', 'a', 'l', 's', 'e'] :=
  isTextOf_cons (by decide) fun fuel rest _ _ hskip => by rw [readValue?, hskip]; rfl

theorem isTextOf_text {s : List Char} (h : WritesChars s t) :
    IsTextOf depth (text (String.ofList s)) ('"' :: (t ++ ['"'])) := by
  refine isTextOf_cons (by decide) fun fuel rest _ _ hskip => ?_
  have hread := readString?_of_writes h rest
  simp only [List.append_assoc, List.cons_append, List.nil_append] at hskip ⊢
  rw [readValue?, hskip]
  simp only [hread]
  rfl

theorem isSpace_of_number {c : Char} (h : c.isDigit = true ∨ c = '-') : isSpace c = false := by
  rcases h with h | rfl
  · exact (show Opens c from .inr h).isSpace_eq
  · decide

theorem isTextOf_number {n : Number} (hc : ∃ c ∈ t.head?, c.isDigit = true ∨ c = '-')
    (h : Takes readNumber? t n) : IsTextOf depth (number n) t := by
  obtain ⟨c, hhead, hc⟩ := hc
  obtain ⟨t, rfl⟩ := List.head?_eq_some_iff.1 hhead
  refine isTextOf_cons (isSpace_of_number hc) fun fuel rest _ hs hskip => ?_
  have hread := h rest hs
  rw [List.cons_append] at hread
  rw [readValue?_number hskip hc, hread]
  rfl

/-! ## Arrays and objects -/

theorem skipSpace_close {gap : List Char} {c : Char} (hg : IsGap gap) (hc : isSpace c = false) :
    skipSpace (gap ++ c :: rest) = c :: rest := by
  rw [skipSpace_gap hg, skipSpace_cons hc]

theorem isTextOf_array_nil {gap : List Char} (hg : IsGap gap) :
    IsTextOf (depth + 1) (array []) ('[' :: (gap ++ [']'])) := by
  refine isTextOf_cons (by decide) fun fuel rest _ _ hskip => ?_
  simp only [List.append_assoc, List.cons_append, List.nil_append] at hskip ⊢
  simp only [readValue?, hskip, skipSpace_close hg (show isSpace ']' = false by decide)]

theorem isTextOf_object_nil {gap : List Char} (hg : IsGap gap) :
    IsTextOf (depth + 1) (object []) ('{' :: (gap ++ ['}'])) := by
  refine isTextOf_cons (by decide) fun fuel rest _ _ hskip => ?_
  simp only [List.append_assoc, List.cons_append, List.nil_append] at hskip ⊢
  simp only [readValue?, hskip, skipSpace_close hg (show isSpace '}' = false by decide)]

theorem skipSpace_ne_of_readItems? {found : List Json × List Char}
    (h : readItems? fuel depth cs = some found) (after : List Char) :
    skipSpace cs ≠ ']' :: after := by
  intro hskip
  cases fuel with
  | zero => cases h
  | succ fuel =>
    obtain ⟨⟨item, rest⟩, hitem, -⟩ := Option.bind_eq_some_iff.1 h
    cases fuel with
    | zero => cases hitem
    | succ fuel =>
      rw [readValue?, hskip] at hitem
      cases hitem

theorem skipSpace_ne_of_readMembers? {found : List (String × Json) × List Char}
    (h : readMembers? fuel depth cs = some found) (after : List Char) :
    skipSpace cs ≠ '}' :: after := by
  intro hskip
  cases fuel with
  | zero => cases h
  | succ fuel =>
    rw [readMembers?, hskip] at h
    cases h

theorem isTextOf_array {items : List Json} (h : AreItemsOf depth items t) :
    IsTextOf (depth + 1) (array items) ('[' :: t) := by
  refine isTextOf_cons (by decide) fun fuel rest hfuel _ hskip => ?_
  have hread := h fuel rest hfuel
  have hne := skipSpace_ne_of_readItems? hread
  simp only [readValue?, hskip]
  rw [hread]
  rfl

theorem areItemsOf_last {gap : List Char} (hv : IsTextOf depth v t) (hg : IsGap gap) :
    AreItemsOf depth [v] (t ++ (gap ++ [']'])) := by
  intro fuel rest hfuel
  simp only [List.length_append, List.length_singleton] at hfuel
  obtain ⟨fuel, rfl⟩ := Nat.exists_eq_add_one.2 (show 0 < fuel by omega)
  have hread := hv.2 fuel (by omega) (gap ++ ']' :: rest) ((stops_cons (by decide) rest).gap hg)
  simp only [List.append_assoc, List.cons_append, List.nil_append, readItems?, hread,
    Option.bind_eq_bind, Option.bind_some, skipSpace_close hg (show isSpace ']' = false by decide)]
  rfl

theorem areItemsOf_cons {gap u : List Char} {items : List Json} (hv : IsTextOf depth v t)
    (hg : IsGap gap) (h : AreItemsOf depth items u) :
    AreItemsOf depth (v :: items) (t ++ (gap ++ ',' :: u)) := by
  intro fuel rest hfuel
  simp only [List.length_append, List.length_cons] at hfuel
  obtain ⟨fuel, rfl⟩ := Nat.exists_eq_add_one.2 (show 0 < fuel by omega)
  have hread := hv.2 fuel (by omega) (gap ++ ',' :: (u ++ rest)) ((stops_cons (by decide) _).gap hg)
  have hmore := h fuel rest (by omega)
  simp only [List.append_assoc, List.cons_append, readItems?, hread,
    Option.bind_eq_bind, Option.bind_some, skipSpace_close hg (show isSpace ',' = false by decide),
    hmore]
  rfl

theorem IsMember.readMembers?_eq {m : String × Json} (h : IsMember depth m t)
    (hfuel : t.length ≤ fuel) {c : Char} (hc : c ∈ [',', ']', '}']) :
    readMembers? (fuel + 1) depth (t ++ c :: rest) =
      match c :: rest with
      | ',' :: rest' => do
        let (members, after) ← readMembers? fuel depth rest'
        return (m :: members, after)
      | '}' :: after => some ([m], after)
      | _ => none := by
  cases h with
  | @member s t before between u after v blank blank' blank'' name value =>
    simp only [List.length_append, List.length_cons] at hfuel
    have hspace : isSpace c = false := by
      simp only [List.mem_cons, List.not_mem_nil, or_false] at hc
      rcases hc with rfl | rfl | rfl <;> decide
    have hname := readString?_of_writes name (between ++ ':' :: (u ++ (after ++ c :: rest)))
    have hvalue := value.2 fuel (by omega) (after ++ c :: rest) ((stops_cons hc rest).gap blank'')
    simp only [List.append_assoc, List.cons_append, readMembers?,
      skipSpace_close blank (show isSpace '"' = false by decide), hname, Option.bind_eq_bind,
      Option.bind_some, skipSpace_close blank' (show isSpace ':' = false by decide), hvalue,
      skipSpace_close blank'' hspace]
    rfl

theorem AreMembers.readMembers?_eq {members : List (String × Json)}
    (h : AreMembers depth members t) (hfuel : t.length < fuel) :
    readMembers? fuel depth (t ++ '}' :: rest) = some (members, rest) := by
  obtain ⟨fuel, rfl⟩ := Nat.exists_eq_add_one.2 (show 0 < fuel by omega)
  induction h generalizing fuel with
  | last member =>
    rw [member.readMembers?_eq (by omega) (by decide)]
    rfl
  | @cons m members t u member more ih =>
    simp only [List.length_append, List.length_cons] at hfuel
    obtain ⟨fuel, rfl⟩ := Nat.exists_eq_add_one.2 (show 0 < fuel by omega)
    rw [List.append_assoc, List.cons_append, member.readMembers?_eq (by omega) (by decide)]
    simp only [ih fuel (by omega)]
    rfl

theorem isTextOf_object {members : List (String × Json)} (h : AreMembers depth members t) :
    IsTextOf (depth + 1) (object (ofMembers members)) ('{' :: (t ++ ['}'])) := by
  refine isTextOf_cons (by decide) fun fuel rest hfuel _ hskip => ?_
  rw [List.length_append, List.length_singleton] at hfuel
  simp only [List.append_assoc, List.cons_append, List.nil_append] at hskip ⊢
  have hread : readMembers? fuel depth (t ++ '}' :: rest) = some (members, rest) :=
    h.readMembers?_eq hfuel
  have hne := skipSpace_ne_of_readMembers? hread
  simp only [readValue?, hskip]
  rw [hread]
  rfl

/-! ## What is read -/

/-- What one step of the reader makes of a value that its characters begin with. -/
inductive ReadsStep (fuel : Nat) : Nat → List Char → Json → List Char → Prop where
  | null {depth : Nat} {rest : List Char} :
      ReadsStep fuel depth ('n' :: 'u' :: 'l' :: 'l' :: rest) null rest
  | true {depth : Nat} {rest : List Char} :
      ReadsStep fuel depth ('t' :: 'r' :: 'u' :: 'e' :: rest) (bool true) rest
  | false {depth : Nat} {rest : List Char} :
      ReadsStep fuel depth ('f' :: 'a' :: 'l' :: 's' :: 'e' :: rest) (bool false) rest
  | text {depth : Nat} {cs s rest : List Char} (chars : readString? cs = some (s, rest)) :
      ReadsStep fuel depth ('"' :: cs) (text (String.ofList s)) rest
  | noItems {depth : Nat} {cs rest : List Char} (close : skipSpace cs = ']' :: rest) :
      ReadsStep fuel (depth + 1) ('[' :: cs) (array []) rest
  | array {depth : Nat} {cs rest : List Char} {items : List Json}
      (all : readItems? fuel depth cs = some (items, rest)) :
      ReadsStep fuel (depth + 1) ('[' :: cs) (array items) rest
  | noMembers {depth : Nat} {cs rest : List Char} (close : skipSpace cs = '}' :: rest) :
      ReadsStep fuel (depth + 1) ('{' :: cs) (object []) rest
  | object {depth : Nat} {cs rest : List Char} {members : List (String × Json)}
      (all : readMembers? fuel depth cs = some (members, rest)) :
      ReadsStep fuel (depth + 1) ('{' :: cs) (object (ofMembers members)) rest
  | number {depth : Nat} {cs rest : List Char} {n : Number}
      (digits : readNumber? cs = some (n, rest)) : ReadsStep fuel depth cs (number n) rest

theorem readsStep_of_readValue? (h : readValue? (fuel + 1) depth cs = some (v, rest)) :
    ReadsStep fuel depth (skipSpace cs) v rest := by
  rw [readValue?] at h
  split at h <;> rename_i hskip
  · cases h
    exact hskip ▸ .null
  · cases h
    exact hskip ▸ .true
  · cases h
    exact hskip ▸ .false
  · obtain ⟨⟨s, after⟩, hs, h⟩ := Option.map_eq_some_iff.1 h
    cases h
    exact hskip ▸ .text hs
  · rw [hskip]
    split at h
    · cases h
    · split at h
      · cases h
        exact .noItems ‹_›
      · obtain ⟨⟨items, after⟩, hitems, h⟩ := Option.map_eq_some_iff.1 h
        cases h
        exact .array hitems
  · rw [hskip]
    split at h
    · cases h
    · split at h
      · cases h
        exact .noMembers ‹_›
      · obtain ⟨⟨members, after⟩, hmembers, h⟩ := Option.map_eq_some_iff.1 h
        cases h
        exact .object hmembers
  · obtain ⟨⟨n, after⟩, hn, h⟩ := Option.map_eq_some_iff.1 h
    cases h
    exact .number hn

/-- Whether every value that is read in a number of steps is read from its own text. -/
def ReadsValues (fuel : Nat) : Prop :=
  ∀ {depth cs v rest}, readValue? fuel depth cs = some (v, rest) →
    ∃ t, cs = t ++ rest ∧ IsTextOf depth v t

/-- Whether all items that are read in a number of steps are read from their own text. -/
def ReadsAllItems (fuel : Nat) : Prop :=
  ∀ {depth cs items rest}, readItems? fuel depth cs = some (items, rest) →
    ∃ t, cs = t ++ rest ∧ AreItemsOf depth items t

/-- Whether all members that are read in a number of steps are written in their text. -/
def ReadsAllMembers (fuel : Nat) : Prop :=
  ∀ {depth cs members rest}, readMembers? fuel depth cs = some (members, rest) →
    ∃ t, cs = t ++ '}' :: rest ∧ AreMembers depth members t

theorem ReadsValues.succ (hi : ReadsAllItems fuel) (hm : ReadsAllMembers fuel) :
    ReadsValues (fuel + 1) := by
  intro depth cs v rest h
  have hstep := readsStep_of_readValue? h
  obtain ⟨gap, cs', hg, rfl, hskip⟩ := exists_gap cs
  rw [hskip] at hstep
  -- The blanks in front belong to the text; what is left begins with the value.
  suffices h : ∃ t, cs' = t ++ rest ∧ IsTextOf depth v t by
    obtain ⟨t, rfl, hv⟩ := h
    exact ⟨gap ++ t, (List.append_assoc ..).symm, hv.gap hg⟩
  clear hskip h
  cases hstep with
  | null => exact ⟨_, rfl, isTextOf_null⟩
  | true => exact ⟨_, rfl, isTextOf_true⟩
  | false => exact ⟨_, rfl, isTextOf_false⟩
  | text chars =>
    obtain ⟨t, ht, rfl⟩ := readString?_eq_some_iff.1 chars
    exact ⟨_, by simp, isTextOf_text ht⟩
  | @noItems _ cs _ close =>
    obtain ⟨gap', cs', hg', rfl, hskip⟩ := exists_gap cs
    obtain rfl := hskip.symm.trans close
    exact ⟨_, by simp, isTextOf_array_nil hg'⟩
  | array all =>
    obtain ⟨t, rfl, ht⟩ := hi all
    exact ⟨_, rfl, isTextOf_array ht⟩
  | @noMembers _ cs _ close =>
    obtain ⟨gap', cs', hg', rfl, hskip⟩ := exists_gap cs
    obtain rfl := hskip.symm.trans close
    exact ⟨_, by simp, isTextOf_object_nil hg'⟩
  | object all =>
    obtain ⟨t, rfl, ht⟩ := hm all
    exact ⟨_, by simp, isTextOf_object ht⟩
  | number digits =>
    obtain ⟨t, rfl, hc, ht⟩ := takes_readNumber? digits
    exact ⟨t, rfl, isTextOf_number hc ht⟩

theorem ReadsAllItems.succ (hv : ReadsValues fuel) (hi : ReadsAllItems fuel) :
    ReadsAllItems (fuel + 1) := by
  intro depth cs items rest h
  obtain ⟨⟨v, after⟩, hvalue, hmatch⟩ := Option.bind_eq_some_iff.1 h
  clear h
  obtain ⟨t, rfl, ht⟩ := hv hvalue
  obtain ⟨gap, cs', hg, rfl, hskip⟩ := exists_gap after
  simp only [hskip] at hmatch
  split at hmatch
  · obtain ⟨⟨items', rest'⟩, hmore, hdone⟩ := Option.bind_eq_some_iff.1 hmatch
    cases hdone
    obtain ⟨u, rfl, hu⟩ := hi hmore
    exact ⟨_, by simp, areItemsOf_cons ht hg hu⟩
  · cases hmatch
    exact ⟨_, by simp, areItemsOf_last ht hg⟩
  · cases hmatch

theorem ReadsAllMembers.succ (hv : ReadsValues fuel) (hm : ReadsAllMembers fuel) :
    ReadsAllMembers (fuel + 1) := by
  intro depth cs members rest h
  -- A name, a colon and a value, each with blanks before it; then a comma or the closing brace.
  obtain ⟨before, cs', hbefore, rfl, hopen⟩ := exists_gap cs
  rw [readMembers?, hopen] at h
  split at h
  · obtain ⟨⟨s, afterName⟩, hname, hcolon⟩ := Option.bind_eq_some_iff.1 h
    clear h
    obtain ⟨t, ht, rfl⟩ := readString?_eq_some_iff.1 hname
    obtain ⟨between, cs', hbetween, rfl, hskip⟩ := exists_gap afterName
    simp only [hskip] at hcolon
    split at hcolon
    · obtain ⟨⟨v, afterValue⟩, hvalue, hmatch⟩ := Option.bind_eq_some_iff.1 hcolon
      clear hcolon
      obtain ⟨u, rfl, hu⟩ := hv hvalue
      obtain ⟨gap, cs', hgap, rfl, hskip'⟩ := exists_gap afterValue
      have hmember := IsMember.member hbefore hbetween hgap ht hu
      simp only [hskip'] at hmatch
      split at hmatch
      · obtain ⟨⟨members', rest'⟩, hmore, hdone⟩ := Option.bind_eq_some_iff.1 hmatch
        cases hdone
        obtain ⟨w, rfl, hw⟩ := hm hmore
        exact ⟨_, by simp, .cons hmember hw⟩
      · cases hmatch
        exact ⟨_, by simp, .last hmember⟩
      · cases hmatch
    · cases hcolon
  · cases h

/-- Every value is read from its own text, in as many steps as it was. -/
theorem readsValues (fuel : Nat) :
    ReadsValues fuel ∧ ReadsAllItems fuel ∧ ReadsAllMembers fuel := by
  induction fuel with
  | zero => exact ⟨nofun, nofun, nofun⟩
  | succ fuel ih =>
    obtain ⟨hv, hi, hm⟩ := ih
    exact ⟨ReadsValues.succ hi hm, ReadsAllItems.succ hv hi, ReadsAllMembers.succ hv hm⟩

/-- **A value is read from its own text**, whatever comes behind it. -/
theorem readValue?_eq_some (h : readValue? fuel depth cs = some (v, rest)) :
    ∃ t, cs = t ++ rest ∧ IsTextOf depth v t :=
  (readsValues fuel).1 h

/-! ## Whole texts -/

theorem parse?_eq_some_iff_readValue? :
    parse? cs = some v ↔
      ∃ gap, IsGap gap ∧ readValue? (2 * cs.length + 2) deepest cs = some (v, gap) := by
  have hgap (gap : List Char) : skipSpace gap = [] ↔ IsGap gap := by
    rw [skipSpace, List.dropWhile_eq_nil_iff]
    rfl
  rw [parse?]
  simp only [Option.bind_eq_bind, Option.bind_eq_some_iff, Prod.exists]
  constructor
  · rintro ⟨value, rest, hread, h⟩
    split at h
    · cases h
      exact ⟨rest, (hgap rest).1 ‹_›, hread⟩
    · cases h
  · rintro ⟨gap, hg, hread⟩
    exact ⟨v, gap, hread, if_pos ((hgap gap).2 hg)⟩

/-- The texts of a value are its own, with blanks behind them. -/
theorem parse?_eq_some_iff :
    parse? cs = some v ↔ ∃ t gap, IsGap gap ∧ cs = t ++ gap ∧ IsTextOf deepest v t := by
  rw [parse?_eq_some_iff_readValue?]
  constructor
  · rintro ⟨gap, hg, hread⟩
    obtain ⟨t, rfl, ht⟩ := readValue?_eq_some hread
    exact ⟨t, gap, hg, rfl, ht⟩
  · rintro ⟨t, gap, hg, rfl, ht⟩
    have hs : Stops gap := by simpa using stops_nil.gap hg
    exact ⟨gap, hg, ht.2 _ (by rw [List.length_append]; omega) gap hs⟩

/-- The texts of an object with the members written in it, in their order, repeated ones
included. -/
inductive IsObjectText (depth : Nat) : List (String × Json) → List Char → Prop where
  | empty {before between after : List Char} (blank : IsGap before) (blank' : IsGap between)
      (blank'' : IsGap after) : IsObjectText depth [] (before ++ '{' :: (between ++ '}' :: after))
  | members {members : List (String × Json)} {before t after : List Char} (blank : IsGap before)
      (blank' : IsGap after) (all : AreMembers depth members t) :
      IsObjectText depth members (before ++ '{' :: (t ++ '}' :: after))

theorem isObject_of_readValue? {members : List (String × Json)}
    (h : readValue? (fuel + 1) (depth + 1) cs = some (object members, rest)) (hr : IsGap rest) :
    ∃ written, IsObjectText depth written cs ∧ members = ofMembers written := by
  have hstep := readsStep_of_readValue? h
  obtain ⟨before, cs', hbefore, rfl, hskip⟩ := exists_gap cs
  rw [hskip] at hstep
  clear hskip h
  cases hstep with
  | @noMembers _ cs _ close =>
    obtain ⟨between, cs', hbetween, rfl, hskip⟩ := exists_gap cs
    obtain rfl := hskip.symm.trans close
    exact ⟨[], .empty hbefore hbetween hr, rfl⟩
  | @object _ cs _ written all =>
    obtain ⟨t, rfl, ht⟩ := (readsValues fuel).2.2 all
    exact ⟨written, .members hbefore hr ht, rfl⟩

theorem IsObjectText.isTextOf {written : List (String × Json)} (h : IsObjectText depth written cs) :
    ∃ t gap, IsGap gap ∧ cs = t ++ gap ∧ IsTextOf (depth + 1) (object (ofMembers written)) t := by
  cases h with
  | empty hbefore hbetween hafter =>
    exact ⟨_, _, hafter, by simp, (isTextOf_object_nil hbetween).gap hbefore⟩
  | members hbefore hafter all =>
    exact ⟨_, _, hafter, by simp, (isTextOf_object all).gap hbefore⟩

/-- **An object is read from the members written in its text**: it holds the last of each name. -/
theorem parse?_eq_object_iff {members : List (String × Json)} :
    parse? cs = some (object members) ↔
      ∃ written, IsObjectText (deepest - 1) written cs ∧ members = ofMembers written := by
  constructor
  · rw [parse?_eq_some_iff_readValue?]
    rintro ⟨gap, hg, hread⟩
    exact isObject_of_readValue? hread hg
  · rintro ⟨written, h, rfl⟩
    exact parse?_eq_some_iff.2 h.isTextOf

end EviAssist.Json
