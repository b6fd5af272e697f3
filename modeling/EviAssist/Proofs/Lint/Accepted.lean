import EviAssist.Proofs.Lint.Decode
import EviAssist.Proofs.Text.Numeral

/-!
# Answers that are accepted

A text is accepted exactly when it is JSON of the shape of an answer, and every other text is
malformed output of the kind that was asked for. The shape is the documented one but for three
parts, each of which may also be written in a second form: an array in the place of an object, or an
object in the place of a name.

* `Forms`: how those three parts may be written; `Forms.documented` and `Forms.read`.
* `Forms.IsAnswer`: the shape of an answer.
* `Lint.decode_ok_iff_isAnswer`: which texts are accepted, and the error for the others.
-/

namespace EviAssist.Lint

open Shape

/-! ## Single values -/

/-- A text. -/
def IsText (v : Json) : Prop :=
  ∃ s, v = .text s

/-- Digits of a number of 32 bits, with or without a plus sign. -/
def IsNumeral (cs : List Char) : Prop :=
  ∃ digits, (cs = digits ∨ cs = '+' :: digits) ∧ digits ≠ [] ∧
    (∀ c ∈ digits, c.isDigit = true) ∧ Text.natOf digits 0 < UInt32.size

/-- A number of 32 bits, or its digits between blanks. -/
def IsNumber (v : Json) : Prop :=
  (∃ n < UInt32.size, v = .nat n) ∨ ∃ s, v = .text s ∧ IsNumeral (Text.trim s.toList)

/-- A flag that is set. -/
def SaysTrue (v : Json) : Prop :=
  v = .bool true ∨ v = .text "true"

/-- A flag that is not set. -/
def SaysFalse (v : Json) : Prop :=
  v = .bool false ∨ v = .text "false" ∨ v = .null

/-- An array of texts, or nothing. -/
def IsTexts (v : Json) : Prop :=
  v = .null ∨ ∃ vs, v = .array vs ∧ ∀ w ∈ vs, IsText w

/-! ## Records -/

/-- An object has a member of the given kind. -/
def Has (ms : List (String × Json)) (name : String) (is : Json → Prop) : Prop :=
  ∃ v, Json.memberOf? name ms = some v ∧ is v

/-- An object has no member of the name, or one of the given kind. -/
def MayHave (ms : List (String × Json)) (name : String) (is : Json → Prop) : Prop :=
  ∀ v, Json.memberOf? name ms = some v → is v

/-- The fields of a place. -/
def HasPlace (ms : List (String × Json)) : Prop :=
  Has ms "file" IsText ∧ Has ms "line" IsNumber ∧ Has ms "column" IsNumber ∧
    Has ms "length" IsNumber

/-- The fields of a function: the return type under exactly one of its two names. -/
def HasSignature (ms : List (String × Json)) : Prop :=
  (Has ms "return type" IsText ∧ Json.memberOf? "return_type" ms = none ∨
      Json.memberOf? "return type" ms = none ∧ Has ms "return_type" IsText) ∧
    MayHave ms "parameters" IsTexts ∧ MayHave ms "variadic" fun v => SaysTrue v ∨ SaysFalse v

/-- A note. -/
def IsNote (v : Json) : Prop :=
  ∃ ms, v = .object ms ∧ MayHave ms "invalid" SaysFalse ∧ Has ms "message" IsText ∧ HasPlace ms

/-! ## Answers -/

/-- How those parts of an answer may be written of which there is more than one form. -/
structure Forms where
  /-- A record that evi could not fill in. -/
  invalid : Json → Prop
  /-- A severity. -/
  severity : Json → Prop
  /-- A function. -/
  function : Json → Prop

namespace Forms

/-- The forms that are documented. -/
def documented : Forms where
  invalid v := ∃ ms, v = .object ms ∧ Has ms "invalid" SaysTrue
  severity v := ∃ s : Severity, v = .text s.name
  function v := ∃ ms, v = .object ms ∧ HasSignature ms

/-- The forms that are read. -/
def read : Forms where
  invalid v := documented.invalid v ∨ ∃ w, v = .array [w] ∧ SaysTrue w
  severity v := documented.severity v ∨ ∃ s : Severity, v = .object [(s.name, .null)]
  function v := documented.function v ∨ ∃ s rest, v = .array (.text s :: rest) ∧
    (rest = [] ∨ (∃ ps, rest = [ps] ∧ IsTexts ps) ∨
      ∃ ps f, rest = [ps, f] ∧ IsTexts ps ∧ (SaysTrue f ∨ SaysFalse f))

variable (forms : Forms)

/-- A list of notes, or nothing. -/
def IsNotes (v : Json) : Prop :=
  v = .null ∨ ∃ notes, v = .array notes ∧ ∀ note ∈ notes, forms.invalid note ∨ IsNote note

/-- A diagnostic. -/
def IsDiagnostic (v : Json) : Prop :=
  ∃ ms, v = .object ms ∧ MayHave ms "invalid" SaysFalse ∧ Has ms "message" IsText ∧
    Has ms "type" forms.severity ∧ HasPlace ms ∧ MayHave ms "related" forms.IsNotes

/-- The shape of an answer. -/
def IsAnswer : LintKind → Json → Prop
  | .declaration, v =>
    forms.invalid v ∨ v = .object [] ∨
      ∃ ms, v = .object ms ∧ MayHave ms "invalid" SaysFalse ∧ HasPlace ms
  | .diagnostics, v =>
    ∃ entries, v = .array entries ∧
      ∀ entry ∈ entries, forms.invalid entry ∨ forms.IsDiagnostic entry
  | .knownFunctions, v => ∃ ms, v = .object ms ∧ ∀ m ∈ ms, m.1 ≠ "" → forms.function m.2
  | .knownVariables, v => ∃ ms, v = .object ms ∧ ∀ m ∈ ms, IsText m.2

end Forms

/-! ## The other forms -/

/-- An array. -/
def IsArray (v : Json) : Prop :=
  ∃ vs, v = .array vs

/-- An object. -/
def IsObject (v : Json) : Prop :=
  ∃ ms, v = .object ms

/-- An entry of a list of diagnostics is an array, or it is not marked and its severity is an object
or one of its notes is an array. -/
def EntryDeparts (v : Json) : Prop :=
  IsArray v ∨ ∃ ms, v = .object ms ∧ ¬Has ms "invalid" SaysTrue ∧
    (Has ms "type" IsObject ∨
      Has ms "related" fun w => ∃ notes, w = .array notes ∧ ∃ note ∈ notes, IsArray note)

/-- An answer has a part that is not in its documented form. -/
def Departs : LintKind → Json → Prop
  | .declaration, v => IsArray v
  | .diagnostics, v => ∃ entries, v = .array entries ∧ ∃ entry ∈ entries, EntryDeparts entry
  | .knownFunctions, v => ∃ ms, v = .object ms ∧ ∃ m ∈ ms, m.1 ≠ "" ∧ IsArray m.2
  | .knownVariables, _ => False

/-! ## Readers of single values -/

theorem text_ok_iff {v : Json} : (∃ s, text v = .ok s) ↔ IsText v := by
  simp only [text_eq_ok_iff, IsText]

theorem number_ok_iff {v : Json} : (∃ n, number v = .ok n) ↔ IsNumber v := by
  simp only [number_eq_ok_iff, IsNumber]
  have hnumeral {cs : List Char} : (∃ n, Text.readUInt32? cs = some n) ↔ IsNumeral cs := by
    unfold Text.readUInt32? IsNumeral
    cases hcs : Text.readUnsigned? cs with
    | none =>
      refine ⟨nofun, fun ⟨digits, hds, hne, hall, _⟩ => ?_⟩
      rw [Text.readUnsigned?_eq_some_iff.2 ⟨digits, hds, hne, hall, rfl⟩] at hcs
      cases hcs
    | some n =>
      obtain ⟨digits, hds, hne, hall, hn⟩ := Text.readUnsigned?_eq_some_iff.1 hcs
      constructor
      · rintro ⟨m, hm⟩
        refine ⟨digits, hds, hne, hall, ?_⟩
        rw [hn]
        by_contra hlarge
        have hsize : ¬n < UInt32.size := hlarge
        simp only [if_neg hsize, reduceCtorEq] at hm
      · rintro ⟨digits', hds', hne', hall', hlt⟩
        have hn' := Text.readUnsigned?_eq_some_iff.2 ⟨digits', hds', hne', hall', rfl⟩
        rw [hcs, Option.some.injEq] at hn'
        have hsize : n < UInt32.size := hn' ▸ hlt
        exact ⟨UInt32.ofNat n, by simp only [if_pos hsize]⟩
  constructor
  · rintro ⟨n, rfl | ⟨s, rfl, hs⟩⟩
    · exact .inl ⟨n.toNat, n.toNat_lt, rfl⟩
    · exact .inr ⟨s, rfl, hnumeral.1 ⟨n, hs⟩⟩
  · rintro (⟨n, hn, rfl⟩ | ⟨s, rfl, hs⟩)
    · exact ⟨UInt32.ofNat n, .inl (by rw [UInt32.toNat_ofNat_of_lt' hn])⟩
    · obtain ⟨n, hn⟩ := hnumeral.2 hs
      exact ⟨n, .inr ⟨s, rfl, hn⟩⟩

theorem flag_true_iff {v : Json} : flag v = .ok true ↔ SaysTrue v := by
  simp [flag_eq_ok_iff, SaysTrue]

theorem flag_false_iff {v : Json} : flag v = .ok false ↔ SaysFalse v := by
  simp [flag_eq_ok_iff, SaysFalse]

theorem flag_ok_iff {v : Json} : (∃ b, flag v = .ok b) ↔ SaysTrue v ∨ SaysFalse v := by
  rw [← flag_true_iff, ← flag_false_iff, Bool.exists_bool, or_comm]

theorem severity_ok_iff {v : Json} : (∃ s, severity v = .ok s) ↔ Forms.read.severity v := by
  simp only [severity_eq_ok_iff, exists_or]
  rfl

/-! ## Readers of fields -/

section Fields

variable {α : Type} {ms : List (String × Json)} {name : String} {read : Json → Reading α}
  {is : Json → Prop}

theorem hasField_iff (h : ∀ v, (∃ a, read v = .ok a) ↔ is v) :
    (∃ a, HasField ms name read a) ↔ Has ms name is := by
  simp only [HasField, Has, ← h]
  constructor
  · rintro ⟨a, v, hv, ha⟩
    exact ⟨v, hv, a, ha⟩
  · rintro ⟨v, hv, a, ha⟩
    exact ⟨a, v, hv, ha⟩

theorem mayHaveField_iff {default : α} (h : ∀ v, (∃ a, read v = .ok a) ↔ is v) :
    (∃ a, MayHaveField ms name read default a) ↔ MayHave ms name is := by
  simp only [MayHaveField, exists_or, hasField_iff h, MayHave, Has]
  cases Json.memberOf? name ms with
  | none => simp
  | some v => simp

theorem holdsList_iff :
    (∃ vs, HoldsList ms name vs ∧ ∀ w ∈ vs, is w) ↔
      MayHave ms name fun v => v = .null ∨ ∃ vs, v = .array vs ∧ ∀ w ∈ vs, is w := by
  constructor
  · rintro ⟨vs, ⟨hnone | hnull, -⟩ | hlist, hvs⟩ v hv
    · cases hnone.symm.trans hv
    · cases hnull.symm.trans hv
      exact .inl rfl
    · cases hlist.symm.trans hv
      exact .inr ⟨vs, rfl, hvs⟩
  · intro h
    cases hv : Json.memberOf? name ms with
    | none => exact ⟨[], .inl ⟨.inl hv, rfl⟩, nofun⟩
    | some v =>
      obtain rfl | ⟨vs, rfl, hvs⟩ := h v hv
      · exact ⟨[], .inl ⟨.inr hv, rfl⟩, nofun⟩
      · exact ⟨vs, .inr hv, hvs⟩

theorem forall_isText_iff {vs : List Json} :
    (∀ w ∈ vs, IsText w) ↔ ∃ ss : List String, vs = ss.map .text := by
  constructor
  · intro h
    induction vs with
    | nil => exact ⟨[], rfl⟩
    | cons v vs ih =>
      obtain ⟨⟨s, rfl⟩, hvs⟩ := List.forall_mem_cons.1 h
      obtain ⟨ss, rfl⟩ := ih hvs
      exact ⟨s :: ss, rfl⟩
  · rintro ⟨ss, rfl⟩ w hw
    obtain ⟨s, -, rfl⟩ := List.mem_map.1 hw
    exact ⟨s, rfl⟩

theorem holdsTexts_iff :
    (∃ ss : List String, HoldsList ms name (ss.map .text)) ↔ MayHave ms name IsTexts := by
  refine Iff.trans ?_ holdsList_iff
  simp only [forall_isText_iff]
  constructor
  · rintro ⟨ss, hss⟩
    exact ⟨_, hss, ss, rfl⟩
  · rintro ⟨_, hss, ss, rfl⟩
    exact ⟨ss, hss⟩

end Fields

/-! ## Readers of records -/

theorem marker_true_iff {v : Json} : marker v = .ok true ↔ Forms.read.invalid v := by
  simp only [marker_eq_ok_iff, MayHaveField, HasField, flag_true_iff, reduceCtorEq, and_false,
    false_or]
  refine or_congr Iff.rfl ⟨?_, ?_⟩
  · rintro ⟨vs, rfl, w, rfl, hw⟩
    exact ⟨w, rfl, hw⟩
  · rintro ⟨w, rfl, hw⟩
    exact ⟨_, rfl, w, rfl, hw⟩

theorem marker_object_false_iff {ms : List (String × Json)} :
    marker (.object ms) = .ok false ↔ MayHave ms "invalid" SaysFalse := by
  simp only [marker_object, MayHaveField, HasField, flag_false_iff, MayHave, and_true]
  cases Json.memberOf? "invalid" ms with
  | none => simp
  | some v => simp

theorem placeOfMembers_ok_iff {ms : List (String × Json)} :
    (∃ p, placeOfMembers ms = .ok p) ↔ HasPlace ms := by
  simp only [placeOfMembers_eq_ok_iff, HasPlace, ← hasField_iff (fun _ => text_ok_iff),
    ← hasField_iff (fun _ => number_ok_iff)]
  constructor
  · rintro ⟨_, file, line, column, length, hfile, hline, hcolumn, hlength, -⟩
    exact ⟨⟨file, hfile⟩, ⟨line, hline⟩, ⟨column, hcolumn⟩, ⟨length, hlength⟩⟩
  · rintro ⟨⟨file, hfile⟩, ⟨line, hline⟩, ⟨column, hcolumn⟩, ⟨length, hlength⟩⟩
    exact ⟨_, file, line, column, length, hfile, hline, hcolumn, hlength, rfl⟩

theorem readNote_ok_iff {v : Json} :
    (marker v = .ok false ∧ ∃ n, readNote v = .ok n) ↔ IsNote v := by
  simp only [readNote_eq_ok_iff, IsNote, ← marker_object_false_iff, ← placeOfMembers_ok_iff,
    ← hasField_iff (fun _ => text_ok_iff)]
  constructor
  · rintro ⟨hmarker, n, ms, rfl, hmessage, hplace⟩
    exact ⟨ms, rfl, hmarker, ⟨_, hmessage⟩, _, hplace⟩
  · rintro ⟨ms, rfl, hmarker, ⟨message, hmessage⟩, p, hplace⟩
    exact ⟨hmarker, ⟨p, message⟩, ms, rfl, hmessage, hplace⟩

theorem exists_forall₂_iff {α β : Type} {r : α → β → Prop} {as : List α} :
    (∃ bs, List.Forall₂ r as bs) ↔ ∀ a ∈ as, ∃ b, r a b := by
  induction as with
  | nil => exact ⟨fun _ => nofun, fun _ => ⟨[], .nil⟩⟩
  | cons a as ih =>
    rw [List.forall_mem_cons]
    constructor
    · rintro ⟨_, _ | ⟨ha, has⟩⟩
      exact ⟨⟨_, ha⟩, ih.1 ⟨_, has⟩⟩
    · rintro ⟨⟨b, ha⟩, hall⟩
      obtain ⟨bs, has⟩ := ih.2 hall
      exact ⟨_, .cons ha has⟩

theorem readsEntries_iff {α : Type} {read : Json → Except Malformed α} {is : Json → Prop}
    (h : ∀ v, (marker v = .ok false ∧ ∃ a, read v = .ok a) ↔ is v) {items : List Json} :
    (∃ entries, List.Forall₂ (ReadsEntry read) items entries) ↔
      ∀ item ∈ items, Forms.read.invalid item ∨ is item := by
  have hentry (v : Json) : (∃ entry, ReadsEntry read v entry) ↔ Forms.read.invalid v ∨ is v := by
    rw [← marker_true_iff, ← h]
    constructor
    · rintro ⟨_ | a, hv⟩
      · exact .inl hv
      · exact .inr ⟨hv.1, a, hv.2⟩
    · rintro (hv | ⟨hv, a, ha⟩)
      · exact ⟨none, hv⟩
      · exact ⟨some a, hv, ha⟩
  simp only [exists_forall₂_iff, hentry]

theorem decodeDiagnostic_ok_iff {v : Json} :
    (marker v = .ok false ∧ ∃ d, decodeDiagnostic v = .ok d) ↔ Forms.read.IsDiagnostic v := by
  have hlist (ms : List (String × Json)) : MayHave ms "related" Forms.read.IsNotes ↔
      ∃ notes, HoldsList ms "related" notes ∧ ∀ n ∈ notes, Forms.read.invalid n ∨ IsNote n :=
    holdsList_iff.symm
  simp only [decodeDiagnostic_eq_ok_iff, Forms.IsDiagnostic, ← marker_object_false_iff,
    ← placeOfMembers_ok_iff, ← hasField_iff (fun _ => text_ok_iff),
    ← hasField_iff (fun _ => severity_ok_iff), hlist]
  constructor
  · rintro ⟨hmarker, d, ms, notes, entries, rfl, hmessage, hseverity, hplace, hnotes, hentries, -⟩
    exact ⟨ms, rfl, hmarker, ⟨_, hmessage⟩, ⟨_, hseverity⟩, ⟨_, hplace⟩, notes, hnotes,
      (readsEntries_iff fun _ => readNote_ok_iff).1 ⟨entries, hentries⟩⟩
  · rintro ⟨ms, rfl, hmarker, ⟨message, hmessage⟩, ⟨s, hseverity⟩, ⟨p, hplace⟩, notes, hnotes, hall⟩
    obtain ⟨entries, hentries⟩ := (readsEntries_iff fun _ => readNote_ok_iff).2 hall
    exact ⟨hmarker, ⟨p, message, s, entries.reduceOption⟩, ms, notes, entries, rfl, hmessage,
      hseverity, hplace, hnotes, hentries, rfl⟩

theorem optionalTexts_ok_iff {v : Json} : (∃ found, optionalTexts v = .ok found) ↔ IsTexts v := by
  simp only [optionalTexts_eq_ok_iff, IsTexts, forall_isText_iff]
  constructor
  · rintro ⟨_, ⟨rfl, -⟩ | ⟨ss, rfl, -⟩⟩
    · exact .inl rfl
    · exact .inr ⟨_, rfl, ss, rfl⟩
  · rintro (rfl | ⟨_, rfl, ss, rfl⟩)
    · exact ⟨none, .inl ⟨rfl, rfl⟩⟩
    · exact ⟨some ss, .inr ⟨ss, rfl, rfl⟩⟩

theorem returnType_ok_iff {ms : List (String × Json)} :
    (∃ s, returnType ms = .ok (some s)) ↔
      (Has ms "return type" IsText ∧ Json.memberOf? "return_type" ms = none ∨
        Json.memberOf? "return type" ms = none ∧ Has ms "return_type" IsText) := by
  have htext (name : String) :
      Has ms name IsText ↔ ∃ s, Json.memberOf? name ms = some (.text s) := by
    constructor
    · rintro ⟨_, hv, s, rfl⟩
      exact ⟨s, hv⟩
    · rintro ⟨s, hs⟩
      exact ⟨_, hs, s, rfl⟩
  simp only [returnType_eq_ok_iff, exists_or, exists_and_left, exists_and_right, htext]

theorem signature_ok_iff {identifier : String} {v : Json} :
    (∃ f, signature identifier v = .ok f) ↔ Forms.read.function v := by
  have hobject {ms : List (String × Json)} :
      (∃ f, signature identifier (.object ms) = .ok f) ↔ HasSignature ms := by
    have hflag : (∃ b, MayHaveField ms "variadic" flag false b) ↔
        MayHave ms "variadic" fun v => SaysTrue v ∨ SaysFalse v :=
      mayHaveField_iff fun _ => flag_ok_iff
    simp only [signature_object, HasSignature, ← returnType_ok_iff, ← holdsTexts_iff, ← hflag]
    constructor
    · rintro ⟨f, -, hreturn, hparameters, hvariadic⟩
      exact ⟨⟨_, hreturn⟩, ⟨_, hparameters⟩, _, hvariadic⟩
    · rintro ⟨⟨s, hreturn⟩, ⟨ss, hparameters⟩, b, hvariadic⟩
      exact ⟨⟨identifier, s, ss, b⟩, rfl, hreturn, hparameters, hvariadic⟩
  have harray {vs : List Json} :
      (∃ f, signature identifier (.array vs) = .ok f) ↔ ∃ s rest, vs = .text s :: rest ∧
        (rest = [] ∨ (∃ ps, rest = [ps] ∧ IsTexts ps) ∨
          ∃ ps f, rest = [ps, f] ∧ IsTexts ps ∧ (SaysTrue f ∨ SaysFalse f)) := by
    simp only [signature_array, ← optionalTexts_ok_iff, ← flag_ok_iff]
    constructor
    · rintro ⟨f, -, rest, rfl, ⟨rfl, -, -⟩ | ⟨found, v, rest', rfl, hv, -, ⟨rfl, -⟩ | ⟨w, rfl, hw⟩⟩⟩
      · exact ⟨_, _, rfl, .inl rfl⟩
      · exact ⟨_, _, rfl, .inr (.inl ⟨v, rfl, found, hv⟩)⟩
      · exact ⟨_, _, rfl, .inr (.inr ⟨v, w, rfl, ⟨found, hv⟩, _, hw⟩)⟩
    · rintro ⟨s, _, rfl, rfl | ⟨ps, rfl, found, hps⟩ | ⟨ps, w, rfl, ⟨found, hps⟩, b, hw⟩⟩
      · exact ⟨⟨identifier, s, [], false⟩, rfl, [], rfl, .inl ⟨rfl, rfl, rfl⟩⟩
      · exact ⟨⟨identifier, s, found.getD [], false⟩, rfl, _, rfl,
          .inr ⟨found, ps, [], rfl, hps, rfl, .inl ⟨rfl, rfl⟩⟩⟩
      · exact ⟨⟨identifier, s, found.getD [], b⟩, rfl, _, rfl,
          .inr ⟨found, ps, _, rfl, hps, rfl, .inr ⟨w, rfl, hw⟩⟩⟩
  cases v with
  | object ms => simp [hobject, Forms.read, Forms.documented]
  | array vs => simp only [harray, Forms.read, Forms.documented, reduceCtorEq, false_and,
      exists_false, false_or, Json.array.injEq]
  | _ => simp [signature, Forms.read, Forms.documented]

/-! ## Answers -/

theorem decodeDeclaration_ok_iff {v : Json} :
    (∃ found, decodeDeclaration v = .ok found) ↔ Forms.read.IsAnswer .declaration v := by
  simp only [decodeDeclaration_eq_ok_iff, Forms.IsAnswer, ← marker_true_iff,
    ← marker_object_false_iff, ← placeOfMembers_ok_iff]
  constructor
  · rintro ⟨_, ⟨hmarker, -⟩ | ⟨hmarker, ⟨rfl, -⟩ | ⟨hne, p, hp, -⟩⟩⟩
    · exact .inl hmarker
    · exact .inr (.inl rfl)
    · cases v with
      | object ms => exact .inr (.inr ⟨ms, rfl, hmarker, p, hp⟩)
      | array vs =>
        have hlength := length_of_place_array hp
        rcases marker_array.1 hmarker with ⟨rfl, -⟩ | ⟨w, rfl, -⟩ <;> cases hlength
      | _ => cases hmarker
  · rintro (hmarker | rfl | ⟨ms, rfl, hmarker, p, hp⟩)
    · exact ⟨none, .inl ⟨hmarker, rfl⟩⟩
    · exact ⟨none, .inr ⟨rfl, .inl ⟨rfl, rfl⟩⟩⟩
    · refine ⟨some p, .inr ⟨hmarker, .inr ⟨?_, p, hp, rfl⟩⟩⟩
      rintro ⟨⟩
      cases hp

theorem decodeDiagnostics_ok_iff {v : Json} :
    (∃ found, decodeDiagnostics v = .ok found) ↔ Forms.read.IsAnswer .diagnostics v := by
  simp only [decodeDiagnostics_eq_ok_iff, Forms.IsAnswer,
    ← readsEntries_iff (fun _ => decodeDiagnostic_ok_iff)]
  constructor
  · rintro ⟨_, items, entries, rfl, hentries, -⟩
    exact ⟨items, rfl, entries, hentries⟩
  · rintro ⟨items, rfl, entries, hentries⟩
    exact ⟨_, items, entries, rfl, hentries, rfl⟩

theorem decodeFunctions_ok_iff {v : Json} :
    (∃ found, decodeFunctions v = .ok found) ↔ Forms.read.IsAnswer .knownFunctions v := by
  simp only [decodeFunctions_eq_ok_iff, Forms.IsAnswer]
  rw [exists_comm]
  simp only [exists_and_left, exists_forall₂_iff, signature_ok_iff, List.mem_filter,
    decide_eq_true_eq, and_imp]

theorem decodeVariables_ok_iff {v : Json} :
    (∃ found, decodeVariables v = .ok found) ↔ Forms.read.IsAnswer .knownVariables v := by
  have hentry (m : String × Json) :
      (∃ x : Variable, x.identifier = m.1 ∧ m.2 = .text x.typeName) ↔ IsText m.2 := by
    constructor
    · rintro ⟨x, -, hx⟩
      exact ⟨_, hx⟩
    · rintro ⟨s, hs⟩
      exact ⟨⟨m.1, s⟩, rfl, hs⟩
  simp only [decodeVariables_eq_ok_iff, Forms.IsAnswer, ← hentry, ← exists_forall₂_iff]
  constructor
  · rintro ⟨_, ms, all, rfl, hall, -⟩
    exact ⟨ms, rfl, all, hall⟩
  · rintro ⟨ms, rfl, all, hall⟩
    exact ⟨_, ms, all, rfl, hall, rfl⟩

theorem decodeValue_ok_iff {kind : LintKind} {v : Json} :
    (∃ r, decodeValue kind v = .ok r) ↔ Forms.read.IsAnswer kind v := by
  cases kind with
  | declaration =>
    rw [← decodeDeclaration_ok_iff]
    simp [decodeValue, map_eq_ok_iff]
  | diagnostics =>
    rw [← decodeDiagnostics_ok_iff]
    simp [decodeValue, map_eq_ok_iff]
  | knownFunctions =>
    rw [← decodeFunctions_ok_iff]
    simp [decodeValue, map_eq_ok_iff]
  | knownVariables =>
    rw [← decodeVariables_ok_iff]
    simp [decodeValue, map_eq_ok_iff]

/-! ## Departures from the documented forms -/

theorem not_isArray_object {ms : List (String × Json)} : ¬IsArray (.object ms) :=
  nofun

theorem documented_invalid_iff {v : Json} (h : Forms.read.invalid v) :
    Forms.documented.invalid v ↔ ¬IsArray v := by
  rcases h with h | ⟨w, rfl, -⟩
  · obtain ⟨ms, rfl, hm⟩ := h
    exact ⟨fun _ => not_isArray_object, fun _ => ⟨ms, rfl, hm⟩⟩
  · exact ⟨nofun, fun hn => absurd ⟨_, rfl⟩ hn⟩

theorem documented_severity_iff {v : Json} (h : Forms.read.severity v) :
    Forms.documented.severity v ↔ ¬IsObject v := by
  rcases h with ⟨s, rfl⟩ | ⟨s, rfl⟩
  · exact ⟨fun _ => nofun, fun _ => ⟨s, rfl⟩⟩
  · exact ⟨nofun, fun hn => absurd ⟨_, rfl⟩ hn⟩

theorem documented_function_iff {v : Json} (h : Forms.read.function v) :
    Forms.documented.function v ↔ ¬IsArray v := by
  rcases h with h | ⟨s, rest, rfl, -⟩
  · obtain ⟨ms, rfl, hm⟩ := h
    exact ⟨fun _ => not_isArray_object, fun _ => ⟨ms, rfl, hm⟩⟩
  · exact ⟨nofun, fun hn => absurd ⟨_, rfl⟩ hn⟩

theorem documented_isNotes_iff {v : Json} (h : Forms.read.IsNotes v) :
    Forms.documented.IsNotes v ↔ ¬∃ notes, v = .array notes ∧ ∃ note ∈ notes, IsArray note := by
  rcases h with rfl | ⟨notes, rfl, hnotes⟩
  · exact ⟨fun _ => nofun, fun _ => .inl rfl⟩
  · constructor
    · rintro (⟨⟨⟩⟩ | ⟨_, ⟨⟩, hall⟩) ⟨_, ⟨⟩, note, hnote, vs, rfl⟩
      rcases hall _ hnote with ⟨_, ⟨⟩, -⟩ | ⟨_, ⟨⟩, -⟩
    · intro hn
      refine .inr ⟨notes, rfl, fun note hnote => (hnotes note hnote).imp_left fun hinvalid => ?_⟩
      exact (documented_invalid_iff hinvalid).2 fun harray => hn ⟨notes, rfl, note, hnote, harray⟩

theorem not_says_both {v : Json} (ht : SaysTrue v) : ¬SaysFalse v := by
  rcases ht with rfl | rfl <;> simp [SaysFalse]

theorem documented_entry_iff {v : Json}
    (h : Forms.read.invalid v ∨ Forms.read.IsDiagnostic v) :
    Forms.documented.invalid v ∨ Forms.documented.IsDiagnostic v ↔ ¬EntryDeparts v := by
  constructor
  · rintro (⟨ms, rfl, hm⟩ | ⟨ms, rfl, hinvalid, hmessage, htype, hplace, hrelated⟩)
    · rintro (⟨_, ⟨⟩⟩ | ⟨_, ⟨⟩, hn, -⟩)
      exact hn hm
    · rintro (⟨_, ⟨⟩⟩ | ⟨_, ⟨⟩, -, ⟨w, hw, os, rfl⟩ | ⟨w, hw, hnotes⟩⟩)
      · obtain ⟨_, hw', s, rfl⟩ := htype
        cases hw.symm.trans hw'
      · have hdoc := hrelated w hw
        have hread : Forms.read.IsNotes w := by
          refine hdoc.imp_right ?_
          rintro ⟨notes, rfl, hall⟩
          exact ⟨notes, rfl, fun note hnote => (hall note hnote).imp_left .inl⟩
        exact (documented_isNotes_iff hread).1 hdoc hnotes
  · intro hn
    rcases h with h | ⟨ms, rfl, hinvalid, hmessage, ⟨w, hw, hseverity⟩, hplace, hrelated⟩
    · exact .inl ((documented_invalid_iff h).2 fun harray => hn (.inl harray))
    · have hunmarked : ¬Has ms "invalid" SaysTrue := by
        rintro ⟨mark, hmark, ht⟩
        exact not_says_both ht (hinvalid mark hmark)
      refine .inr ⟨ms, rfl, hinvalid, hmessage, ⟨w, hw, ?_⟩, hplace, fun notes hnotes => ?_⟩
      · exact (documented_severity_iff hseverity).2 fun hobject =>
          hn (.inr ⟨ms, rfl, hunmarked, .inl ⟨w, hw, hobject⟩⟩)
      · exact (documented_isNotes_iff (hrelated notes hnotes)).2 fun harray =>
          hn (.inr ⟨ms, rfl, hunmarked, .inr ⟨notes, hnotes, harray⟩⟩)

theorem documented_isAnswer_iff {kind : LintKind} {v : Json} (h : Forms.read.IsAnswer kind v) :
    Forms.documented.IsAnswer kind v ↔ ¬Departs kind v := by
  cases kind with
  | declaration =>
    rcases h with h | rfl | ⟨ms, rfl, h⟩
    · refine Iff.trans ⟨?_, .inl⟩ (documented_invalid_iff h)
      rintro (hdoc | rfl | ⟨ms, rfl, -⟩)
      · exact hdoc
      · exact (documented_invalid_iff h).2 not_isArray_object
      · exact (documented_invalid_iff h).2 not_isArray_object
    · exact ⟨fun _ => not_isArray_object, fun _ => .inr (.inl rfl)⟩
    · exact ⟨fun _ => not_isArray_object, fun _ => .inr (.inr ⟨ms, rfl, h⟩)⟩
  | diagnostics =>
    obtain ⟨entries, rfl, hall⟩ := h
    constructor
    · rintro ⟨_, ⟨⟩, hdoc⟩ ⟨_, ⟨⟩, entry, hentry, hdeparts⟩
      exact (documented_entry_iff (hall entry hentry)).1 (hdoc entry hentry) hdeparts
    · intro hn
      exact ⟨entries, rfl, fun entry hentry => (documented_entry_iff (hall entry hentry)).2
        fun hdeparts => hn ⟨entries, rfl, entry, hentry, hdeparts⟩⟩
  | knownFunctions =>
    obtain ⟨ms, rfl, hall⟩ := h
    constructor
    · rintro ⟨_, ⟨⟩, hdoc⟩ ⟨_, ⟨⟩, m, hm, hname, harray⟩
      exact (documented_function_iff (hall m hm hname)).1 (hdoc m hm hname) harray
    · intro hn
      exact ⟨ms, rfl, fun m hm hname => (documented_function_iff (hall m hm hname)).2
        fun harray => hn ⟨ms, rfl, m, hm, hname, harray⟩⟩
  | knownVariables => exact ⟨fun _ => not_false, fun _ => h⟩

/-! ## Texts -/

theorem decode_ok_iff {kind : LintKind} {stdout : String} :
    (∃ r, decode kind stdout = .ok r) ↔
      ∃ v, Json.parse? (Text.trim stdout.toList) = some v ∧ Forms.read.IsAnswer kind v := by
  unfold decode
  cases Json.parse? (Text.trim stdout.toList) with
  | none => exact ⟨nofun, nofun⟩
  | some v =>
    simp only [Option.some.injEq, exists_eq_left', ← decodeValue_ok_iff]
    cases decodeValue kind v with
    | error reason => exact ⟨nofun, nofun⟩
    | ok r => exact ⟨fun _ => ⟨r, rfl⟩, fun _ => ⟨r, rfl⟩⟩

theorem eq_malformedOutput_of_decode {kind : LintKind} {stdout : String} {e : LintError}
    (h : decode kind stdout = .error e) : ∃ reason, e = .malformedOutput kind reason := by
  unfold decode at h
  split at h
  · exact ⟨_, (Except.error.inj h).symm⟩
  · rename_i v hv
    cases hd : decodeValue kind v with
    | error reason =>
      rw [hd] at h
      exact ⟨_, (Except.error.inj h).symm⟩
    | ok r =>
      rw [hd] at h
      cases h

/-- **A text is accepted exactly when it is JSON of the shape of an answer, in the forms that are
read**; these are the documented ones but for the parts that `Departs` tells. Every other text is
malformed output of the kind that was asked for. -/
theorem decode_ok_iff_isAnswer (kind : LintKind) (stdout : String) :
    ((∃ r, decode kind stdout = .ok r) ↔
        ∃ v, Json.parse? (Text.trim stdout.toList) = some v ∧ Forms.read.IsAnswer kind v) ∧
      (∀ v, Forms.read.IsAnswer kind v → (Forms.documented.IsAnswer kind v ↔ ¬Departs kind v)) ∧
      ∀ e, decode kind stdout = .error e → ∃ reason, e = .malformedOutput kind reason :=
  ⟨decode_ok_iff, fun _ => documented_isAnswer_iff, fun _ => eq_malformedOutput_of_decode⟩

/-- An array with a flag passes for a declaration that was not found. -/
theorem decode_marked_array :
    decode .declaration "[true]" = .ok (.declaration none) ∧
      Json.parse? (Text.trim "[true]".toList) = some (.array [.bool true]) ∧
      ¬Forms.documented.IsAnswer .declaration (.array [.bool true]) := by
  have hdecode : decode .declaration "[true]" = .ok (.declaration none) := by rfl
  have hparse : Json.parse? (Text.trim "[true]".toList) = some (.array [.bool true]) := by rfl
  obtain ⟨hok, hforms, -⟩ := decode_ok_iff_isAnswer .declaration "[true]"
  obtain ⟨v, hv, hread⟩ := hok.1 ⟨_, hdecode⟩
  cases hparse.symm.trans hv
  exact ⟨hdecode, hparse, fun hdoc => (hforms _ hread).1 hdoc ⟨_, rfl⟩⟩

end EviAssist.Lint
