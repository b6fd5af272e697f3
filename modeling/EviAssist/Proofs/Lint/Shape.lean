import EviAssist.Lint.Shape
import Mathlib.Data.List.Forall2

/-!
# What the readers accept

Each reader of a shape succeeds on exactly certain values. Objects are given by their members and
arrays by their items; which fields an object may have besides is left open.

* `Shape.number_eq_ok_iff`, `Shape.flag_eq_ok_iff`, `Shape.severity_eq_ok_iff`: single values.
* `Shape.HasField`, `Shape.MayHaveField`: what an object holds under a name.
* `Shape.marker_eq_ok_iff`, `Shape.placeOfMembers_eq_ok_iff`, `Shape.note_eq_ok_iff`,
  `Shape.diagnostic_eq_ok_iff`, `Shape.signature_eq_ok_iff`: records.
-/

namespace EviAssist.Shape

/-! ## Readings one after another -/

section Readings

variable {ε α β : Type} {a : α} {b : β} {x : Except ε α}

theorem bind_eq_ok_iff {f : α → Except ε β} :
    x >>= f = .ok b ↔ ∃ a, x = .ok a ∧ f a = .ok b := by
  cases x with
  | error e => exact ⟨nofun, nofun⟩
  | ok a => exact ⟨fun h => ⟨a, rfl, h⟩, fun ⟨_, h, hf⟩ => by cases h; exact hf⟩

theorem map_eq_ok_iff {f : α → β} : f <$> x = .ok b ↔ ∃ a, x = .ok a ∧ f a = b := by
  cases x with
  | error e => exact ⟨nofun, nofun⟩
  | ok a =>
    refine ⟨fun h => ⟨a, rfl, Except.ok.inj h⟩, ?_⟩
    rintro ⟨_, ⟨⟩, rfl⟩
    rfl

theorem pure_eq_ok_iff {c : α} : (pure a : Except ε α) = .ok c ↔ a = c :=
  ⟨Except.ok.inj, congrArg _⟩

theorem mapM_eq_ok_iff {f : α → Except ε β} {as : List α} {bs : List β} :
    as.mapM f = .ok bs ↔ List.Forall₂ (fun a b => f a = .ok b) as bs := by
  induction as generalizing bs with
  | nil =>
    rw [List.mapM_nil, pure_eq_ok_iff, List.forall₂_nil_left_iff]
    exact eq_comm
  | cons a as ih =>
    simp only [List.mapM_cons, bind_eq_ok_iff, pure_eq_ok_iff, ih, List.forall₂_cons_left_iff]
    constructor
    · rintro ⟨b, hb, bs, hbs, rfl⟩
      exact ⟨b, bs, hb, hbs, rfl⟩
    · rintro ⟨b, bs, hb, hbs, rfl⟩
      exact ⟨b, hb, bs, hbs, rfl⟩

end Readings

/-! ## Single values -/

theorem text_eq_ok_iff {v : Json} {s : String} : text v = .ok s ↔ v = .text s := by
  constructor
  · cases v with
    | text t => exact fun h => congrArg _ (Except.ok.inj h)
    | _ => nofun
  · rintro rfl
    rfl

/-- A number is read from the number and from any text of it. -/
theorem number_eq_ok_iff {v : Json} {n : UInt32} :
    number v = .ok n ↔
      v = .nat n.toNat ∨ ∃ s, v = .text s ∧ Text.readUInt32? (Text.trim s.toList) = some n := by
  constructor
  · intro h
    unfold number at h
    split at h
    · split at h
      · cases h
        rename_i m hm
        rw [UInt32.toNat_ofNat_of_lt' hm]
        exact .inl rfl
      · cases h
    · split at h
      · cases h
        exact .inr ⟨_, rfl, ‹_›⟩
      · cases h
    · cases h
  · rintro (rfl | ⟨s, rfl, hs⟩)
    · rw [Json.nat, number, if_pos n.toNat_lt, UInt32.ofNat_toNat]
    · rw [number, hs]

/-- A flag is read from the boolean, from its text, and `false` from nothing. -/
theorem flag_eq_ok_iff {v : Json} {b : Bool} :
    flag v = .ok b ↔
      v = .bool b ∨ v = .text (if b then "true" else "false") ∨ b = false ∧ v = .null := by
  constructor
  · intro h
    unfold flag at h
    split at h <;> cases h <;> simp
  · rintro (rfl | rfl | ⟨rfl, rfl⟩)
    · rfl
    · cases b <;> rfl
    · rfl

theorem severityNamed_eq_ok_iff {name : String} {s : Severity} :
    severityNamed name = .ok s ↔ name = s.name := by
  unfold severityNamed
  constructor
  · intro h
    split at h
    · cases h
      rename_i hfind
      have hname := List.find?_some hfind
      exact (beq_iff_eq.1 hname).symm
    · cases h
  · rintro rfl
    cases s <;> rfl

/-- A severity is read from its name and from an object that holds nothing under its name. -/
theorem severity_eq_ok_iff {v : Json} {s : Severity} :
    severity v = .ok s ↔ v = .text s.name ∨ v = .object [(s.name, .null)] := by
  constructor
  · intro h
    unfold severity at h
    split at h
    · exact .inl (congrArg _ (severityNamed_eq_ok_iff.1 h))
    · obtain ⟨s', hs, h⟩ := bind_eq_ok_iff.1 h
      split at h
      · cases h
        exact .inr (by rw [severityNamed_eq_ok_iff.1 hs])
      · cases h
    · cases h
    · cases h
  · have hs := severityNamed_eq_ok_iff.2 (rfl : s.name = s.name)
    rintro (rfl | rfl)
    · exact hs
    · rw [severity, hs]
      rfl

theorem items_eq_ok_iff {v : Json} {vs : List Json} : items v = .ok vs ↔ v = .array vs := by
  constructor
  · cases v with
    | array ws => exact fun h => congrArg _ (Except.ok.inj h)
    | _ => nofun
  · rintro rfl
    rfl

theorem members_eq_ok_iff {v : Json} {ms : List (String × Json)} :
    members v = .ok ms ↔ v = .object ms := by
  constructor
  · cases v with
    | object _ => exact fun h => congrArg _ (Except.ok.inj h)
    | _ => nofun
  · rintro rfl
    rfl

theorem optionalItems_eq_ok_iff {v : Json} {found : Option (List Json)} :
    optionalItems v = .ok found ↔
      v = .null ∧ found = none ∨ ∃ vs, v = .array vs ∧ found = some vs := by
  constructor
  · intro h
    unfold optionalItems at h
    split at h
    · cases h
      exact .inl ⟨rfl, rfl⟩
    · obtain ⟨vs, hvs, rfl⟩ := map_eq_ok_iff.1 h
      exact .inr ⟨vs, items_eq_ok_iff.1 hvs, rfl⟩
  · rintro (⟨rfl, rfl⟩ | ⟨vs, rfl, rfl⟩) <;> rfl

theorem mapM_text_eq_ok_iff {vs : List Json} {ss : List String} :
    vs.mapM text = .ok ss ↔ vs = ss.map .text := by
  rw [mapM_eq_ok_iff]
  simp only [text_eq_ok_iff]
  induction ss generalizing vs with
  | nil => exact List.forall₂_nil_right_iff
  | cons s ss ih =>
    rw [List.forall₂_cons_right_iff]
    constructor
    · rintro ⟨v, vs, rfl, hvs, rfl⟩
      rw [ih.1 hvs]
      rfl
    · rintro rfl
      exact ⟨_, _, rfl, ih.2 rfl, rfl⟩

theorem optionalTexts_eq_ok_iff {v : Json} {found : Option (List String)} :
    optionalTexts v = .ok found ↔
      v = .null ∧ found = none ∨ ∃ ss, v = .array (ss.map .text) ∧ found = some ss := by
  constructor
  · intro h
    unfold optionalTexts at h
    split at h
    · cases h
      exact .inl ⟨rfl, rfl⟩
    · obtain ⟨vs, hvs, h⟩ := bind_eq_ok_iff.1 h
      obtain ⟨ss, hss, h⟩ := bind_eq_ok_iff.1 h
      cases h
      rw [items_eq_ok_iff.1 hvs, mapM_text_eq_ok_iff.1 hss]
      exact .inr ⟨ss, rfl, rfl⟩
  · rintro (⟨rfl, rfl⟩ | ⟨ss, rfl, rfl⟩)
    · rfl
    · simp only [optionalTexts, bind_eq_ok_iff, pure_eq_ok_iff]
      exact ⟨_, rfl, ss, mapM_text_eq_ok_iff.2 rfl, rfl⟩

/-! ## Fields -/

section Fields

variable {α : Type} {ms : List (String × Json)} {name : String} {read : Json → Reading α} {a : α}

/-- What an object holds under a name is read as `a`. -/
def HasField (ms : List (String × Json)) (name : String) (read : Json → Reading α) (a : α) : Prop :=
  ∃ v, Json.memberOf? name ms = some v ∧ read v = .ok a

/-- It is, or there is nothing under the name and `a` is the default. -/
def MayHaveField (ms : List (String × Json)) (name : String) (read : Json → Reading α)
    (default a : α) : Prop :=
  Json.memberOf? name ms = none ∧ a = default ∨ HasField ms name read a

theorem field?_eq_ok_iff {found : Option α} :
    field? ms name read = .ok found ↔
      Json.memberOf? name ms = none ∧ found = none ∨
        ∃ a, HasField ms name read a ∧ found = some a := by
  unfold field? HasField
  cases Json.memberOf? name ms with
  | none => simp [eq_comm]
  | some v =>
    rw [map_eq_ok_iff]
    simp [eq_comm]

theorem field?_eq_ok_some_iff : field? ms name read = .ok (some a) ↔ HasField ms name read a := by
  simp [field?_eq_ok_iff]

theorem require_eq_ok_iff {found : Option α} : require name found = .ok a ↔ found = some a := by
  cases found with
  | none => exact ⟨nofun, nofun⟩
  | some b => simp [require]

theorem field?_getD_iff {default : α} :
    (∃ found, field? ms name read = .ok found ∧ found.getD default = a) ↔
      MayHaveField ms name read default a := by
  simp only [field?_eq_ok_iff, MayHaveField]
  constructor
  · rintro ⟨_, ⟨hnone, rfl⟩ | ⟨b, hb, rfl⟩, rfl⟩
    · exact .inl ⟨hnone, rfl⟩
    · exact .inr hb
  · rintro (⟨hnone, rfl⟩ | ha)
    · exact ⟨none, .inl ⟨hnone, rfl⟩, rfl⟩
    · exact ⟨some a, .inr ⟨a, ha, rfl⟩, rfl⟩

theorem nextField_eq_ok_iff {wanted : String} {count : Nat} {vs rest : List Json} :
    nextField wanted count read vs = .ok (a, rest) ↔ ∃ v, vs = v :: rest ∧ read v = .ok a := by
  cases vs with
  | nil => simp [nextField]
  | cons v vs =>
    simp only [nextField, bind_eq_ok_iff, pure_eq_ok_iff, Prod.mk.injEq, List.cons.injEq]
    constructor
    · rintro ⟨a, ha, rfl, rfl⟩
      exact ⟨v, ⟨rfl, rfl⟩, ha⟩
    · rintro ⟨_, ⟨rfl, rfl⟩, ha⟩
      exact ⟨a, ha, rfl, rfl⟩

theorem nextFieldOr_eq_ok_iff {default : α} {vs rest : List Json} :
    nextFieldOr default read vs = .ok (a, rest) ↔
      vs = [] ∧ a = default ∧ rest = [] ∨ ∃ v, vs = v :: rest ∧ read v = .ok a := by
  cases vs with
  | nil => simp [nextFieldOr, eq_comm]
  | cons v vs =>
    simp only [nextFieldOr, bind_eq_ok_iff, pure_eq_ok_iff, Prod.mk.injEq, List.cons.injEq]
    constructor
    · rintro ⟨a, ha, rfl, rfl⟩
      exact .inr ⟨v, ⟨rfl, rfl⟩, ha⟩
    · rintro (⟨⟨⟩, -⟩ | ⟨_, ⟨rfl, rfl⟩, ha⟩)
      exact ⟨a, ha, rfl, rfl⟩

theorem atEnd_eq_ok_iff {length : Nat} {rest : List Json} {u : Unit} :
    atEnd length rest = .ok u ↔ rest = [] := by
  cases rest <;> simp [atEnd]

end Fields

/-! ## Records -/

variable {v : Json} {ms : List (String × Json)}

theorem marker_object {b : Bool} :
    marker (.object ms) = .ok b ↔ MayHaveField ms "invalid" flag false b := by
  rw [← field?_getD_iff, marker, bind_eq_ok_iff]
  simp only [pure_eq_ok_iff]

theorem marker_array {vs : List Json} {b : Bool} :
    marker (.array vs) = .ok b ↔ vs = [] ∧ b = false ∨ ∃ w, vs = [w] ∧ flag w = .ok b := by
  simp only [marker, bind_eq_ok_iff, pure_eq_ok_iff, Prod.exists, nextFieldOr_eq_ok_iff,
    atEnd_eq_ok_iff]
  constructor
  · rintro ⟨_, _, ⟨rfl, rfl, -⟩ | ⟨w, rfl, hw⟩, -, rfl, rfl⟩
    · exact .inl ⟨rfl, rfl⟩
    · exact .inr ⟨w, rfl, hw⟩
  · rintro (⟨rfl, rfl⟩ | ⟨w, rfl, hw⟩)
    · exact ⟨_, _, .inl ⟨rfl, rfl, rfl⟩, (), rfl, rfl⟩
    · exact ⟨_, _, .inr ⟨w, rfl, hw⟩, (), rfl, rfl⟩

theorem marker_eq_ok_iff {b : Bool} :
    marker v = .ok b ↔
      (∃ ms, v = .object ms ∧ MayHaveField ms "invalid" flag false b) ∨
        (∃ vs, v = .array vs ∧ (vs = [] ∧ b = false ∨ ∃ w, vs = [w] ∧ flag w = .ok b)) := by
  cases v with
  | object ms => simp [marker_object]
  | array vs => simp [marker_array]
  | _ => simp [marker]

theorem placeOfMembers_eq_ok_iff {p : SourcePosition} :
    placeOfMembers ms = .ok p ↔
      ∃ file line column length, HasField ms "file" text file ∧ HasField ms "line" number line ∧
        HasField ms "column" number column ∧ HasField ms "length" number length ∧
        p = .ofTool ⟨file⟩ line column length := by
  simp only [placeOfMembers, bind_eq_ok_iff, pure_eq_ok_iff, require_eq_ok_iff]
  constructor
  · rintro ⟨_, hcolumn, _, hfile, _, hlength, _, hline, file, rfl, line, rfl, column, rfl, length,
      rfl, rfl⟩
    simp only [field?_eq_ok_some_iff] at *
    exact ⟨file, line, column, length, hfile, hline, hcolumn, hlength, rfl⟩
  · rintro ⟨file, line, column, length, hfile, hline, hcolumn, hlength, rfl⟩
    simp only [← field?_eq_ok_some_iff] at *
    exact ⟨_, hcolumn, _, hfile, _, hlength, _, hline, _, rfl, _, rfl, _, rfl, _, rfl, rfl⟩

theorem length_of_place_array {vs : List Json} {p : SourcePosition}
    (h : place (.array vs) = .ok p) : vs.length = 4 := by
  simp only [place, bind_eq_ok_iff, Prod.exists, nextField_eq_ok_iff, atEnd_eq_ok_iff] at h
  obtain ⟨_, _, ⟨_, rfl, -⟩, _, _, ⟨_, rfl, -⟩, _, _, ⟨_, rfl, -⟩, _, _, ⟨_, rfl, -⟩, _, rfl, -⟩ :=
    h
  rfl

theorem note_object {n : RelatedNote} :
    note (.object ms) = .ok n ↔
      HasField ms "message" text n.message ∧ placeOfMembers ms = .ok n.position := by
  simp only [note, bind_eq_ok_iff, pure_eq_ok_iff, require_eq_ok_iff]
  constructor
  · rintro ⟨_, hmessage, message, rfl, p, hp, rfl⟩
    exact ⟨field?_eq_ok_some_iff.1 hmessage, hp⟩
  · rintro ⟨hmessage, hp⟩
    exact ⟨_, field?_eq_ok_some_iff.2 hmessage, _, rfl, _, hp, rfl⟩

/-- A list that an object holds under a name; nothing is the empty list. -/
def HoldsList (ms : List (String × Json)) (name : String) (vs : List Json) : Prop :=
  (Json.memberOf? name ms = none ∨ Json.memberOf? name ms = some .null) ∧ vs = [] ∨
    Json.memberOf? name ms = some (.array vs)

theorem field?_optionalItems_iff {name : String} {vs : List Json} :
    (∃ found, field? ms name optionalItems = .ok found ∧ (found.getD none).getD [] = vs) ↔
      HoldsList ms name vs := by
  simp only [field?_eq_ok_iff, HasField, optionalItems_eq_ok_iff, HoldsList]
  constructor
  · rintro ⟨_, ⟨hnone, rfl⟩ | ⟨_, ⟨_, hv, ⟨rfl, rfl⟩ | ⟨ws, rfl, rfl⟩⟩, rfl⟩, rfl⟩
    · exact .inl ⟨.inl hnone, rfl⟩
    · exact .inl ⟨.inr hv, rfl⟩
    · exact .inr hv
  · rintro (⟨hnone | hnull, rfl⟩ | hv)
    · exact ⟨none, .inl ⟨hnone, rfl⟩, rfl⟩
    · exact ⟨_, .inr ⟨none, ⟨_, hnull, .inl ⟨rfl, rfl⟩⟩, rfl⟩, rfl⟩
    · exact ⟨_, .inr ⟨some vs, ⟨_, hv, .inr ⟨vs, rfl, rfl⟩⟩, rfl⟩, rfl⟩

theorem field?_optionalTexts_iff {name : String} {ss : List String} :
    (∃ found, field? ms name optionalTexts = .ok found ∧ (found.getD none).getD [] = ss) ↔
      HoldsList ms name (ss.map .text) := by
  simp only [field?_eq_ok_iff, HasField, optionalTexts_eq_ok_iff, HoldsList]
  constructor
  · rintro ⟨_, ⟨hnone, rfl⟩ | ⟨_, ⟨_, hv, ⟨rfl, rfl⟩ | ⟨ws, rfl, rfl⟩⟩, rfl⟩, rfl⟩
    · exact .inl ⟨.inl hnone, rfl⟩
    · exact .inl ⟨.inr hv, rfl⟩
    · exact .inr hv
  · rintro (⟨hnone | hnull, hss⟩ | hv)
    · exact ⟨none, .inl ⟨hnone, rfl⟩, (List.map_eq_nil_iff.1 hss).symm⟩
    · exact ⟨_, .inr ⟨none, ⟨_, hnull, .inl ⟨rfl, rfl⟩⟩, rfl⟩, (List.map_eq_nil_iff.1 hss).symm⟩
    · exact ⟨_, .inr ⟨some ss, ⟨_, hv, .inr ⟨ss, rfl, rfl⟩⟩, rfl⟩, rfl⟩

theorem diagnostic_object {d : LintDiagnostic} {notes : List Json} :
    diagnostic (.object ms) = .ok (d, notes) ↔
      HasField ms "message" text d.message ∧ HoldsList ms "related" notes ∧
        HasField ms "type" severity d.severity ∧ placeOfMembers ms = .ok d.position ∧
        d.related = [] := by
  rw [← field?_optionalItems_iff]
  simp only [diagnostic, bind_eq_ok_iff, pure_eq_ok_iff, require_eq_ok_iff, Prod.mk.injEq]
  constructor
  · rintro ⟨_, hmessage, found, hrelated, _, hseverity, message, rfl, s, rfl, p, hp, rfl, hnotes⟩
    simp only [field?_eq_ok_some_iff] at hmessage hseverity
    exact ⟨hmessage, ⟨found, hrelated, hnotes⟩, hseverity, hp, rfl⟩
  · obtain ⟨position, message, s, related⟩ := d
    rintro ⟨hmessage, ⟨found, hrelated, hnotes⟩, hseverity, hp, rfl⟩
    simp only [← field?_eq_ok_some_iff] at hmessage hseverity
    exact ⟨_, hmessage, found, hrelated, _, hseverity, _, rfl, _, rfl, _, hp, rfl, hnotes⟩

theorem returnType_eq_ok_iff {s : String} :
    returnType ms = .ok (some s) ↔
      (Json.memberOf? "return type" ms = some (.text s) ∧ Json.memberOf? "return_type" ms = none) ∨
        (Json.memberOf? "return type" ms = none ∧
          Json.memberOf? "return_type" ms = some (.text s)) := by
  simp only [returnType, bind_eq_ok_iff, field?_eq_ok_iff, HasField, text_eq_ok_iff]
  cases Json.memberOf? "return type" ms with
  | none =>
    simp [field?_eq_ok_some_iff, HasField, text_eq_ok_iff]
  | some spaced =>
    cases Json.memberOf? "return_type" ms with
    | none => 
      simp [pure_eq_ok_iff]
    | some w => 
      simp

theorem signature_object {identifier : String} {f : FunctionSignature} :
    signature identifier (.object ms) = .ok f ↔
      f.identifier = identifier ∧ returnType ms = .ok (some f.returnType) ∧
        HoldsList ms "parameters" (f.parameters.map .text) ∧
        MayHaveField ms "variadic" flag false f.variadic := by
  rw [← field?_optionalTexts_iff, ← field?_getD_iff]
  simp only [signature, bind_eq_ok_iff, pure_eq_ok_iff, require_eq_ok_iff]
  constructor
  · rintro ⟨parameters, hparameters, _, hreturn, variadic, hvariadic, s, rfl, rfl⟩
    exact ⟨rfl, hreturn, ⟨_, hparameters, rfl⟩, ⟨_, hvariadic, rfl⟩⟩
  · obtain ⟨name, returnType, parameters, variadic⟩ := f
    rintro ⟨rfl, hreturn, ⟨found, hparameters, rfl⟩, ⟨found', hvariadic, rfl⟩⟩
    exact ⟨found, hparameters, _, hreturn, found', hvariadic, _, rfl, rfl⟩

/-- An array is read as the fields of a function in their order, of which the first must be
there. -/
theorem signature_array {identifier : String} {f : FunctionSignature} {vs : List Json} :
    signature identifier (.array vs) = .ok f ↔
      f.identifier = identifier ∧ ∃ rest, vs = .text f.returnType :: rest ∧
        (rest = [] ∧ f.parameters = [] ∧ f.variadic = false ∨
          ∃ found v rest', rest = v :: rest' ∧ optionalTexts v = .ok found ∧
            found.getD [] = f.parameters ∧
            (rest' = [] ∧ f.variadic = false ∨ ∃ w, rest' = [w] ∧ flag w = .ok f.variadic)) := by
  simp only [signature, bind_eq_ok_iff, Prod.exists, nextField_eq_ok_iff, nextFieldOr_eq_ok_iff,
    text_eq_ok_iff, atEnd_eq_ok_iff, pure_eq_ok_iff]
  constructor
  · rintro ⟨s, rest, ⟨_, rfl, rfl⟩, found, rest', hparameters, variadic, _, hvariadic, -, rfl, rfl⟩
    refine ⟨rfl, rest, rfl, ?_⟩
    rcases hparameters with ⟨rfl, rfl, rfl⟩ | ⟨v, rfl, hv⟩
    · rcases hvariadic with ⟨-, rfl, -⟩ | ⟨_, ⟨⟩, -⟩
      exact .inl ⟨rfl, rfl, rfl⟩
    · refine .inr ⟨found, v, rest', rfl, hv, rfl, ?_⟩
      rcases hvariadic with ⟨rfl, rfl, -⟩ | ⟨w, rfl, hw⟩
      · exact .inl ⟨rfl, rfl⟩
      · exact .inr ⟨w, rfl, hw⟩
  · obtain ⟨name, returnType, parameters, variadic⟩ := f
    rintro ⟨rfl, rest, rfl, ⟨rfl, rfl, rfl⟩ | ⟨found, v, rest', rfl, hv, rfl, hvariadic⟩⟩
    · exact ⟨_, _, ⟨_, rfl, rfl⟩, none, [], .inl ⟨rfl, rfl, rfl⟩, _, [], .inl ⟨rfl, rfl, rfl⟩, (),
        rfl, rfl⟩
    · refine ⟨_, _, ⟨_, rfl, rfl⟩, found, rest', .inr ⟨v, rfl, hv⟩, variadic, [], ?_, (), rfl, rfl⟩
      rcases hvariadic with ⟨rfl, rfl⟩ | ⟨w, rfl, hw⟩
      · exact .inl ⟨rfl, rfl, rfl⟩
      · exact .inr ⟨w, rfl, hw⟩

end EviAssist.Shape
