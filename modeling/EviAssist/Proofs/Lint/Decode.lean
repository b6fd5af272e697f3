import EviAssist.Lint.Decode
import EviAssist.Proofs.Lint.Shape
import Mathlib.Data.List.ReduceOption

/-!
# What the decoders accept

Each decoder succeeds on exactly certain JSON values; this is said in terms of the readers of the
parts.

* `Lint.validEntries_eq_ok_iff`: a list in which some entries are marked as invalid.
* `Lint.decodeDeclaration_eq_ok_iff`, `Lint.decodeDiagnostics_eq_ok_iff`,
  `Lint.decodeFunctions_eq_ok_iff`, `Lint.decodeVariables_eq_ok_iff`: the answers of each kind.
-/

namespace EviAssist.Lint

open Shape

variable {v : Json}

theorem inPart_eq_ok_iff {α : Type} {part : String} {reading : Reading α} {a : α} :
    inPart part reading = .ok a ↔ reading = .ok a := by
  cases reading with
  | error e => exact ⟨nofun, nofun⟩
  | ok b => exact ⟨fun h => congrArg _ (Except.ok.inj h), fun h => congrArg _ (Except.ok.inj h)⟩

/-! ## Declarations -/

theorem decodeDeclaration_eq_ok_iff {found : Option SourcePosition} :
    decodeDeclaration v = .ok found ↔
      marker v = .ok true ∧ found = none ∨
        marker v = .ok false ∧
          (v = .object [] ∧ found = none ∨
            v ≠ .object [] ∧ ∃ p, place v = .ok p ∧ found = some p) := by
  simp only [decodeDeclaration, bind_eq_ok_iff, inPart_eq_ok_iff]
  constructor
  · rintro ⟨isInvalid, hmarker, h⟩
    cases isInvalid with
    | true => exact .inl ⟨hmarker, (Except.ok.inj h).symm⟩
    | false =>
      refine .inr ⟨hmarker, ?_⟩
      simp only [Bool.false_eq_true, if_false] at h
      split at h
      · exact .inl ⟨rfl, (Except.ok.inj h).symm⟩
      · obtain ⟨p, hp, h⟩ := bind_eq_ok_iff.1 h
        exact .inr ⟨‹_›, p, inPart_eq_ok_iff.1 hp, (Except.ok.inj h).symm⟩
  · rintro (⟨hmarker, rfl⟩ | ⟨hmarker, ⟨rfl, rfl⟩ | ⟨hne, p, hp, rfl⟩⟩)
    · exact ⟨true, hmarker, rfl⟩
    · exact ⟨false, hmarker, rfl⟩
    · refine ⟨false, hmarker, ?_⟩
      simp only [Bool.false_eq_true, if_false]
      exact bind_eq_ok_iff.2 ⟨p, inPart_eq_ok_iff.2 hp, rfl⟩

/-! ## Lists -/

/-- What an entry is read as: nothing when it is marked as invalid. -/
def ReadsEntry {α : Type} (read : Json → Except Malformed α) (v : Json) : Option α → Prop
  | none => marker v = .ok true
  | some a => marker v = .ok false ∧ read v = .ok a

theorem validEntries_eq_ok_iff {α : Type} {part : String} {read : Json → Except Malformed α}
    {items : List Json} {found : List α} :
    validEntries part read items = .ok found ↔
      ∃ entries, List.Forall₂ (ReadsEntry read) items entries ∧ found = entries.reduceOption := by
  induction items generalizing found with
  | nil =>
    simp only [validEntries, List.forall₂_nil_left_iff, exists_eq_left, Except.ok.injEq]
    exact eq_comm
  | cons item items ih =>
    simp only [validEntries, bind_eq_ok_iff, inPart_eq_ok_iff]
    constructor
    · rintro ⟨isInvalid, hmarker, h⟩
      cases isInvalid with
      | true =>
        obtain ⟨entries, hentries, rfl⟩ := ih.1 h
        exact ⟨none :: entries, .cons hmarker hentries, rfl⟩
      | false =>
        simp only [Bool.false_eq_true, if_false, bind_eq_ok_iff, pure_eq_ok_iff] at h
        obtain ⟨a, ha, rest, hrest, rfl⟩ := h
        obtain ⟨entries, hentries, rfl⟩ := ih.1 hrest
        exact ⟨some a :: entries, .cons ⟨hmarker, ha⟩ hentries, rfl⟩
    · rintro ⟨_, _ | ⟨hentry, hentries⟩, rfl⟩
      rename_i entry entries
      have hrest := ih.2 ⟨entries, hentries, rfl⟩
      cases entry with
      | none => exact ⟨true, hentry, hrest⟩
      | some a =>
        refine ⟨false, hentry.1, ?_⟩
        simp only [Bool.false_eq_true, if_false, bind_eq_ok_iff, pure_eq_ok_iff]
        exact ⟨a, hentry.2, _, hrest, rfl⟩

/-- What a note is read as. -/
def readNote (v : Json) : Except Malformed RelatedNote :=
  inPart "a related note" (note v)

theorem readNote_eq_ok_iff {n : RelatedNote} :
    readNote v = .ok n ↔
      ∃ ms, v = .object ms ∧ HasField ms "message" text n.message ∧
        placeOfMembers ms = .ok n.position := by
  rw [readNote, inPart_eq_ok_iff]
  cases v with
  | object ms => simp [note_object]
  | _ => simp [note]

theorem decodeDiagnostic_eq_ok_iff {d : LintDiagnostic} :
    decodeDiagnostic v = .ok d ↔
      ∃ ms notes entries, v = .object ms ∧ HasField ms "message" text d.message ∧
        HasField ms "type" severity d.severity ∧ placeOfMembers ms = .ok d.position ∧
        HoldsList ms "related" notes ∧ List.Forall₂ (ReadsEntry readNote) notes entries ∧
        d.related = entries.reduceOption := by
  have hread : decodeDiagnostic v = .ok d ↔
      ∃ d' notes, diagnostic v = .ok (d', notes) ∧
        ∃ related, validEntries "a related note" readNote notes = .ok related ∧
          { d' with related } = d := by
    simp only [decodeDiagnostic, bind_eq_ok_iff, inPart_eq_ok_iff, Prod.exists, pure_eq_ok_iff]
    rfl
  rw [hread]
  simp only [validEntries_eq_ok_iff]
  constructor
  · rintro ⟨d', notes, hd, _, ⟨entries, hentries, rfl⟩, rfl⟩
    cases v with
    | object ms =>
      obtain ⟨hmessage, hnotes, hseverity, hposition, -⟩ := diagnostic_object.1 hd
      exact ⟨ms, notes, entries, rfl, hmessage, hseverity, hposition, hnotes, hentries, rfl⟩
    | _ => cases hd
  · rintro ⟨ms, notes, entries, rfl, hmessage, hseverity, hposition, hnotes, hentries, hrelated⟩
    refine ⟨{ d with related := [] }, notes, ?_, _, ⟨entries, hentries, rfl⟩, ?_⟩
    · exact diagnostic_object.2 ⟨hmessage, hnotes, hseverity, hposition, rfl⟩
    · rw [← hrelated]

theorem decodeDiagnostics_eq_ok_iff {found : List LintDiagnostic} :
    decodeDiagnostics v = .ok found ↔
      ∃ items entries, v = .array items ∧
        List.Forall₂ (ReadsEntry decodeDiagnostic) items entries ∧
        found = entries.reduceOption := by
  simp only [decodeDiagnostics, bind_eq_ok_iff, inPart_eq_ok_iff, items_eq_ok_iff,
    validEntries_eq_ok_iff, exists_and_left]

/-! ## Tables -/

theorem decodeFunctions_eq_ok_iff {found : List FunctionSignature} :
    decodeFunctions v = .ok found ↔
      ∃ ms, v = .object ms ∧
        List.Forall₂ (fun m f => signature m.1 m.2 = .ok f) (ms.filter (·.1 ≠ "")) found := by
  simp only [decodeFunctions, bind_eq_ok_iff, inPart_eq_ok_iff, members_eq_ok_iff, mapM_eq_ok_iff]

theorem decodeVariables_eq_ok_iff {found : List Variable} :
    decodeVariables v = .ok found ↔
      ∃ ms all, v = .object ms ∧
        List.Forall₂ (fun m (x : Variable) => x.identifier = m.1 ∧ m.2 = .text x.typeName) ms all ∧
        found = all.filter (·.identifier ≠ "") := by
  have hentry (m : String × Json) (x : Variable) :
      inPart "the variable table" ((Variable.mk m.1 ·) <$> text m.2) = .ok x ↔
        x.identifier = m.1 ∧ m.2 = .text x.typeName := by
    rw [inPart_eq_ok_iff, map_eq_ok_iff]
    simp only [text_eq_ok_iff]
    constructor
    · rintro ⟨type, hm, rfl⟩
      exact ⟨rfl, hm⟩
    · rintro ⟨hname, hm⟩
      exact ⟨_, hm, by rw [← hname]⟩
  simp only [decodeVariables, bind_eq_ok_iff, inPart_eq_ok_iff, members_eq_ok_iff, mapM_eq_ok_iff,
    pure_eq_ok_iff, hentry, exists_and_left]
  constructor
  · rintro ⟨ms, hv, all, hall, rfl⟩
    exact ⟨ms, hv, all, hall, rfl⟩
  · rintro ⟨ms, hv, all, hall, rfl⟩
    exact ⟨ms, hv, all, hall, rfl⟩

theorem decodeValue_eq_ok_iff {kind : LintKind} {r : LintResult} :
    decodeValue kind v = .ok r ↔
      r.kind = kind ∧
        match r with
        | .declaration found => decodeDeclaration v = .ok found
        | .diagnostics found => decodeDiagnostics v = .ok found
        | .knownFunctions found => decodeFunctions v = .ok found
        | .knownVariables found => decodeVariables v = .ok found := by
  cases kind <;> cases r <;> simp [decodeValue, map_eq_ok_iff, LintResult.kind]

end EviAssist.Lint
