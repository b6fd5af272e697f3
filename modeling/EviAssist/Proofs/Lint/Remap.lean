import EviAssist.Lint.Decode
import EviAssist.Path
import Mathlib.Data.List.Forall2

/-!
# Answers moved to another file

evi is asked about a snapshot and answers about it; what it says of the snapshot is meant of the
document. An answer about the one becomes an answer about the other when the file of every place in
the snapshot is exchanged, and nothing else.

* `LintResult.positions`: the places in an answer, those of the notes included.
* `LintResult.IsMoved`, `LintResult.isMoved_iff`: what an exchange changes, field by field.
* `LintResult.remap_remap`: exchanging twice is exchanging once.
* `LintResult.not_same_of_mem_positions`: no place is left in the old file.
* `Lint.answerOf_eq_error_iff`, `Lint.answerOf_eq_ok_iff`: the answer in evi's output.
-/

namespace EviAssist

/-! ## What is changed -/

/-- Whether a place is another one, in the file `new` if that one is in `old`, and in the same file
otherwise. -/
structure SourcePosition.IsMoved (old new : Path) (p moved : SourcePosition) : Prop where
  file : moved.file = if p.file.same old then new else p.file
  line : moved.line = p.line
  column : moved.column = p.column
  length : moved.length = p.length

/-- Whether a note is another one at the moved place. -/
structure RelatedNote.IsMoved (old new : Path) (n moved : RelatedNote) : Prop where
  position : n.position.IsMoved old new moved.position
  message : moved.message = n.message

/-- Whether a diagnostic is another one at the moved place, with the moved notes in order. -/
structure LintDiagnostic.IsMoved (old new : Path) (d moved : LintDiagnostic) : Prop where
  position : d.position.IsMoved old new moved.position
  message : moved.message = d.message
  severity : moved.severity = d.severity
  related : List.Forall₂ (RelatedNote.IsMoved old new) d.related moved.related

/-- Whether an answer is another one with all its places moved; tables have no places. -/
inductive LintResult.IsMoved (old new : Path) : LintResult → LintResult → Prop
  /-- No declaration. -/
  | undeclared : IsMoved old new (.declaration none) (.declaration none)
  /-- A declaration. -/
  | declaration {p moved : SourcePosition} :
    p.IsMoved old new moved → IsMoved old new (.declaration (some p)) (.declaration (some moved))
  /-- Diagnostics, in order. -/
  | diagnostics {ds moved : List LintDiagnostic} :
    List.Forall₂ (LintDiagnostic.IsMoved old new) ds moved →
      IsMoved old new (.diagnostics ds) (.diagnostics moved)
  /-- Functions. -/
  | knownFunctions (table : List FunctionSignature) :
    IsMoved old new (.knownFunctions table) (.knownFunctions table)
  /-- Variables. -/
  | knownVariables (table : List Variable) :
    IsMoved old new (.knownVariables table) (.knownVariables table)

variable {old new : Path}

theorem forall₂_iff_eq_map {α : Type} {R : α → α → Prop} (f : α → α)
    (h : ∀ {a b}, R a b ↔ b = f a) {as bs : List α} : List.Forall₂ R as bs ↔ bs = as.map f := by
  constructor
  · intro hr
    induction hr with
    | nil => rfl
    | cons hab _ ih => rw [h.1 hab, ih, List.map_cons]
  · rintro rfl
    exact List.forall₂_map_right_iff.2 (List.forall₂_same.2 fun _ _ => h.2 rfl)

theorem SourcePosition.isMoved_iff {p moved : SourcePosition} :
    p.IsMoved old new moved ↔ moved = p.remap old new := by
  constructor
  · rintro ⟨hfile, hline, hcolumn, hlength⟩
    cases moved
    dsimp only at hfile hline hcolumn hlength
    rw [hfile, hline, hcolumn, hlength, remap]
    split <;> rfl
  · rintro rfl
    rw [remap]
    split <;> exact ⟨by simp [*], rfl, rfl, rfl⟩

theorem RelatedNote.isMoved_iff {n moved : RelatedNote} :
    n.IsMoved old new moved ↔ moved = n.remap old new := by
  constructor
  · rintro ⟨hposition, hmessage⟩
    cases moved
    rw [SourcePosition.isMoved_iff] at hposition
    dsimp only at hposition hmessage
    rw [hposition, hmessage, remap]
  · rintro rfl
    exact ⟨SourcePosition.isMoved_iff.2 rfl, rfl⟩

theorem LintDiagnostic.isMoved_iff {d moved : LintDiagnostic} :
    d.IsMoved old new moved ↔ moved = d.remap old new := by
  constructor
  · rintro ⟨hposition, hmessage, hseverity, hrelated⟩
    cases moved
    rw [SourcePosition.isMoved_iff] at hposition
    rw [forall₂_iff_eq_map (·.remap old new) RelatedNote.isMoved_iff] at hrelated
    dsimp only at hposition hmessage hseverity hrelated
    rw [hposition, hmessage, hseverity, hrelated, remap]
  · rintro rfl
    exact ⟨SourcePosition.isMoved_iff.2 rfl, rfl, rfl,
      (forall₂_iff_eq_map (·.remap old new) RelatedNote.isMoved_iff).2 rfl⟩

/-- **What an exchange changes**: it moves the places, and nothing else. -/
theorem LintResult.isMoved_iff {r moved : LintResult} :
    r.IsMoved old new moved ↔ moved = r.remap old new := by
  constructor
  · rintro (_ | h | h | _ | _)
    · rfl
    · rw [SourcePosition.isMoved_iff.1 h]
      rfl
    · rw [(forall₂_iff_eq_map (·.remap old new) LintDiagnostic.isMoved_iff).1 h]
      rfl
    · rfl
    · rfl
  · rintro rfl
    cases r with
    | declaration found =>
      cases found with
      | none => exact .undeclared
      | some p => exact .declaration (SourcePosition.isMoved_iff.2 rfl)
    | diagnostics found =>
      exact .diagnostics ((forall₂_iff_eq_map (·.remap old new) LintDiagnostic.isMoved_iff).2 rfl)
    | knownFunctions table => exact .knownFunctions table
    | knownVariables table => exact .knownVariables table

/-! ## Exchanging twice -/

theorem SourcePosition.remap_remap (p : SourcePosition) :
    (p.remap old new).remap old new = p.remap old new := by
  unfold remap
  split_ifs <;> simp_all

theorem RelatedNote.remap_remap (n : RelatedNote) :
    (n.remap old new).remap old new = n.remap old new := by
  simp only [remap, SourcePosition.remap_remap]

theorem LintDiagnostic.remap_remap (d : LintDiagnostic) :
    (d.remap old new).remap old new = d.remap old new := by
  simp only [remap, SourcePosition.remap_remap, List.map_map, Function.comp_def,
    RelatedNote.remap_remap]

/-- **Exchanging twice is exchanging once**, also where the two files are spellings of one path. -/
theorem LintResult.remap_remap (old new : Path) (r : LintResult) :
    (r.remap old new).remap old new = r.remap old new := by
  cases r with
  | declaration found =>
    simp only [remap, Option.map_map, Function.comp_def, SourcePosition.remap_remap]
  | diagnostics found =>
    simp only [remap, List.map_map, Function.comp_def, LintDiagnostic.remap_remap]
  | knownFunctions table => rfl
  | knownVariables table => rfl

/-! ## Where an answer points to -/

/-- The places in a diagnostic: its own, and those of its notes. -/
def LintDiagnostic.positions (d : LintDiagnostic) : List SourcePosition :=
  d.position :: d.related.map (·.position)

/-- The places in an answer. -/
def LintResult.positions : LintResult → List SourcePosition
  | declaration found => found.toList
  | diagnostics found => found.flatMap (·.positions)
  | knownFunctions _ => []
  | knownVariables _ => []

theorem LintDiagnostic.positions_remap (d : LintDiagnostic) :
    (d.remap old new).positions = d.positions.map (·.remap old new) := by
  simp only [positions, remap, List.map_cons, List.map_map]
  rfl

theorem LintResult.positions_remap (old new : Path) (r : LintResult) :
    (r.remap old new).positions = r.positions.map (·.remap old new) := by
  cases r with
  | declaration found => cases found <;> rfl
  | diagnostics found =>
    simp only [positions, remap, List.flatMap_map, List.map_flatMap,
      LintDiagnostic.positions_remap]
  | knownFunctions table => rfl
  | knownVariables table => rfl

theorem SourcePosition.not_same_remap (h : old.same new = false) (p : SourcePosition) :
    (p.remap old new).file.same old = false := by
  unfold remap
  split
  · rwa [Path.same_comm]
  · exact Bool.eq_false_iff.2 ‹_›

/-- **No place is left in the old file**, unless the new one is another spelling of it. -/
theorem LintResult.not_same_of_mem_positions (h : old.same new = false) (r : LintResult)
    {p : SourcePosition} (hp : p ∈ (r.remap old new).positions) : p.file.same old = false := by
  rw [positions_remap] at hp
  obtain ⟨q, -, rfl⟩ := List.mem_map.1 hp
  exact q.not_same_remap h

/-! ## Evi's output -/

namespace Lint

variable {kind : LintKind} {snapshot document : Path} {stdout : String}

/-- Whether an answer is the one in evi's output, moved from the snapshot to the document, and says
nothing of the snapshot. -/
structure Answers (kind : LintKind) (snapshot document : Path) (stdout : String)
    (result : LintResult) : Prop where
  moved : ∃ decoded, decode kind (Colour.stripText stdout) = .ok decoded ∧
    decoded.IsMoved snapshot document result
  clean : snapshot.same document = false → ∀ p ∈ result.positions, p.file.same snapshot = false

theorem answerOf_eq_error_iff {e : LintError} :
    answerOf kind snapshot document stdout = .error e ↔
      decode kind (Colour.stripText stdout) = .error e := by
  rw [answerOf]
  cases decode kind (Colour.stripText stdout) with
  | error _ => exact Iff.rfl
  | ok _ => exact ⟨nofun, nofun⟩

/-- **The answer in evi's output.** -/
theorem answerOf_eq_ok_iff {result : LintResult} :
    answerOf kind snapshot document stdout = .ok result ↔
      Answers kind snapshot document stdout result := by
  rw [answerOf]
  constructor
  · intro h
    cases hd : decode kind (Colour.stripText stdout) with
    | error e =>
      rw [hd] at h
      cases h
    | ok decoded =>
      rw [hd] at h
      cases h
      exact ⟨⟨decoded, hd, LintResult.isMoved_iff.2 rfl⟩,
        fun hs p => LintResult.not_same_of_mem_positions hs decoded⟩
  · rintro ⟨⟨decoded, hd, hmoved⟩, -⟩
    rw [hd, LintResult.isMoved_iff.1 hmoved]
    rfl

end Lint

end EviAssist
