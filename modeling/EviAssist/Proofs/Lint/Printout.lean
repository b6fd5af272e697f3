import EviAssist.Json.Parser
import EviAssist.Lint.Result
import EviAssist.Proofs.Json.Text
import EviAssist.Text.Utf8
import Mathlib.Data.List.Forall2
import Mathlib.Data.List.ReduceOption

/-!
# What evi prints

evi prints a value as JSON by hand: the fields of a record in any order and others beside them,
numbers and flags also as texts, a list that is empty also as `null` or not at all.

* `Printout`: a value that evi prints, entries it could not fill in among the others.
* `Printout.result`: the answer that it stands for.
* `Printout.Spells`: the JSON values that evi may print for it.
-/

namespace EviAssist.Lint

/-! ## Values -/

/-- A place as evi counts it, with lines from one. -/
structure PrintedPlace where
  file : String
  line : UInt32
  column : UInt32
  length : UInt32

/-- A note as evi prints it. -/
structure PrintedNote where
  place : PrintedPlace
  message : String

/-- A diagnostic as evi prints it; `none` stands for a note that evi could not fill in. -/
structure PrintedDiagnostic where
  place : PrintedPlace
  message : String
  severity : Severity
  notes : List (Option PrintedNote)

/-- A value that evi prints, by the kind of the question. -/
inductive Printout where
  | declaration (place : Option PrintedPlace)
  | diagnostics (entries : List (Option PrintedDiagnostic))
  | knownFunctions (found : List FunctionSignature)
  | knownVariables (found : List Variable)

/-! ## Their answers -/

/-- The place in the editor's counting. -/
def PrintedPlace.position (p : PrintedPlace) : SourcePosition where
  file := ⟨p.file⟩
  line := if p.line = 0 then 0 else p.line - 1
  column := p.column
  length := p.length

/-- The note that is shown. -/
def PrintedNote.note (n : PrintedNote) : RelatedNote :=
  ⟨n.place.position, n.message⟩

/-- The diagnostic that is shown, with the notes that were filled in. -/
def PrintedDiagnostic.diagnostic (d : PrintedDiagnostic) : LintDiagnostic :=
  ⟨d.place.position, d.message, d.severity, d.notes.reduceOption.map PrintedNote.note⟩

/-- The symbols that have a name, in the order of the bytes of their names. -/
def named {α : Type} (name : α → String) (symbols : List α) : List α :=
  (symbols.filter (name · ≠ "")).mergeSort fun a b =>
    Utf8.encode (name a).toList ≤ Utf8.encode (name b).toList

namespace Printout

/-- The kind of question that a value answers. -/
def kind : Printout → LintKind
  | declaration _ => .declaration
  | diagnostics _ => .diagnostics
  | knownFunctions _ => .knownFunctions
  | knownVariables _ => .knownVariables

/-- The answer that a value stands for. -/
def result : Printout → LintResult
  | declaration place => .declaration (place.map PrintedPlace.position)
  | diagnostics entries => .diagnostics (entries.reduceOption.map PrintedDiagnostic.diagnostic)
  | knownFunctions found => .knownFunctions (named FunctionSignature.identifier found)
  | knownVariables found => .knownVariables (named Variable.identifier found)

end Printout

/-! ## Their spellings -/

/-- A number stands as itself or as its decimal digits. -/
inductive SpellsNumber (n : UInt32) : Json → Prop where
  | number : SpellsNumber n (.nat n.toNat)
  | digits : SpellsNumber n (.text (String.ofList (Text.decimal n.toNat)))

/-- A flag stands as itself or as its name. -/
inductive SpellsFlag : Bool → Json → Prop where
  | flag (b : Bool) : SpellsFlag b (.bool b)
  | true : SpellsFlag true (.text "true")
  | false : SpellsFlag false (.text "false")

/-- A field that may be `null` or left out where it has its default. -/
inductive SpellsOptional (name : String) (isDefault : Prop) (spells : Json → Prop) :
    List (String × Json) → Prop where
  | written {v : Json} (h : spells v) : SpellsOptional name isDefault spells [(name, v)]
  | null (h : isDefault) : SpellsOptional name isDefault spells [(name, .null)]
  | absent (h : isDefault) : SpellsOptional name isDefault spells []

/-- An object holds the given fields, and others under names that are not known, in any order. What
those hold may nest as deep as the parser allows. -/
def IsRecord (known : List String) (fields : List (String × Json)) (v : Json) : Prop :=
  ∃ members others, v = .object members ∧ members.Perm (fields ++ others) ∧
    ∀ m ∈ others, m.1 ∉ known ∧ m.2.depth + 4 ≤ Json.deepest

/-- The fields of a place. -/
def SpellsPlace (p : PrintedPlace) (fields : List (String × Json)) : Prop :=
  ∃ line column length, SpellsNumber p.line line ∧ SpellsNumber p.column column ∧
    SpellsNumber p.length length ∧
    fields = [("file", .text p.file), ("line", line), ("column", column), ("length", length)]

/-- A record that evi could not fill in; what it holds besides does not matter. -/
def SpellsInvalid (v : Json) : Prop :=
  ∃ mark, SpellsFlag true mark ∧ IsRecord ["invalid"] [("invalid", mark)] v

/-- The mark of a record that evi could fill in. -/
def SpellsValid (fields : List (String × Json)) : Prop :=
  SpellsOptional "invalid" True (SpellsFlag false) fields

/-- An entry of a list. -/
def SpellsEntry {α : Type} (spells : α → Json → Prop) : Option α → Json → Prop
  | some a, v => spells a v
  | none, v => SpellsInvalid v

/-- A list of entries. -/
def SpellsEntries {α : Type} (spells : α → Json → Prop) (entries : List (Option α)) (v : Json) :
    Prop :=
  ∃ items, v = .array items ∧ List.Forall₂ (SpellsEntry spells) entries items

/-- The names that a declaration is read from. -/
def placeNames : List String :=
  ["invalid", "file", "line", "column", "length"]

/-- A declaration. -/
def SpellsDeclaration (p : PrintedPlace) (v : Json) : Prop :=
  ∃ mark place, SpellsValid mark ∧ SpellsPlace p place ∧ IsRecord placeNames (mark ++ place) v

/-- The names that a note is read from. -/
def noteNames : List String :=
  ["invalid", "message", "file", "line", "column", "length"]

/-- A note. -/
def SpellsNote (n : PrintedNote) (v : Json) : Prop :=
  ∃ mark place, SpellsValid mark ∧ SpellsPlace n.place place ∧
    IsRecord noteNames (mark ++ ("message", .text n.message) :: place) v

/-- The names that a diagnostic is read from. -/
def diagnosticNames : List String :=
  ["invalid", "related", "message", "type", "file", "line", "column", "length"]

/-- A diagnostic. -/
def SpellsDiagnostic (d : PrintedDiagnostic) (v : Json) : Prop :=
  ∃ mark notes place, SpellsValid mark ∧
    SpellsOptional "related" (d.notes = []) (SpellsEntries SpellsNote d.notes) notes ∧
    SpellsPlace d.place place ∧
    IsRecord diagnosticNames
      (mark ++ notes ++ ("message", .text d.message) :: ("type", .text d.severity.name) :: place) v

/-- The names that a function is read from. -/
def functionNames : List String :=
  ["return type", "return_type", "parameters", "variadic"]

/-- A function, without its name. -/
def SpellsFunction (f : FunctionSignature) (v : Json) : Prop :=
  ∃ name parameters variadic, (name = "return type" ∨ name = "return_type") ∧
    SpellsOptional "parameters" (f.parameters = []) (· = .array (f.parameters.map .text))
      parameters ∧
    SpellsOptional "variadic" (f.variadic = false) (SpellsFlag f.variadic) variadic ∧
    IsRecord functionNames ((name, .text f.returnType) :: parameters ++ variadic) v

/-- A variable, without its name. -/
def SpellsVariable (x : Variable) (v : Json) : Prop :=
  v = .text x.typeName

/-- A table of symbols with different names. -/
def SpellsTable {α : Type} (name : α → String) (spells : α → Json → Prop) (symbols : List α)
    (v : Json) : Prop :=
  (symbols.map name).Nodup ∧
    ∃ members, v = .object members ∧
      List.Forall₂ (fun a m => m.1 = name a ∧ spells a m.2) symbols members

/-- The JSON values that evi may print for a value. -/
def Printout.Spells : Printout → Json → Prop
  | declaration none, v => SpellsInvalid v ∨ v = .object []
  | declaration (some p), v => SpellsDeclaration p v
  | diagnostics entries, v => SpellsEntries SpellsDiagnostic entries v
  | knownFunctions found, v => SpellsTable FunctionSignature.identifier SpellsFunction found v
  | knownVariables found, v => SpellsTable Variable.identifier SpellsVariable found v

end EviAssist.Lint
