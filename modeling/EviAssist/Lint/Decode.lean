import EviAssist.Colour
import EviAssist.Json.Parser
import EviAssist.Lint.Error
import EviAssist.Lint.Shape

/-!
# Decoding evi's answers

What evi prints is read by the kind of the question. A text that does not have the shape of an
answer is an error, never an empty answer; only records that evi itself marks as invalid, and
symbols without a name, are left out.

* `Lint.Malformed`: why a text is no answer.
* `Lint.decodeValue`, `Lint.decode`: the answer in a JSON value and in a text.
-/

namespace EviAssist.Lint

/-- Why a text is no answer. -/
inductive Malformed where
  /-- It is not JSON. -/
  | notJson
  /-- A part of it, given by its name, has the wrong shape. -/
  | shape (part : String) (reason : ShapeError)
  deriving Inhabited, Repr

/-- The text shown for a malformed answer. -/
def Malformed.message : Malformed → String
  | notJson => "invalid JSON"
  | shape part reason => part ++ ": " ++ reason.message

/-- A reading of a named part. -/
def inPart {α : Type} (part : String) (reading : Shape.Reading α) : Except Malformed α :=
  reading.mapError (.shape part)

/-- The entries of a list that are not marked as invalid, each read. -/
def validEntries {α : Type} (part : String) (read : Json → Except Malformed α) :
    List Json → Except Malformed (List α)
  | [] => .ok []
  | entry :: rest => do
    if ← inPart part (Shape.marker entry) then validEntries part read rest
    else
      let a ← read entry
      return a :: (← validEntries part read rest)

/-- A declaration; none for one marked as invalid and for an empty object. -/
def decodeDeclaration (value : Json) : Except Malformed (Option SourcePosition) := do
  let isInvalid ← inPart "the declaration" (Shape.marker value)
  if isInvalid then return none
  match value with
  | .object [] => return none
  | _ => return some (← inPart "the declaration" (Shape.place value))

/-- A diagnostic with its valid notes. -/
def decodeDiagnostic (value : Json) : Except Malformed LintDiagnostic := do
  let (diagnostic, notes) ← inPart "a diagnostic" (Shape.diagnostic value)
  let related ←
    validEntries "a related note" (fun note => inPart "a related note" (Shape.note note)) notes
  return { diagnostic with related }

/-- The valid diagnostics of a list. -/
def decodeDiagnostics (value : Json) : Except Malformed (List LintDiagnostic) := do
  validEntries "a diagnostic" decodeDiagnostic (← inPart "the diagnostic list" (Shape.items value))

/-- The functions of a table, in the order of their names. -/
def decodeFunctions (value : Json) : Except Malformed (List FunctionSignature) := do
  let table ← inPart "the function table" (Shape.members value)
  (table.filter (·.1 ≠ "")).mapM fun (identifier, entry) =>
    inPart ("function `" ++ identifier ++ "`") (Shape.signature identifier entry)

/-- The variables of a table, in the order of their names. -/
def decodeVariables (value : Json) : Except Malformed (List Variable) := do
  let table ← inPart "the variable table" (Shape.members value)
  let all ← table.mapM fun (identifier, type) =>
    inPart "the variable table" ((⟨identifier, ·⟩) <$> Shape.text type)
  return all.filter (·.identifier ≠ "")

/-- The answer in a JSON value. -/
def decodeValue (kind : LintKind) (value : Json) : Except Malformed LintResult :=
  match kind with
  | .declaration => .declaration <$> decodeDeclaration value
  | .diagnostics => .diagnostics <$> decodeDiagnostics value
  | .knownFunctions => .knownFunctions <$> decodeFunctions value
  | .knownVariables => .knownVariables <$> decodeVariables value

/-- The answer in a text without colours. -/
def decode (kind : LintKind) (stdout : String) : Except LintError LintResult :=
  match Json.parse? (Text.trim stdout.toList) with
  | none => .error (.malformedOutput kind Malformed.notJson.message)
  | some value =>
    (decodeValue kind value).mapError fun reason => .malformedOutput kind reason.message

/-- The answer in what evi printed, the snapshot's path exchanged for the document's. -/
def answerOf (kind : LintKind) (snapshot document : Path) (stdout : String) :
    Except LintError LintResult :=
  (·.remap snapshot document) <$> decode kind (Colour.stripText stdout)

end EviAssist.Lint
