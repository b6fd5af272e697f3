import EviAssist.Lint.Kind
import EviAssist.Position

/-!
# Answers of evi

* `LintResult`: one answer, by the kind of the question.
* `LintResult.remap`: the answer with one file's path exchanged for another.
* `FunctionSignature.signature`, `Variable.signature`: how symbols are shown.
-/

namespace EviAssist

/-- How grave a diagnostic is. -/
inductive Severity where
  | error
  | warning
  | info
  | hint
  deriving DecidableEq, Inhabited, Repr

namespace Severity

/-- The name of a severity. -/
def name : Severity → String
  | error => "error"
  | warning => "warning"
  | info => "info"
  | hint => "hint"

/-- All severities, the gravest first. -/
def all : List Severity :=
  [.error, .warning, .info, .hint]

/-- The severity with a given name. -/
def ofName? (name : String) : Option Severity :=
  all.find? (·.name == name)

end Severity

/-- A remark that goes with a diagnostic. -/
structure RelatedNote where
  position : SourcePosition
  message : String
  deriving DecidableEq, Inhabited, Repr

/-- Something that evi found in a file. -/
structure LintDiagnostic where
  position : SourcePosition
  message : String
  severity : Severity
  related : List RelatedNote
  deriving DecidableEq, Inhabited, Repr

/-- A function that can be called. -/
structure FunctionSignature where
  identifier : String
  returnType : String
  parameters : List String
  variadic : Bool
  deriving DecidableEq, Inhabited, Repr

/-- A function as evi writes it, with dots for further arguments. -/
def FunctionSignature.signature (f : FunctionSignature) : String :=
  let parts := if f.variadic then f.parameters ++ ["..."] else f.parameters
  "@" ++ f.identifier ++ " " ++ f.returnType ++ " (" ++ String.intercalate " " parts ++ ")"

/-- A variable that can be used. -/
structure Variable where
  identifier : String
  typeName : String
  deriving DecidableEq, Inhabited, Repr

/-- A variable with its type. -/
def Variable.signature (v : Variable) : String :=
  "$" ++ v.identifier ++ " -> " ++ v.typeName

/-- An answer, by the kind of the question. -/
inductive LintResult where
  | declaration (found : Option SourcePosition)
  | diagnostics (found : List LintDiagnostic)
  | knownFunctions (found : List FunctionSignature)
  | knownVariables (found : List Variable)
  deriving DecidableEq, Inhabited, Repr

/-- A position, moved to the file `new` when it is in `old`. -/
def SourcePosition.remap (old new : Path) (p : SourcePosition) : SourcePosition :=
  if p.file.same old then { p with file := new } else p

/-- A note with its position moved. -/
def RelatedNote.remap (old new : Path) (n : RelatedNote) : RelatedNote :=
  { n with position := n.position.remap old new }

/-- A diagnostic with its position and those of its notes moved. -/
def LintDiagnostic.remap (old new : Path) (d : LintDiagnostic) : LintDiagnostic :=
  { d with position := d.position.remap old new, related := d.related.map (·.remap old new) }

namespace LintResult

/-- The kind of question that an answer belongs to. -/
def kind : LintResult → LintKind
  | declaration _ => .declaration
  | diagnostics _ => .diagnostics
  | knownFunctions _ => .knownFunctions
  | knownVariables _ => .knownVariables

/-- An answer with every position in the file `old` moved to `new`. -/
def remap (old new : Path) : LintResult → LintResult
  | declaration found => declaration (found.map (·.remap old new))
  | diagnostics found => diagnostics (found.map (·.remap old new))
  | knownFunctions found => knownFunctions found
  | knownVariables found => knownVariables found

/-- The declaration, in an answer about one. -/
def declaration? : LintResult → Option SourcePosition
  | declaration found => found
  | _ => none

/-- The diagnostics, in an answer about them. -/
def diagnosticList : LintResult → List LintDiagnostic
  | diagnostics found => found
  | _ => []

/-- The functions, in an answer about them. -/
def functionList : LintResult → List FunctionSignature
  | knownFunctions found => found
  | _ => []

/-- The variables, in an answer about them. -/
def variableList : LintResult → List Variable
  | knownVariables found => found
  | _ => []

end LintResult

end EviAssist
