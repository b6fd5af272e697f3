/-!
# Lint kinds

evi's lint mode answers four kinds of question.

* `LintKind.name`: the name that evi knows a kind by.
* `LintKind.usesCursor`: whether the place of the cursor matters.
-/

namespace EviAssist

/-- A kind of question to evi. -/
inductive LintKind where
  | declaration
  | diagnostics
  | knownFunctions
  | knownVariables
  deriving DecidableEq, Inhabited, Repr

namespace LintKind

/-- The name that evi knows a kind by. -/
def name : LintKind → String
  | .declaration => "get-declaration"
  | .diagnostics => "get-diagnostics"
  | .knownFunctions => "get-functions"
  | .knownVariables => "get-variables"

/-- All kinds. -/
def all : List LintKind :=
  [.declaration, .diagnostics, .knownFunctions, .knownVariables]

/-- The kind with a given name. -/
def ofName? (name : String) : Option LintKind :=
  all.find? (·.name == name)

/-- Whether the place of the cursor means anything for a kind. -/
def usesCursor : LintKind → Bool
  | .diagnostics => false
  | _ => true

end LintKind

end EviAssist
