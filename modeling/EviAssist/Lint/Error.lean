import EviAssist.Duration
import EviAssist.Lint.Kind
import EviAssist.Path

/-!
# Lint errors

* `LintError`: why a question to evi has no answer.
* `LintError.message`: the text shown for it.
* `LintError.pausesValidation`: whether trying again is of no use before the settings change.
-/

namespace EviAssist

/-- Why a question to evi has no answer. -/
inductive LintError where
  /-- There is no such program, or none is configured. -/
  | toolNotFound (program : Option Path)
  /-- The program could not be started. -/
  | spawn (program : Path) (cause : String)
  /-- The program ended with a status other than zero. -/
  | nonZeroExit (code : Int) (stderr : String)
  /-- The program ran for too long. -/
  | timeout (limit : Duration)
  /-- Another run of the program held the gate for too long. -/
  | gateTimeout (limit : Duration)
  /-- The program's output does not have the shape of an answer. -/
  | malformedOutput (kind : LintKind) (reason : String)
  /-- The snapshot could not be written. -/
  | snapshot (cause : String)
  deriving DecidableEq, Inhabited, Repr

namespace LintError

/-- The text shown for an error. -/
def message : LintError → String
  | toolNotFound none => "evi executable not found: not configured"
  | toolNotFound (some program) => "evi executable not found: " ++ program.text
  | spawn program cause => "failed to run " ++ program.text ++ ": " ++ cause
  | nonZeroExit code stderr => "evi exited with status " ++ toString code ++ ": " ++ stderr
  | timeout limit => "evi did not finish within " ++ limit.text
  | gateTimeout limit => "another evi invocation held the gate for more than " ++ limit.text
  | malformedOutput kind reason => "malformed " ++ kind.name ++ " output: " ++ reason
  | snapshot cause => "snapshot file error: " ++ cause

/-- The failure of the system that an error passes on. -/
def cause? : LintError → Option String
  | spawn _ cause => some cause
  | snapshot cause => some cause
  | _ => none

/-- Whether trying again is of no use before the settings change. -/
def pausesValidation : LintError → Bool
  | toolNotFound _ => true
  | spawn _ _ => true
  | _ => false

end LintError

end EviAssist
