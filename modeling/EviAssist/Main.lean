import EviAssist.CommandLine
import EviAssist.FileTree
import EviAssist.Json.Parser

/-!
# The program

The command line on a real system. evi is run by whoever has started this program: a command that
is to be run is written to the error stream as a line of JSON, with the text to put into the
snapshot, and the reply is a line of JSON on the standard input.

* `main`: carries out the arguments.
-/

namespace EviAssist.Main

/-- The text shown for a failure of the system. -/
def causeOf : IO.Error → String
  | .noFileOrDirectory _ _ _ => FileError.notFound.message
  | .inappropriateType _ _ _ => FileError.isDirectory.message
  | .permissionDenied _ _ _ => (FileTree.ProgramError.notAllowed).message
  | e => toString e

/-- The result of an action, or the text for its failure. -/
def attempt {α : Type} (action : IO α) : IO (Except String α) :=
  (Except.ok <$> action) |>.catchExceptions fun e => return .error (causeOf e)

/-- A command as it is written out. -/
def commandToJson (command : ToolCommand) (text : String) : Json :=
  .ofList
    [("program", .text command.program.text),
      ("args", .array (command.arguments.map Json.text)), ("text", .text text)]

/-- The bytes of a text in a reply. -/
def replyBytes (reply : Json) (name : String) : List UInt8 :=
  match reply.member? name with
  | some (.text s) => Utf8.encode s.toList
  | _ => []

/-- A run as a reply tells of it; a reply without a status tells of a program that is not
there. -/
def runOf (reply : Json) : ProcessRun :=
  match reply.member? "status" with
  | some (.number (.natural status)) =>
    .ended (.ofMillis 0) (some status) (replyBytes reply "stdout") (replyBytes reply "stderr")
  | _ => .refused .notFound

/-- Has a command run. -/
def runCommand (command : ToolCommand) (text : String) : IO ProcessRun := do
  IO.eprintln (commandToJson command text).compact
  let line ← (← IO.getStdin).getLine
  return runOf ((Json.parse? (Text.trim line.toList)).getD .null)

/-- The system that the program runs on. -/
def host : IO (Host IO) := do
  return {
    directory := ← attempt do return ⟨(← IO.currentDir).toString⟩
    home := (← IO.getEnv "HOME").map Path.mk
    executable := (← IO.getEnv "EVI_EXECUTABLE").map Path.mk
    searchPath := ← IO.getEnv "PATH"
    canonical := fun p => attempt do return ⟨(← IO.FS.realPath p.text).toString⟩
    read := fun p => attempt (IO.FS.readFile p.text)
    canRun := fun p => do return (← attempt (IO.FS.readBinFile p.text)).toBool
    run := runCommand }

/-- What is shown for a command line that failed. -/
def complaint : Ending → String
  | .usage .arguments => "error: the arguments do not fit together\n"
  | .usage (.cursor refusal) => "error: " ++ refusal.message ++ "\n"
  | .failed f => "Error: " ++ f.report ++ "\n"
  | .overflowed => "error: a line or a column is too great to be printed\n"
  | .done _ => ""

end EviAssist.Main

/-- Carries out the arguments. -/
def main (arguments : List String) : IO UInt32 := do
  let outcome ← EviAssist.CommandLine.execute (← EviAssist.Main.host) arguments
  IO.print outcome.output
  IO.eprint (EviAssist.Main.complaint outcome.ending)
  return UInt32.ofNat outcome.ending.status
