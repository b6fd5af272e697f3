import EviAssist.Document
import EviAssist.Lint.Kind
import EviAssist.Lint.Settings

/-!
# Requests

One question to evi about one document, and the command that asks it.

* `LintRequest.make`: the request for a document under given settings.
* `LintRequest.command`: evi's arguments: the snapshot, the include directories, the kind, the
  cursor and the tab width.
-/

namespace EviAssist

/-- One question to evi. -/
structure LintRequest where
  document : Path
  kind : LintKind
  cursor : Option Position
  includeDirs : List Path
  tabWidth : UInt32
  deriving DecidableEq, Inhabited, Repr

/-- A program with its arguments. -/
structure ToolCommand where
  program : Path
  arguments : List String
  deriving DecidableEq, Inhabited, Repr

/-- The program and its arguments with blanks between. -/
def ToolCommand.text (c : ToolCommand) : String :=
  c.arguments.foldl (fun line argument => line ++ " " ++ argument) c.program.text

namespace LintRequest

/-- The paths in order, without those that are the same as an earlier one. -/
def distinct (paths : List Path) : List Path :=
  paths.foldl (fun kept p => if kept.any (·.same p) then kept else kept ++ [p]) []

/-- The directory of a document, unless it is the empty path. -/
def ownDirectory? (document : Path) : Option Path :=
  document.parent?.filter (·.text ≠ "")

/-- The request for a document. Its own directory is the first to include; a cursor is kept only
where it matters. -/
def make (document : Document) (kind : LintKind) (cursor : Option Position)
    (settings : ToolSettings) : LintRequest where
  document := document.path
  kind := kind
  cursor := if kind.usesCursor then cursor else none
  includeDirs := distinct ((ownDirectory? document.path).toList ++ settings.includeDirs)
  tabWidth := settings.tabWidth

/-- The command that asks a request about a snapshot of the document. -/
def command (r : LintRequest) (program snapshot : Path) : ToolCommand where
  program := program
  arguments :=
    [snapshot.text] ++ r.includeDirs.map ("--include=" ++ ·.text) ++
      ["--lint-type=" ++ r.kind.name, "--lint-pos=" ++ encodeCursor r.cursor,
        "--lint-tab-width=" ++ toString r.tabWidth]

end LintRequest

end EviAssist
