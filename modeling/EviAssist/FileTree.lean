import EviAssist.Path
import EviAssist.Text.Utf8

/-!
# File trees

The files that a path may lead to. Paths are followed step by step: every step but the last must
be a directory, and so must what a path that ends in a separator leads to. Neither a step nor a
whole path may be too long.

* `FileTree`: directories and files by their steps from the root.
* `FileTree.find`: what a path leads to.
* `FileTree.read`, `FileTree.readText`: the content of a file.
* `FileTree.canRun`, `FileTree.program`: whether a file can be run, and the file that a program's
  name leads to.
-/

namespace EviAssist

/-- What stands in a file tree: a directory, or a file with its content and its mode. -/
inductive FileEntry where
  | directory
  | file (content : List UInt8) (mode : Nat)
  deriving DecidableEq, Inhabited, Repr

/-- Why a path cannot be followed or read. -/
inductive FileError where
  | notFound
  | notDirectory
  | isDirectory
  | nameTooLong
  | notText
  deriving DecidableEq, Inhabited, Repr

/-- The text shown for a failure. -/
def FileError.message : FileError → String
  | notFound => "No such file or directory (os error 2)"
  | notDirectory => "Not a directory (os error 20)"
  | isDirectory => "Is a directory (os error 21)"
  | nameTooLong => "File name too long (os error 36)"
  | notText => "stream did not contain valid UTF-8"

/-- Directories and files by their steps from the root. -/
structure FileTree where
  entries : List (List String × FileEntry) := []
  deriving Inhabited, Repr

namespace FileTree

/-- The greatest number of bytes in a file's name. -/
def longestName : Nat :=
  255

/-- The greatest number of bytes in a path. -/
def longestPath : Nat :=
  4095

/-- Whether a text has more bytes than a limit. -/
def isLonger (text : String) (limit : Nat) : Bool :=
  limit < Utf8.size text.toList

/-- The entry at some steps; the root is always a directory. -/
def entry? (t : FileTree) (steps : List String) : Option FileEntry :=
  if steps.isEmpty then some .directory else t.entries.lookup steps

/-- The parts of a path between separators. -/
def segments (p : Path) : List String :=
  (Text.splitAt '/' p.text.toList).map String.ofList

/-- Follows parts of a path from some steps. -/
def follow (t : FileTree) (steps : List String) :
    List String → Except FileError (List String × FileEntry)
  | [] => (t.entry? steps).elim (.error .notFound) fun entry => .ok (steps, entry)
  | segment :: rest =>
    match t.entry? steps with
    | none => .error .notFound
    | some (.file _ _) => .error .notDirectory
    | some .directory =>
      if segment = "" ∨ segment = "." then t.follow steps rest
      else if segment = ".." then t.follow steps.dropLast rest
      else if isLonger segment longestName then .error .nameTooLong
      else t.follow (steps ++ [segment]) rest

/-- What a path leads to, seen from a directory. -/
def find (t : FileTree) (directory p : Path) : Except FileError (List String × FileEntry) :=
  if p.text = "" then .error .notFound
  else if isLonger p.text longestPath then .error .nameTooLong
  else t.follow [] (segments (directory.join p))

/-- The path with given steps from the root. -/
def pathOf (steps : List String) : Path :=
  ⟨"/" ++ String.intercalate "/" steps⟩

/-- The path from the root to what a path leads to, without detours. -/
def canonical (t : FileTree) (directory p : Path) : Except FileError Path :=
  (t.find directory p).map fun found => pathOf found.1

/-- The content of a file. -/
def read (t : FileTree) (directory p : Path) : Except FileError (List UInt8) := do
  match (← t.find directory p).2 with
  | .file content _ => return content
  | .directory => throw .isDirectory

/-- The text of a file. -/
def readText (t : FileTree) (directory p : Path) : Except FileError String := do
  match Utf8.decode? (← t.read directory p) with
  | some cs => return String.ofList cs
  | none => throw .notText

/-- Whether a mode lets anyone run a file. -/
def isRunnable (mode : Nat) : Bool :=
  mode &&& 0o111 ≠ 0

/-- Whether a path leads to a file that can be run. -/
def canRun (t : FileTree) (directory p : Path) : Bool :=
  match t.find directory p with
  | .ok (_, .file _ mode) => isRunnable mode
  | _ => false

/-- Why a program cannot be run. -/
inductive ProgramError where
  | file (e : FileError)
  | notAllowed
  deriving DecidableEq, Inhabited, Repr

/-- The text shown for a failure. -/
def ProgramError.message : ProgramError → String
  | file e => e.message
  | notAllowed => "Permission denied (os error 13)"

/-- The steps to the file that a path leads to, if it can be run. -/
def programAt (t : FileTree) (directory p : Path) : Except ProgramError (List String) :=
  match t.find directory p with
  | .error e => .error (.file e)
  | .ok (steps, .file _ mode) => if isRunnable mode then .ok steps else .error .notAllowed
  | .ok (_, .directory) => .error .notAllowed

/-- The steps to the file that a program's name leads to. A name with a separator is a path; any
other is looked for in the directories of a search path. -/
def program (t : FileTree) (directory : Path) (searchPath : List Path) (p : Path) :
    Except ProgramError (List String) :=
  if p.text.toList.contains '/' then t.programAt directory p
  else if p.text = "" then .error (.file .notFound)
  else if isLonger p.text longestName then .error (.file .nameTooLong)
  else
    let found := searchPath.map fun dir => t.programAt directory (dir.join p)
    (found.find? (·.toBool)).getD
      (if found.any (fun r => r matches .error .notAllowed) then .error .notAllowed
      else .error (.file .notFound))

/-- Puts an entry into a tree, with the directories on the way. -/
def insert (t : FileTree) (p : Path) (entry : FileEntry) : FileTree :=
  let steps := (segments p).filter (· ≠ "")
  let parents := (List.range steps.length).map fun n => (steps.take n, FileEntry.directory)
  let missing := parents.filter fun parent => (t.entry? parent.1).isNone
  ⟨(steps, entry) :: missing ++ t.entries⟩

end FileTree

end EviAssist
