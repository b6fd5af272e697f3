import EviAssist.Document
import EviAssist.FileTree
import EviAssist.Lint.Error

/-!
# Snapshots

evi reads a document from a temporary file with the editor's current text. Its name begins with
the document's own, so that evi's messages stay readable, and holds six characters that no other
snapshot has.

* `Snapshot.beginning`: the name before those characters.
* `Snapshot.path?`: the path of a snapshot, when the system accepts its name.
-/

namespace EviAssist.Snapshot

/-- The end of every snapshot's name. -/
def ending : String :=
  ".evilint_tmp"

/-- The beginning of the name of a document's snapshot. -/
def beginning (document : Path) : String :=
  (document.fileName?.map String.ofList).getD "untitled" ++ "."

/-- The characters that a tag is made of. -/
def tagAlphabet : List Char :=
  "ABCDEFGHIJKLMNOPQRSTUVWXYZabcdefghijklmnopqrstuvwxyz0123456789".toList

/-- The last `places` digits of a number in the tag's alphabet. -/
def tagDigits : Nat → Nat → List Char
  | 0, _ => []
  | places + 1, n =>
    tagDigits places (n / tagAlphabet.length) ++
      [tagAlphabet.getD (n % tagAlphabet.length) 'A']

/-- The six characters that tell the snapshot with a given number from the others. -/
def tag (number : Nat) : String :=
  String.ofList (tagDigits 6 number)

/-- The name of a document's snapshot with a given number. -/
def name (document : Path) (number : Nat) : String :=
  beginning document ++ tag number ++ ending

/-- The path of a document's snapshot in a directory. A name must have no zero character, the
directory must be there, and the name must be short enough. -/
def path? (isThere : Bool) (directory document : Path) (number : Nat) : Except LintError Path :=
  let file := name document number
  if file.toList.contains '\x00' then
    .error (.snapshot "file name contained an unexpected NUL byte")
  else if !isThere then .error (.snapshot FileError.notFound.message)
  else if FileTree.isLonger file FileTree.longestName then
    .error (.snapshot FileError.nameTooLong.message)
  else .ok (directory.join ⟨file⟩)

end EviAssist.Snapshot
