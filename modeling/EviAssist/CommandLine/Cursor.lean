import EviAssist.Position
import EviAssist.Text.Numeral
import EviAssist.Text.Search

/-!
# Cursors on the command line

A place in a file is written `FILE:LINE:COL`, lines and columns counted from one. The file's name
may hold colons.

* `Cursor`: a place in a file.
* `Cursor.ofText`: the place that a text names, or why it names none.
-/

namespace EviAssist

/-- A place in a file. -/
structure Cursor where
  file : Path
  position : Position
  deriving DecidableEq, Inhabited, Repr

namespace Cursor

/-- Why a text names no place. -/
inductive Refusal where
  | tooFewParts (text : String)
  | badLine (part : String)
  | badColumn (part : String)
  | outOfRange (text : String)
  deriving DecidableEq, Inhabited, Repr

/-- The text shown for a refusal. -/
def Refusal.message : Refusal → String
  | tooFewParts text => "expected FILE:LINE:COL, got `" ++ text ++ "`"
  | badLine part => "bad line `" ++ part ++ "`"
  | badColumn part => "bad column `" ++ part ++ "`"
  | outOfRange text => "expected FILE:LINE:COL (1-based), got `" ++ text ++ "`"

/-- What comes before the last colon, and what after it. -/
def cutLast? (cs : List Char) : Option (List Char × List Char) :=
  match cs.reverse.dropWhile (· != ':') with
  | [] => none
  | _ :: before => some (before.reverse, (cs.reverse.takeWhile (· != ':')).reverse)

/-- The file, the line and the column in a text. -/
def parts? (cs : List Char) : Option (List Char × List Char × List Char) := do
  let (rest, column) ← cutLast? cs
  let (file, line) ← cutLast? rest
  return (file, line, column)

/-- The place that a text names, or why it names none. -/
def ofText (text : String) : Except Refusal Cursor := do
  match parts? text.toList with
  | none => throw (.tooFewParts text)
  | some (file, line, column) =>
    match Text.readUInt32? line, Text.readUInt32? column with
    | none, _ => throw (.badLine (String.ofList line))
    | some _, none => throw (.badColumn (String.ofList column))
    | some l, some c =>
      if l = 0 ∨ c = 0 ∨ file.isEmpty then throw (.outOfRange text)
      else return ⟨⟨String.ofList file⟩, ⟨l - 1, c - 1⟩⟩

end Cursor

end EviAssist
