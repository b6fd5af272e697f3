import EviAssist.Position
import EviAssist.Text.Alphanumeric

/-!
# Documents

An open document is a path with the editor's current text. Its words are what completion and
hover ask about.

* `Document.line?`: one line of the text.
* `Document.literals`: the closed string literals of a line.
* `Document.wordRange?`, `Document.word?`: the word at a position.
-/

namespace EviAssist

/-- An open document. -/
structure Document where
  path : Path
  text : String
  language : String := "evi"
  deriving DecidableEq, Inhabited, Repr

/-- A run of characters of one line, from `start` up to and without `stop`. -/
structure Span where
  start : Nat
  stop : Nat
  deriving DecidableEq, Inhabited, Repr

namespace Span

/-- Whether a column touches a character of the run from the left. -/
def covers (s : Span) (column : Nat) : Bool :=
  s.start ≤ column && column < s.stop

/-- The run as a range on a line. -/
def onLine (s : Span) (line : UInt32) : Range :=
  ⟨⟨line, UInt32.ofNat s.start⟩, ⟨line, UInt32.ofNat s.stop⟩⟩

/-- The characters of the run. -/
def slice (s : Span) (line : List Char) : List Char :=
  (line.take s.stop).drop s.start

end Span

namespace Document

/-- Whether the document is written in Evi. -/
def isEvi (d : Document) : Bool :=
  d.language == "evi"

/-- The line with the given number, counted from zero. -/
def line? (d : Document) (number : UInt32) : Option (List Char) :=
  Text.line? d.text number.toNat

/-! ## Words -/

/-- The characters of words. -/
def isWordChar (c : Char) : Bool :=
  Text.isAlphanumeric c || c == '_' || c == '$' || c == '#' || c == '.'

/-- The string literals from column `at` on, where `opened` is the column of a quote not yet
closed. Inside a literal a backslash takes the next character with it. -/
def literalsFrom : Nat → Option Nat → List Char → List Span
  | _, _, [] => []
  | column, some start, '\\' :: _ :: rest => literalsFrom (column + 2) (some start) rest
  | column, some start, '"' :: rest =>
    ⟨start, column + 1⟩ :: literalsFrom (column + 1) none rest
  | column, none, '"' :: rest => literalsFrom (column + 1) (some column) rest
  | column, opened, _ :: rest => literalsFrom (column + 1) opened rest

/-- The closed string literals of a line, quotes included, from left to right. -/
def literals (line : List Char) : List Span :=
  literalsFrom 0 none line

/-- The run of word characters around a column, and a minus sign before a number. -/
def plainWord? (text : List Char) (column : Nat) : Option Span :=
  let before := ((text.take column).reverse.takeWhile isWordChar).length
  let after := ((text.drop column).takeWhile isWordChar).length
  if before + after = 0 then none
  else
    let start := column - before
    let signed := 0 < start && text[start - 1]? == some '-' && text[start]?.any Char.isDigit
    some ⟨if signed then start - 1 else start, column + after⟩

/-- The word around a column of a line: the string literal that covers it, else the run of word
characters that touches it. -/
def wordSpan? (line : List Char) (column : Nat) : Option Span :=
  if line.length < column then none
  else
    match (literals line).find? (·.covers column) with
    | some literal => some literal
    | none => plainWord? line column

/-- The range of the word at a position. -/
def wordRange? (d : Document) (at' : Position) : Option Range := do
  let line ← d.line? at'.line
  let span ← wordSpan? line at'.character.toNat
  return span.onLine at'.line

/-- The word at a position, cut out by the columns of its characters. They are those of its range on
every line on which they fit 32 bits. -/
def word? (d : Document) (at' : Position) : Option String := do
  let line ← d.line? at'.line
  let span ← wordSpan? line at'.character.toNat
  return String.ofList (span.slice line)

end Document

end EviAssist
