/-!
# Places in a YAML text

The meaning of a YAML text depends on columns, so it is read as a list of characters that know
their places. A carriage return, a line feed, both together and a next-line character are one and
the same line break.

* `Yaml.Spot`, `Yaml.locate`: a character with its place, and all of a text.
* `Yaml.isAllowed`: the characters that a text may hold.
* `Yaml.atGap`: whether a word ends here.
-/

namespace EviAssist.Yaml

/-- A character with its place: how many characters, lines, and characters of its line come
before. -/
structure Spot where
  char : Char
  index : Nat
  line : Nat
  column : Nat
  deriving DecidableEq, Inhabited, Repr

/-- The characters that a text may hold. -/
def isAllowed (c : Char) : Bool :=
  let n := c.toNat
  n = 9 || n = 10 || n = 13 || (0x20 ≤ n && n ≤ 0x7e) || n = 0x85 ||
    (0xa0 ≤ n && n ≠ 0xfffe && n ≠ 0xffff)

/-- The characters that end a line. -/
def isBreak (c : Char) : Bool :=
  c == '\n' || c == '\u2028' || c == '\u2029'

/-- Blanks and tabs. -/
def isBlank (c : Char) : Bool :=
  c == ' ' || c == '\t'

/-- The characters of names: letters, digits, underscores and hyphens. -/
def isWordChar (c : Char) : Bool :=
  c.isAlphanum || c == '_' || c == '-'

/-- The characters from a place on. -/
def locateFrom (index line column : Nat) : List Char → List Spot
  | [] => []
  | '\r' :: '\n' :: rest => ⟨'\n', index, line, column⟩ :: locateFrom (index + 2) (line + 1) 0 rest
  | c :: rest =>
    let c := if c = '\r' ∨ c = '\u0085' then '\n' else c
    if isBreak c then ⟨c, index, line, column⟩ :: locateFrom (index + 1) (line + 1) 0 rest
    else ⟨c, index, line, column⟩ :: locateFrom (index + 1) line (column + 1) rest

/-- The characters of a text with their places. -/
def locate (cs : List Char) : List Spot :=
  locateFrom 0 0 0 cs

/-- Whether the next character satisfies a condition. -/
def nextIs (p : Char → Bool) : List Spot → Bool
  | [] => false
  | x :: _ => p x.char

/-- Whether a blank, a line break or the end comes next. -/
def atGap : List Spot → Bool
  | [] => true
  | x :: _ => isBlank x.char || isBreak x.char

/-- Whether a line break or the end comes next. -/
def atLineEnd : List Spot → Bool
  | [] => true
  | x :: _ => isBreak x.char

/-- Whether three times `c` at the start of a line comes next, and then a gap. -/
def atMark (c : Char) : List Spot → Bool
  | x :: y :: z :: rest =>
    x.column == 0 && x.char == c && y.char == c && z.char == c && atGap rest
  | _ => false

/-- Whether the mark between two documents or the mark after one comes next. -/
def atDocumentMark (spots : List Spot) : Bool :=
  atMark '-' spots || atMark '.' spots

/-- The characters as long as they satisfy a condition, and what follows. -/
def takeChars (p : Char → Bool) : List Spot → List Char × List Spot
  | [] => ([], [])
  | x :: rest =>
    if p x.char then
      let (cs, rest) := takeChars p rest
      (x.char :: cs, rest)
    else ([], x :: rest)

end EviAssist.Yaml
