import EviAssist.Json
import EviAssist.Text.Search

/-!
# Writing JSON

* `Json.compact`: a value without blanks.
* `Json.pretty`: a value with one item or member a line, two blanks deeper each time.
-/

namespace EviAssist.Json

/-- A lower-case hexadecimal digit. -/
def lowerHexDigit (n : Nat) : Char :=
  if n < 10 then Char.ofNat ('0'.toNat + n) else Char.ofNat ('a'.toNat + (n - 10))

/-- One character inside quotes. -/
def escapeChar (c : Char) : List Char :=
  if c = '"' then ['\\', '"']
  else if c = '\\' then ['\\', '\\']
  else if c = '\x08' then ['\\', 'b']
  else if c = '\x0c' then ['\\', 'f']
  else if c = '\n' then ['\\', 'n']
  else if c = '\r' then ['\\', 'r']
  else if c = '\t' then ['\\', 't']
  else if c.toNat < 0x20 then
    ['\\', 'u', '0', '0', lowerHexDigit (c.toNat / 16), lowerHexDigit (c.toNat % 16)]
  else [c]

/-- A text in quotes. -/
def writeText (s : String) : List Char :=
  ['"'] ++ s.toList.flatMap escapeChar ++ ['"']

/-- The text of a number. -/
def Number.write : Number → List Char
  | natural n => Text.decimal n
  | negative n => '-' :: Text.decimal n
  | real isNegative x => if isNegative then '-' :: x.text else x.text

mutual

/-- A value without blanks. -/
def write : Json → List Char
  | null => "null".toList
  | bool true => "true".toList
  | bool false => "false".toList
  | number n => n.write
  | text s => writeText s
  | array items => ['['] ++ Text.joinWith [','] (writeItems items) ++ [']']
  | object members => ['{'] ++ Text.joinWith [','] (writeMembers members) ++ ['}']

/-- Each item without blanks. -/
def writeItems : List Json → List (List Char)
  | [] => []
  | item :: items => write item :: writeItems items

/-- Each member without blanks. -/
def writeMembers : List (String × Json) → List (List Char)
  | [] => []
  | (name, value) :: members => (writeText name ++ ':' :: write value) :: writeMembers members

end

/-- The text of a value without blanks. -/
def compact (value : Json) : String :=
  String.ofList value.write

/-- A new line at a depth. -/
def newLine (depth : Nat) : List Char :=
  '\n' :: List.replicate (2 * depth) ' '

/-- Parts in brackets, each on a line of its own. -/
def block (opening closing : Char) (depth : Nat) (parts : List (List Char)) : List Char :=
  if parts.isEmpty then [opening, closing]
  else
    opening :: newLine (depth + 1) ++ Text.joinWith (',' :: newLine (depth + 1)) parts ++
      newLine depth ++ [closing]

mutual

/-- A value at a depth. -/
def writePretty (depth : Nat) : Json → List Char
  | array items => block '[' ']' depth (prettyItems (depth + 1) items)
  | object members => block '{' '}' depth (prettyMembers (depth + 1) members)
  | value => value.write

/-- Each item at a depth. -/
def prettyItems (depth : Nat) : List Json → List (List Char)
  | [] => []
  | item :: items => writePretty depth item :: prettyItems depth items

/-- Each member at a depth. -/
def prettyMembers (depth : Nat) : List (String × Json) → List (List Char)
  | [] => []
  | (name, value) :: members =>
    (writeText name ++ ':' :: ' ' :: writePretty depth value) :: prettyMembers depth members

end

/-- The text of a value over several lines. -/
def pretty (value : Json) : String :=
  String.ofList (writePretty 0 value)

end EviAssist.Json
