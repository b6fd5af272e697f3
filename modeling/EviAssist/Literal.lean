import EviAssist.Text.Numeral

/-!
# Literals and sigils

Hovering over a constant answers its type without asking evi.

* `Literal.type?`: the type of a word that is a constant.
* `Literal.variableName?`: the name after a variable's sigil.
* `Literal.isIdentifier`: the words that can name a function.
-/

namespace EviAssist.Literal

/-- The digits after an optional minus sign. -/
def unsigned : List Char → List Char
  | '-' :: cs => cs
  | cs => cs

/-- At least one character, and all of them digits of the given kind. -/
def isRun (isDigit : Char → Bool) (cs : List Char) : Bool :=
  !cs.isEmpty && cs.all isDigit

/-- Decimal digits, or digits of another base after its mark. -/
def isUnsignedInteger : List Char → Bool
  | '0' :: mark :: rest =>
    isRun Char.isDigit ('0' :: mark :: rest) ||
      ((mark == 'x' || mark == 'X') && isRun (fun c => (Text.hexValue? c).isSome) rest) ||
      ((mark == 'c' || mark == 'C') && isRun (fun c => '0' ≤ c && c ≤ '7') rest) ||
      ((mark == 'b' || mark == 'B') && isRun (fun c => c == '0' || c == '1') rest)
  | cs => isRun Char.isDigit cs

/-- Decimal digits, and after a point more of them. -/
def isUnsignedDecimal (cs : List Char) : Bool :=
  isRun Char.isDigit (cs.takeWhile Char.isDigit) &&
    match cs.dropWhile Char.isDigit with
    | [] => true
    | '.' :: rest => isRun Char.isDigit rest
    | _ => false

/-- What may follow the opening quote: characters other than quotes and backslashes, and pairs
of a backslash and a character of the same line, up to a quote that ends the word. -/
def isStringRest : List Char → Bool
  | [] => false
  | '\\' :: c :: rest => c != '\n' && isStringRest rest
  | ['"'] => true
  | c :: rest => c != '"' && c != '\\' && isStringRest rest

/-- A whole string literal. -/
def isString : List Char → Bool
  | '"' :: rest => isStringRest rest
  | _ => false

/-- The type of a word that is a constant. -/
def type? (word : String) : Option String :=
  let cs := word.toList
  if isUnsignedInteger (unsigned cs) then some "i32"
  else if isUnsignedDecimal (unsigned cs) then some "dbl"
  else if isString cs then some "chr*"
  else none

/-- The name after the sigil `$`, when there is one. -/
def variableName? (word : String) : Option String :=
  match word.toList with
  | '$' :: c :: cs => some (String.ofList (c :: cs))
  | _ => none

/-- A letter or underscore, then letters, digits and underscores. -/
def isIdentifier : List Char → Bool
  | [] => false
  | c :: cs => (c.isAlpha || c == '_') && cs.all fun d => d.isAlphanum || d == '_'

end EviAssist.Literal
