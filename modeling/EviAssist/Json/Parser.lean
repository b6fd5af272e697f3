import EviAssist.Json

/-!
# Reading JSON

Strict RFC 8259: no comments, no trailing commas, no leading zeros, no raw control characters
in strings, and surrogate escapes only in pairs. Arrays and objects nest less than 128 deep, and
a number must not be too great for a double.

* `Json.parse?`: the value written by a text.
-/

namespace EviAssist.Json

/-! ## Tokens -/

/-- The blanks between tokens. -/
def isSpace (c : Char) : Bool :=
  c == ' ' || c == '\t' || c == '\n' || c == '\r'

/-- The characters after the blanks. -/
def skipSpace (cs : List Char) : List Char :=
  cs.dropWhile isSpace

/-- The number written by four hexadecimal digits. -/
def readUnit? (a b c d : Char) : Option Nat :=
  Text.readHex? [a, b, c, d]

/-- The character of an escape of one letter. -/
def shortEscape? : Char → Option Char
  | '"' => some '"'
  | '\\' => some '\\'
  | '/' => some '/'
  | 'b' => some '\x08'
  | 'f' => some '\x0c'
  | 'n' => some '\n'
  | 'r' => some '\r'
  | 't' => some '\t'
  | _ => none

/-- The character that a pair of surrogates stands for. -/
def pairChar (high low : Nat) : Char :=
  Char.ofNat (0x10000 + (high - 0xD800) * 0x400 + (low - 0xDC00))

/-- The text after an opening quote, and what follows the closing one. -/
def readString? : List Char → Option (List Char × List Char)
  | [] => none
  | '"' :: rest => some ([], rest)
  | '\\' :: 'u' :: a :: b :: c :: d :: rest => do
    let unit ← readUnit? a b c d
    if 0xD800 ≤ unit ∧ unit < 0xDC00 then
      match rest with
      | '\\' :: 'u' :: e :: f :: g :: h :: rest' =>
        let low ← readUnit? e f g h
        if 0xDC00 ≤ low ∧ low < 0xE000 then
          let (more, after) ← readString? rest'
          return (pairChar unit low :: more, after)
        else none
      | _ => none
    else if 0xDC00 ≤ unit ∧ unit < 0xE000 then none
    else
      let (more, after) ← readString? rest
      return (Char.ofNat unit :: more, after)
  | '\\' :: c :: rest => do
    let escaped ← shortEscape? c
    let (more, after) ← readString? rest
    return (escaped :: more, after)
  | c :: rest =>
    if c.toNat < 0x20 then none
    else do
      let (more, after) ← readString? rest
      return (c :: more, after)

/-! ## Numbers -/

/-- The digits at the start of the characters, and the rest. -/
def digits (cs : List Char) : List Char × List Char :=
  (cs.takeWhile Char.isDigit, cs.dropWhile Char.isDigit)

/-- The value of the leading digits that fit 64 bits, and the digits after those. -/
def leading : Nat → List Char → Nat × List Char
  | value, [] => (value, [])
  | value, d :: ds =>
    let value' := value * 10 + Text.digitValue d
    if value' < UInt64.size then leading value' ds else (value, d :: ds)

/-- The exponent after its mark: an optional sign and digits. -/
def readExponent? (cs : List Char) : Option (Int × List Char) :=
  let (isNegative, cs) :=
    match cs with
    | '-' :: rest => (true, rest)
    | '+' :: rest => (false, rest)
    | rest => (false, rest)
  match digits cs with
  | ([], _) => none
  | (ds, rest) =>
    let n := Text.natOf ds 0
    some (if isNegative then -n else n, rest)

/-- The greatest exponent that is read as a number; one beyond it is as good as infinite. -/
def greatestExponent : Nat :=
  2147483647

/-- The double written by a significand and two exponents. -/
def toReal? (significand : Nat) (shift exponent : Int) : Option Binary64 :=
  if greatestExponent < exponent.natAbs then
    if significand ≠ 0 ∧ 0 < exponent then none else some .zero
  else Binary64.ofDecimal? significand (shift + exponent)

/-- The rest of a number after its whole part: a fraction, an exponent, both or none. -/
def readFraction? (isNegative : Bool) (whole : List Char) (cs : List Char) :
    Option (Number × List Char) := do
  let (significand, dropped) := leading 0 whole
  let (significand, shift, cs, isWhole) ←
    match cs with
    | '.' :: rest =>
      match digits rest with
      | ([], _) => none
      | (ds, rest') =>
        let (s, left) := leading significand ds
        some (s, (dropped.length : Int) - (ds.length - left.length : Nat), rest', false)
    | _ => some (significand, (dropped.length : Int), cs, true)
  match cs with
  | c :: rest =>
    if c = 'e' ∨ c = 'E' then
      let (exponent, rest') ← readExponent? rest
      return (.real isNegative (← toReal? significand shift exponent), rest')
    else finish significand shift cs isWhole
  | [] => finish significand shift cs isWhole
where
  /-- A number without an exponent. -/
  finish (significand : Nat) (shift : Int) (cs : List Char) (isWhole : Bool) :
      Option (Number × List Char) :=
    if isWhole ∧ shift = 0 ∧ isNegative = false then some (.natural significand, cs)
    else if isWhole ∧ shift = 0 ∧ 0 < significand ∧ significand ≤ UInt64.size / 2 then
      some (.negative significand, cs)
    else (toReal? significand shift 0).map fun x => (.real isNegative x, cs)

/-- The number at the start of the characters. -/
def readNumber? (cs : List Char) : Option (Number × List Char) :=
  let (isNegative, cs) :=
    match cs with
    | '-' :: rest => (true, rest)
    | rest => (false, rest)
  match digits cs with
  | ([], _) => none
  | (['0'], rest) => readFraction? isNegative ['0'] rest
  | ('0' :: _, _) => none
  | (whole, rest) => readFraction? isNegative whole rest

/-! ## Values -/

/-- The deepest that arrays and objects may nest. -/
def deepest : Nat :=
  127

mutual

/-- The value at the start of the characters. The first number bounds the steps, the second how
much deeper the value may nest. -/
def readValue? : Nat → Nat → List Char → Option (Json × List Char)
  | 0, _, _ => none
  | fuel + 1, depth, cs =>
    match skipSpace cs with
    | 'n' :: 'u' :: 'l' :: 'l' :: rest => some (.null, rest)
    | 't' :: 'r' :: 'u' :: 'e' :: rest => some (.bool true, rest)
    | 'f' :: 'a' :: 'l' :: 's' :: 'e' :: rest => some (.bool false, rest)
    | '"' :: rest => (readString? rest).map fun (s, after) => (.text (String.ofList s), after)
    | '[' :: rest =>
      match depth with
      | 0 => none
      | depth + 1 =>
        match skipSpace rest with
        | ']' :: after => some (.array [], after)
        | _ => (readItems? fuel depth rest).map fun (items, after) => (.array items, after)
    | '{' :: rest =>
      match depth with
      | 0 => none
      | depth + 1 =>
        match skipSpace rest with
        | '}' :: after => some (.object [], after)
        | _ => (readMembers? fuel depth rest).map fun (members, after) => (ofList members, after)
    | cs => (readNumber? cs).map fun (n, after) => (.number n, after)

/-- The items of an array up to its closing bracket, at least one. -/
def readItems? : Nat → Nat → List Char → Option (List Json × List Char)
  | 0, _, _ => none
  | fuel + 1, depth, cs => do
    let (item, rest) ← readValue? fuel depth cs
    match skipSpace rest with
    | ',' :: rest' =>
      let (items, after) ← readItems? fuel depth rest'
      return (item :: items, after)
    | ']' :: after => return ([item], after)
    | _ => none

/-- The members of an object up to its closing brace, at least one. -/
def readMembers? : Nat → Nat → List Char → Option (List (String × Json) × List Char)
  | 0, _, _ => none
  | fuel + 1, depth, cs => do
    match skipSpace cs with
    | '"' :: rest =>
      let (name, rest) ← readString? rest
      match skipSpace rest with
      | ':' :: rest =>
        let (value, rest) ← readValue? fuel depth rest
        let member := (String.ofList name, value)
        match skipSpace rest with
        | ',' :: rest' =>
          let (members, after) ← readMembers? fuel depth rest'
          return (member :: members, after)
        | '}' :: after => return ([member], after)
        | _ => none
      | _ => none
    | _ => none

end

/-- The value written by the characters, with nothing but blanks around it. -/
def parse? (cs : List Char) : Option Json := do
  let (value, rest) ← readValue? (2 * cs.length + 2) deepest cs
  if skipSpace rest = [] then some value else none

end EviAssist.Json
