/-!
# Numerals

* `Text.natOf`: the value of a sequence of decimal digits.
* `Text.readUInt32?`: an unsigned 32-bit number, with an optional plus sign.
* `Text.hexValue?`, `Text.hexDigit`: one hexadecimal digit.
-/

namespace EviAssist.Text

/-- The value of a decimal digit. -/
def digitValue (c : Char) : Nat :=
  c.toNat - '0'.toNat

/-- The value of a sequence of decimal digits, after a value already read. -/
def natOf (digits : List Char) (start : Nat) : Nat :=
  digits.foldl (fun value c => value * 10 + digitValue c) start

/-- A natural number written with at least one ASCII digit and nothing else. -/
def readNat? (cs : List Char) : Option Nat :=
  if cs ≠ [] ∧ cs.all Char.isDigit then some (natOf cs 0) else none

/-- A natural number with an optional plus sign before it. -/
def readUnsigned? : List Char → Option Nat
  | '+' :: cs => readNat? cs
  | cs => readNat? cs

/-- A 32-bit number: an optional plus sign, ASCII digits, and a value below `2 ^ 32`. -/
def readUInt32? (cs : List Char) : Option UInt32 :=
  match readUnsigned? cs with
  | some n => if n < UInt32.size then some (UInt32.ofNat n) else none
  | none => none

/-- The value of a hexadecimal digit of either case. -/
def hexValue? (c : Char) : Option Nat :=
  if '0' ≤ c ∧ c ≤ '9' then some (c.toNat - '0'.toNat)
  else if 'a' ≤ c ∧ c ≤ 'f' then some (c.toNat - 'a'.toNat + 10)
  else if 'A' ≤ c ∧ c ≤ 'F' then some (c.toNat - 'A'.toNat + 10)
  else none

/-- The upper-case hexadecimal digit of a value below sixteen. -/
def hexDigit (n : Nat) : Char :=
  if n < 10 then Char.ofNat ('0'.toNat + n) else Char.ofNat ('A'.toNat + (n - 10))

/-- The value of a sequence of hexadecimal digits. -/
def readHex? (cs : List Char) : Option Nat :=
  cs.foldl (fun value c => do return (← value) * 16 + (← hexValue? c)) (some 0)

/-- The decimal digits of a number. -/
def decimal (n : Nat) : List Char :=
  Nat.toDigits 10 n

end EviAssist.Text
