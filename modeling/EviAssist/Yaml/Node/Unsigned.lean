import EviAssist.Text.Numeral
import EviAssist.Text.Search
import EviAssist.Yaml.Node

/-!
# Numbers in YAML

* `Yaml.unsigned?`: a whole number in decimal, hexadecimal, octal or binary digits.
-/

namespace EviAssist.Yaml

/-- The value of digits to a base; there is at least one. -/
def digits? (base : Nat) (cs : List Char) : Option Nat :=
  if cs.isEmpty then none
  else
    cs.foldlM (fun n c => do
      let digit ← Text.hexValue? c
      if digit < base then some (n * base + digit) else none) 0

/-- The bases with a mark of their own. -/
def markedBases : List (String × Nat) :=
  [("0x", 16), ("0o", 8), ("0b", 2)]

/-- Whether some digits are not a number because they start with an idle zero. -/
def hasIdleZero (cs : List Char) : Bool :=
  1 < cs.length && cs.head? == some '0' && cs.all Char.isDigit

/-- A whole number less than `bound`, with or without a plus sign. -/
def unsigned? (bound : Nat) (text : String) : Option Nat :=
  let cs := text.toList
  let unsigned := if cs.head? == some '+' then cs.drop 1 else cs
  let marked := markedBases.findSome? fun (mark, base) => do
    digits? base (← Text.afterStart? mark.toList unsigned)
  let found := marked.or (if hasIdleZero unsigned then none else digits? 10 unsigned)
  found.filter (· < bound)

/-- A whole number less than `bound`. -/
def Node.unsigned? (bound : Nat) : Node → Option Nat
  | .scalar tag style text => if isBare "int" tag style then Yaml.unsigned? bound text else none
  | _ => none

end EviAssist.Yaml
