import EviAssist.Text.Numeral
import EviAssist.Yaml.Spot
import EviAssist.Yaml.Token

/-!
# Names, tags and directives

* `Yaml.name?`: the name of an anchor.
* `Yaml.tag?`: a tag, as a handle and what follows it.
* `Yaml.directive?`: a line that tells the version or introduces a handle.
-/

namespace EviAssist.Yaml

/-! ## Anchors -/

/-- The characters that may follow the name of an anchor. -/
def endsName (spots : List Spot) : Bool :=
  atGap spots || nextIs (fun c => "?:,]\x7d%@`".toList.contains c) spots

/-- The name of an anchor or alias after its indicator. -/
def name? (spots : List Spot) : Option (String × List Spot) :=
  let (cs, rest) := takeChars isWordChar spots
  if cs.isEmpty || !endsName rest then none else some (String.ofList cs, rest)

/-! ## Tags -/

/-- The characters of tags; in brackets and in directives there may be some more. -/
def isTagChar (isVerbatim : Bool) (c : Char) : Bool :=
  isWordChar c || ";/?:@&=+$.!~*'()".toList.contains c ||
    (isVerbatim && ",[]".toList.contains c)

/-- The byte in an escape of two digits after a percent sign. -/
def escapedByte? : List Spot → Option (Nat × List Spot)
  | x :: y :: z :: rest => do
    if x.char ≠ '%' then none
    else return ((← Text.hexValue? y.char) * 16 + (← Text.hexValue? z.char), rest)
  | _ => none

/-- How many bytes follow the first byte of a character, and that byte's share of the number. -/
def leadByte? (b : Nat) : Option (Nat × Nat) :=
  if b < 0x80 then some (0, b)
  else if 0xc0 ≤ b ∧ b < 0xe0 then some (1, b - 0xc0)
  else if 0xe0 ≤ b ∧ b < 0xf0 then some (2, b - 0xe0)
  else if 0xf0 ≤ b ∧ b < 0xf8 then some (3, b - 0xf0)
  else none

/-- The number of a character whose next `count` bytes are escaped. -/
def trailBytes? (value : Nat) : Nat → List Spot → Option (Nat × List Spot)
  | 0, spots => some (value, spots)
  | count + 1, spots => do
    let (b, rest) ← escapedByte? spots
    if 0x80 ≤ b ∧ b < 0xc0 then trailBytes? (value * 64 + (b - 0x80)) count rest else none

/-- A character written in escapes. -/
def escapedChar? (spots : List Spot) : Option (Char × List Spot) := do
  let (b, rest) ← escapedByte? spots
  let (count, share) ← leadByte? b
  let (n, rest) ← trailBytes? share count rest
  return (Char.ofNat n, rest)

/-- The characters of a tag, escapes read, and what follows. -/
def tagText? (isVerbatim : Bool) (spots : List Spot) : Option (List Char × List Spot) :=
  match spots with
  | [] => some ([], [])
  | x :: more =>
    if x.char = '%' then
      match escapedChar? (x :: more) with
      | none => none
      | some (c, rest) =>
        if _h : rest.length < (x :: more).length then
          (tagText? isVerbatim rest).map fun (cs, rest) => (c :: cs, rest)
        else none
    else if isTagChar isVerbatim x.char then
      (tagText? isVerbatim more).map fun (cs, rest) => (x.char :: cs, rest)
    else some ([], x :: more)
termination_by spots.length
decreasing_by
  · exact _h
  · exact Nat.lt_succ_self _

/-- What begins a tag: an exclamation mark, some characters of a name, and perhaps a second
mark; the answer tells whether there is one. -/
def handle? : List Spot → Option (List Char × Bool × List Spot)
  | x :: more =>
    if x.char = '!' then
      let (cs, rest) := takeChars isWordChar more
      if nextIs (· == '!') rest then some ('!' :: cs ++ ['!'], true, rest.drop 1)
      else some ('!' :: cs, false, rest)
    else none
  | [] => none

/-- A tag of a name in brackets. -/
def verbatimTag? (spots : List Spot) : Option (Token × List Spot) := do
  let (cs, rest) ← tagText? true spots
  if cs.isEmpty || !nextIs (· == '>') rest then none
  else return (.tag "" (String.ofList cs), rest.drop 1)

/-- A tag that starts with a handle; without one the first exclamation mark is the handle, and
alone it is the whole tag. -/
def shortTag? (spots : List Spot) : Option (Token × List Spot) := do
  let (handle, isClosed, rest) ← handle? spots
  let (cs, rest) ← tagText? false rest
  if isClosed then
    if cs.isEmpty then none else return (.tag (String.ofList handle) (String.ofList cs), rest)
  else
    let suffix := handle.drop 1 ++ cs
    if suffix.isEmpty then return (.tag "" "!", rest)
    else return (.tag "!" (String.ofList suffix), rest)

/-- A tag, and what must follow it: a gap, or a comma inside brackets. -/
def tag? (inFlow : Bool) (spots : List Spot) : Option (Token × List Spot) := do
  let (token, rest) ←
    if nextIs (· == '<') (spots.drop 1) then verbatimTag? (spots.drop 2) else shortTag? spots
  if atGap rest || (inFlow && nextIs (· == ',') rest) then return (token, rest) else none

/-! ## Directives -/

/-- The greatest number of digits in a version. -/
def longestVersion : Nat :=
  9

/-- A number of a version. -/
def versionNumber? (spots : List Spot) : Option (Nat × List Spot) :=
  let (digits, rest) := takeChars Char.isDigit spots
  if digits.isEmpty || longestVersion < digits.length then none
  else some (digits.foldl (fun n d => n * 10 + (d.toNat - '0'.toNat)) 0, rest)

/-- The version in a directive. -/
def version? (spots : List Spot) : Option (Token × List Spot) := do
  let (major, rest) ← versionNumber? (takeChars isBlank spots).2
  if nextIs (· == '.') rest then
    let (minor, rest) ← versionNumber? (rest.drop 1)
    return (.version major minor, rest)
  else none

/-- The handle in a directive, and what it stands for. -/
def tagHandle? (spots : List Spot) : Option (Token × List Spot) := do
  let (handle, isClosed, rest) ← handle? (takeChars isBlank spots).2
  if (!isClosed && handle ≠ ['!']) || !nextIs isBlank rest then none
  else
    let (cs, rest) ← tagText? true (takeChars isBlank rest).2
    if cs.isEmpty || !atGap rest then none
    else return (.tagHandle (String.ofList handle) (String.ofList cs), rest)

/-- A directive after its percent sign. -/
def directive? (spots : List Spot) : Option (Token × List Spot) := do
  let (word, rest) := takeChars isWordChar spots
  if !atGap rest then none
  else if word = "YAML".toList then version? rest
  else if word = "TAG".toList then tagHandle? rest
  else none

end EviAssist.Yaml
