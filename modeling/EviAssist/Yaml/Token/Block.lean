import EviAssist.Yaml.Spot

/-!
# Block scalars

A literal or folded scalar is the indented text below its header. The header may give the
indentation and tell what becomes of the last line breaks.

* `Yaml.BlockHeader`, `Yaml.blockHeader?`: the header.
* `Yaml.block?`: the scalar.
-/

namespace EviAssist.Yaml

/-- What becomes of the line breaks at the end of a block scalar: all but one go, all go, or all
stay. -/
inductive Chomping where
  | clip
  | strip
  | keep
  deriving DecidableEq, Inhabited, Repr

/-- What the header of a block scalar tells. -/
structure BlockHeader where
  chomping : Chomping := .clip
  increment : Option Nat := none
  deriving DecidableEq, Inhabited, Repr

/-- The chomping that a character asks for. -/
def chomping? (c : Char) : Option Chomping :=
  if c = '+' then some .keep else if c = '-' then some .strip else none

/-- The increment that a digit gives; zero is none. -/
def increment? (c : Char) : Option Nat :=
  if c.isDigit ∧ c ≠ '0' then some (c.toNat - '0'.toNat) else none

/-- The indicators of a header, in either order. -/
def blockIndicators : List Spot → BlockHeader × List Spot
  | [] => ({}, [])
  | [x] =>
    match chomping? x.char, increment? x.char with
    | some c, _ => ({ chomping := c }, [])
    | none, some n => ({ increment := some n }, [])
    | none, none => ({}, [x])
  | x :: y :: rest =>
    match chomping? x.char, increment? x.char with
    | some c, _ =>
      match increment? y.char with
      | some n => (⟨c, some n⟩, rest)
      | none => ({ chomping := c }, y :: rest)
    | none, some n =>
      match chomping? y.char with
      | some c => (⟨c, some n⟩, rest)
      | none => ({ increment := some n }, y :: rest)
    | none, none => ({}, x :: y :: rest)

/-- What follows the blanks and the comment at the end of a line, if nothing else stands there. -/
def lineRest? (spots : List Spot) : Option (List Spot) :=
  let afterBlanks := (takeChars isBlank spots).2
  let afterComment :=
    if nextIs (· == '#') afterBlanks then (takeChars (fun c => !isBreak c) afterBlanks).2
    else afterBlanks
  if atLineEnd afterComment then some (afterComment.drop 1) else none

/-- The header of a block scalar after its first indicator, and the lines below. -/
def blockHeader? (spots : List Spot) : Option (BlockHeader × List Spot) := do
  let (header, rest) := blockIndicators spots
  return (header, ← lineRest? rest)

/-- Whether an indentation is not yet reached at a column; one not yet known never is. -/
def isBefore (indent : Option Nat) (column : Nat) : Bool :=
  indent.all (column < ·)

/-- The line breaks of the empty lines that come next, the deepest column on the way, and what
follows the indentation of the next line. -/
def emptyLines (indent : Option Nat) (breaks : List Char) (deepest : Nat) :
    List Spot → Option (List Char × Nat × List Spot)
  | [] => some (breaks, deepest, [])
  | x :: rest =>
    if isBefore indent x.column && x.char == ' ' then emptyLines indent breaks deepest rest
    else if isBefore indent x.column && x.char == '\t' then none
    else if isBreak x.char then
      emptyLines indent (breaks ++ [x.char]) (max deepest x.column) rest
    else some (breaks, max deepest x.column, x :: rest)

/-- What has been read of a block scalar. -/
structure BlockText where
  text : List Char := []
  /-- The break of the last line. -/
  lineBreak : List Char := []
  /-- The breaks of the empty lines after it. -/
  emptyBreaks : List Char := []
  /-- Whether the last line starts with a blank. -/
  startsBlank : Bool := false
  deriving Inhabited, Repr

/-- The text with the breaks before the next line. In a folded scalar a lone break between two
lines that start with no blank is a blank. -/
def BlockText.joined (b : BlockText) (isFolded startsBlank : Bool) : List Char :=
  let between :=
    if isFolded && b.lineBreak = ['\n'] && !b.startsBlank && !startsBlank then
      if b.emptyBreaks.isEmpty then [' '] else []
    else b.lineBreak
  b.text ++ between ++ b.emptyBreaks

/-- The text with those breaks at its end that are to stay. -/
def BlockText.chomped (b : BlockText) : Chomping → List Char
  | .clip => b.text ++ b.lineBreak
  | .strip => b.text
  | .keep => b.text ++ b.lineBreak ++ b.emptyBreaks

/-- The lines of a block scalar that are indented by exactly `indent`. -/
def blockLines (isFolded : Bool) (indent : Nat) (b : BlockText) (spots : List Spot) :
    Option (BlockText × List Spot) :=
  match spots with
  | [] => some (b, [])
  | x :: more =>
    if x.column ≠ indent then some (b, x :: more)
    else
      let startsBlank := isBlank x.char
      let (line, rest) := takeChars (fun c => !isBreak c) (x :: more)
      let lineBreak := (rest.head?.map (·.char)).toList
      match emptyLines (some indent) [] 0 (rest.drop 1) with
      | none => none
      | some (emptyBreaks, _, rest') =>
        if _h : rest'.length < (x :: more).length then
          blockLines isFolded indent
            ⟨b.joined isFolded startsBlank ++ line, lineBreak, emptyBreaks, startsBlank⟩ rest'
        else none
termination_by spots.length
decreasing_by exact _h

/-- A block scalar after its first indicator. `outer` is the indentation around it; a scalar
whose header gives none is indented as its first line is, and more than what is around it. -/
def block? (isFolded : Bool) (outer : Int) (spots : List Spot) :
    Option (List Char × List Spot) := do
  let (header, rest) ← blockHeader? spots
  let indent := header.increment.map fun n => (max outer 0).toNat + n
  let (emptyBreaks, deepest, rest) ← emptyLines indent [] 0 rest
  let indent := indent.getD (max deepest (max (outer + 1) 1).toNat)
  let (b, rest) ← blockLines isFolded indent { emptyBreaks } rest
  return (b.chomped header.chomping, rest)

end EviAssist.Yaml
