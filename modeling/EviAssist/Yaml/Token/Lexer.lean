import EviAssist.Yaml.Token.Block
import EviAssist.Yaml.Token.Flow
import EviAssist.Yaml.Token.Name

/-!
# The tokens of a YAML text

Outside brackets indentation opens and closes blocks. A key without indicator is known only by the
colon after it, so the places where one may have begun are kept: one for each level of brackets, on
one line, and not too far back.

* `Yaml.Lexer`: the open blocks, the possible keys, and the tokens so far.
* `Yaml.Lexer.next?`: reads one token.
* `Yaml.tokens?`: the tokens of a text.
-/

namespace EviAssist.Yaml

/-- A place where a key may have begun: before which token, and whether a key must be here. -/
structure KeyPlace where
  number : Nat
  spot : Spot
  isRequired : Bool
  deriving DecidableEq, Inhabited, Repr

/-- The open blocks, the possible keys, and the tokens so far. -/
structure Lexer where
  /-- The column of the innermost block. -/
  indent : Int := -1
  /-- The columns of the blocks around it, the nearest first. -/
  outer : List Int := []
  /-- The possible key of the innermost brackets. -/
  possible : Option KeyPlace := none
  /-- The possible keys outside of them, for each level of brackets, the nearest first. -/
  possibleOutside : List (Option KeyPlace) := []
  /-- Whether a key may begin here. -/
  allowsKey : Bool := true
  tokens : Array Token := #[]
  deriving Inhabited, Repr

namespace Lexer

/-- Whether the place is inside brackets. -/
def inFlow (l : Lexer) : Bool :=
  !l.possibleOutside.isEmpty

/-- Adds a token. -/
def emit (l : Lexer) (token : Token) : Lexer :=
  { l with tokens := l.tokens.push token }

/-! ## Possible keys -/

/-- How far back a key may begin. -/
def longestKey : Nat :=
  1024

/-- Whether a place is too far back for a key that ends at `spot`. -/
def KeyPlace.isStale (key : KeyPlace) (spot : Spot) : Bool :=
  key.spot.line < spot.line || key.spot.index + longestKey < spot.index

/-- A possible key, unless it is too far back; one that must be there is an error then. -/
def fresh? (spot : Spot) : Option KeyPlace → Option (Option KeyPlace)
  | none => some none
  | some key =>
    if !KeyPlace.isStale key spot then some (some key)
    else if key.isRequired then none
    else some none

/-- Without the possible keys that are too far back. -/
def dropStale? (l : Lexer) (spot : Spot) : Option Lexer := do
  return { l with
    possible := ← fresh? spot l.possible
    possibleOutside := ← l.possibleOutside.mapM (fresh? spot) }

/-- Without a possible key here; one that must be there is an error. -/
def dropKey? (l : Lexer) : Option Lexer :=
  if l.possible.any (·.isRequired) then none else some { l with possible := none }

/-- A key may begin here. -/
def saveKey? (l : Lexer) (spot : Spot) : Option Lexer :=
  if l.allowsKey then
    l.dropKey?.map fun l =>
      { l with possible := some ⟨l.tokens.size, spot, !l.inFlow && l.indent = spot.column⟩ }
  else some l

/-! ## Blocks -/

/-- Opens a block at a column if it is deeper than the innermost one. The block's token stands
before the token with the given number. -/
def openBlock (l : Lexer) (column number : Nat) (token : Token) : Lexer :=
  if !l.inFlow && l.indent < column then
    { l with
      indent := column
      outer := l.indent :: l.outer
      tokens := l.tokens.insertIdxIfInBounds number token }
  else l

/-- Closes the blocks that are deeper than a column: the innermost one and those around it. -/
def closeDeeper (column : Int) (indent : Int) :
    List Int → Array Token → Int × List Int × Array Token
  | [], tokens => (indent, [], tokens)
  | next :: outer, tokens =>
    if column < indent then closeDeeper column next outer (tokens.push .blockEnd)
    else (indent, next :: outer, tokens)

/-- Closes the blocks that are deeper than a column. -/
def closeBlocks (l : Lexer) (column : Int) : Lexer :=
  if l.inFlow then l
  else
    let (indent, outer, tokens) := closeDeeper column l.indent l.outer l.tokens
    { l with indent, outer, tokens }

/-! ## Single tokens -/

/-- Passes blanks, line breaks and comments. At the start of a line a byte order mark is passed
too; a tab is, where no key may begin. -/
def skip (inFlow allowsKey inComment : Bool) : List Spot → Bool × List Spot
  | [] => (allowsKey, [])
  | x :: rest =>
    if isBreak x.char then skip inFlow (allowsKey || !inFlow) false rest
    else if inComment then skip inFlow allowsKey true rest
    else if x.column == 0 && x.char == '\ufeff' then skip inFlow allowsKey false rest
    else if x.char == ' ' || ((inFlow || !allowsKey) && x.char == '\t') then
      skip inFlow allowsKey false rest
    else if x.char == '#' then skip inFlow allowsKey true rest
    else (allowsKey, x :: rest)

/-- A directive, which fills its line. -/
def directive? (l : Lexer) (rest : List Spot) : Option (Lexer × List Spot) := do
  let l ← (l.closeBlocks (-1)).dropKey?
  let (token, rest) ← Yaml.directive? rest
  return ({ l with allowsKey := false }.emit token, ← lineRest? rest)

/-- A mark of three characters before or after a document. -/
def documentMark? (l : Lexer) (token : Token) (rest : List Spot) : Option (Lexer × List Spot) := do
  let l ← (l.closeBlocks (-1)).dropKey?
  return ({ l with allowsKey := false }.emit token, rest.drop 2)

/-- An opening bracket. -/
def openFlow? (l : Lexer) (spot : Spot) (token : Token) : Option Lexer := do
  let l ← l.saveKey? spot
  return { l with
    possible := none
    possibleOutside := l.possible :: l.possibleOutside
    allowsKey := true }.emit token

/-- A closing bracket. -/
def closeFlow? (l : Lexer) (token : Token) : Option Lexer := do
  let l ← l.dropKey?
  return { l with
    possible := l.possibleOutside.headD none
    possibleOutside := l.possibleOutside.drop 1
    allowsKey := false }.emit token

/-- A comma inside brackets. -/
def flowEntry? (l : Lexer) : Option Lexer := do
  return { ← l.dropKey? with allowsKey := true }.emit .flowEntry

/-- A block that starts with an indicator here. -/
def startBlock? (l : Lexer) (spot : Spot) (token : Token) : Option Lexer :=
  if l.inFlow then some l
  else if l.allowsKey then some (l.openBlock spot.column l.tokens.size token)
  else none

/-- A hyphen before an entry. -/
def blockEntry? (l : Lexer) (spot : Spot) : Option Lexer := do
  let l ← (← l.startBlock? spot .blockSequence).dropKey?
  return { l with allowsKey := true }.emit .blockEntry

/-- A question mark before a key. -/
def key? (l : Lexer) (spot : Spot) : Option Lexer := do
  let l ← (← l.startBlock? spot .blockMapping).dropKey?
  return { l with allowsKey := !l.inFlow }.emit .key

/-- A colon before a value. The possible key that it belongs to becomes a key. -/
def value? (l : Lexer) (spot : Spot) : Option Lexer :=
  match l.possible with
  | some key =>
    let l := { l with tokens := l.tokens.insertIdxIfInBounds key.number .key }
    let l := l.openBlock key.spot.column key.number .blockMapping
    some ({ l with possible := none, allowsKey := false }.emit .value)
  | none => do
    let l ← l.startBlock? spot .blockMapping
    return { l with allowsKey := !l.inFlow }.emit .value

/-- A token with which a key may begin, and after which none may. -/
def word? (l : Lexer) (spot : Spot) (read : Option (Token × List Spot)) :
    Option (Lexer × List Spot) := do
  let l ← l.saveKey? spot
  let (token, rest) ← read
  return ({ l with allowsKey := false }.emit token, rest)

/-- A token of a scalar. -/
def scalarOf (style : Style) (read : Option (List Char × List Spot)) :
    Option (Token × List Spot) :=
  read.map fun (text, rest) => (.scalar style (String.ofList text), rest)

/-- A literal or folded scalar. -/
def blockScalar? (l : Lexer) (style : Style) (rest : List Spot) : Option (Lexer × List Spot) := do
  let l ← l.dropKey?
  let (token, rest) ← scalarOf style (block? (style = .folded) l.indent rest)
  return ({ l with allowsKey := true }.emit token, rest)

/-- A plain scalar. After a line break at its end a key may begin. -/
def plainScalar? (l : Lexer) (spot : Spot) (spots : List Spot) : Option (Lexer × List Spot) := do
  let l ← l.saveKey? spot
  let (text, hasBroken, rest) ← plain? l.inFlow (l.indent + 1) spots
  return ({ l with allowsKey := hasBroken }.emit (.scalar .plain (String.ofList text)), rest)

/-- Whether a plain scalar may begin with a character. It does not begin with a tab, which is
met here only where a tab may not be passed. -/
def startsPlain (inFlow : Bool) (c : Char) (rest : List Spot) : Bool :=
  !"\t-?:,[]\x7b\x7d#&*!|>'\"%@`".toList.contains c || (c == '-' && !nextIs isBlank rest) ||
    (!inFlow && (c == '?' || c == ':') && !atGap rest)

/-- Reads the token that starts with `spot`. -/
def token? (l : Lexer) (spot : Spot) (rest : List Spot) : Option (Lexer × List Spot) :=
  let spots := spot :: rest
  let c := spot.char
  if spot.column == 0 && c == '%' then l.directive? rest
  else if atMark '-' spots then l.documentMark? .documentStart rest
  else if atMark '.' spots then l.documentMark? .documentEnd rest
  else if c == '[' then (l.openFlow? spot .flowSequence).map (·, rest)
  else if c == '\x7b' then (l.openFlow? spot .flowMapping).map (·, rest)
  else if c == ']' then (l.closeFlow? .flowSequenceEnd).map (·, rest)
  else if c == '\x7d' then (l.closeFlow? .flowMappingEnd).map (·, rest)
  else if c == ',' then l.flowEntry?.map (·, rest)
  else if c == '-' && atGap rest then (l.blockEntry? spot).map (·, rest)
  else if c == '?' && (l.inFlow || atGap rest) then (l.key? spot).map (·, rest)
  else if c == ':' && (l.inFlow || atGap rest) then (l.value? spot).map (·, rest)
  else if c == '*' then l.word? spot ((name? rest).map fun (name, rest) => (.alias name, rest))
  else if c == '&' then l.word? spot ((name? rest).map fun (name, rest) => (.anchor name, rest))
  else if c == '!' then l.word? spot (tag? l.inFlow spots)
  else if c == '|' && !l.inFlow then l.blockScalar? .literal rest
  else if c == '>' && !l.inFlow then l.blockScalar? .folded rest
  else if c == '\'' then l.word? spot (scalarOf .quoted (singleQuoted? rest))
  else if c == '"' then l.word? spot (scalarOf .quoted (doubleQuoted? rest))
  else if startsPlain l.inFlow c rest then l.plainScalar? spot spots
  else none

/-- Reads the next token; at the end all blocks are closed. -/
def next? (l : Lexer) (spots : List Spot) : Option (Lexer × List Spot) :=
  let (allowsKey, spots) := skip l.inFlow l.allowsKey false spots
  let l := { l with allowsKey }
  match spots with
  | [] => (l.closeBlocks (-1)).dropKey?.map (·, [])
  | spot :: rest => do (← (l.dropStale? spot)).closeBlocks spot.column |>.token? spot rest

/-- Reads all tokens. -/
def run? (l : Lexer) (spots : List Spot) : Option Lexer :=
  match l.next? spots with
  | none => none
  | some (l', rest) =>
    if rest.isEmpty then (l'.closeBlocks (-1)).dropKey?
    else if _h : rest.length < spots.length then l'.run? rest
    else none
termination_by spots.length

end Lexer

/-- The tokens of a text. -/
def tokens? (cs : List Char) : Option (List Token) :=
  if cs.all isAllowed then (Lexer.run? {} (locate cs)).map (·.tokens.toList) else none

end EviAssist.Yaml
