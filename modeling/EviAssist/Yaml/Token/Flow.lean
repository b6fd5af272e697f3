import EviAssist.Text.Numeral
import EviAssist.Yaml.Spot

/-!
# Plain and quoted scalars

A scalar may go over several lines; what stands between two of its words, blanks or line breaks,
is folded.

* `Yaml.Gap`: blanks and line breaks between two words, and what they fold to.
* `Yaml.plain?`, `Yaml.singleQuoted?`, `Yaml.doubleQuoted?`: the scalars.
-/

namespace EviAssist.Yaml

/-! ## Gaps -/

/-- What stands between two words of a scalar. -/
structure Gap where
  /-- The blanks before the first line break. -/
  blanks : List Char := []
  hasBroken : Bool := false
  /-- The first line break, unless it does not count. -/
  first : List Char := []
  more : List Char := []
  deriving Inhabited, Repr

/-- A gap with one more blank or line break; blanks count only before the first line break. -/
def Gap.add (g : Gap) (c : Char) : Gap :=
  if isBreak c then
    if g.hasBroken then { g with more := g.more ++ [c] }
    else { hasBroken := true, first := [c] }
  else if g.hasBroken then g
  else { g with blanks := g.blanks ++ [c] }

/-- What a gap folds to: a lone line feed to a blank, of several line feeds the first is left
out. -/
def Gap.text (g : Gap) : List Char :=
  if g.hasBroken then
    if g.first = ['\n'] then if g.more.isEmpty then [' '] else g.more
    else g.first ++ g.more
  else g.blanks

/-! ## Plain scalars -/

/-- The characters that end a plain scalar inside brackets. -/
def isFlowIndicator (c : Char) : Bool :=
  c == ',' || c == '[' || c == ']' || c == '\x7b' || c == '\x7d'

/-- Whether a plain scalar ends before a character. -/
def endsPlain (inFlow : Bool) (c : Char) (rest : List Spot) : Bool :=
  (c == ':' && atGap rest) || (inFlow && isFlowIndicator c)

/-- Whether a character is a colon that must not stand here. -/
def isBadColon (inFlow : Bool) (c : Char) (rest : List Spot) : Bool :=
  inFlow && c == ':' && nextIs (fun d => isFlowIndicator d || d == '?') rest

/-- The rest of a plain scalar: its text, whether a line break follows, and what comes then.
`gap` is what was passed since its last character. -/
def plainFrom (inFlow : Bool) (indent : Int) (text : List Char) (gap : Option Gap) :
    List Spot → Option (List Char × Bool × List Spot)
  | [] => some (text, gap.any (·.hasBroken), [])
  | x :: rest =>
    let stopped := some (text, gap.any (·.hasBroken), x :: rest)
    if isBlank x.char || isBreak x.char then
      let g := gap.getD {}
      if g.hasBroken && x.column < indent && x.char == '\t' then none
      else plainFrom inFlow indent text (some (g.add x.char)) rest
    else if gap.isSome &&
        ((!inFlow && x.column < indent) || atDocumentMark (x :: rest) || x.char == '#') then stopped
    else if isBadColon inFlow x.char rest then none
    else if endsPlain inFlow x.char rest then stopped
    else plainFrom inFlow indent (text ++ (gap.map Gap.text).getD [] ++ [x.char]) none rest

/-- A plain scalar. -/
def plain? (inFlow : Bool) (indent : Int) (spots : List Spot) :
    Option (List Char × Bool × List Spot) :=
  plainFrom inFlow indent [] none spots

/-! ## Quoted scalars -/

/-- The rest of a single-quoted scalar; inside, a quote is written twice. -/
def singleFrom (text : List Char) (gap : Option Gap) : List Spot → Option (List Char × List Spot)
  | [] => none
  | x :: rest =>
    if isBlank x.char || isBreak x.char then singleFrom text (some ((gap.getD {}).add x.char)) rest
    else if gap.isSome && atDocumentMark (x :: rest) then none
    else
      let text := text ++ (gap.map Gap.text).getD []
      if x.char = '\'' then
        match rest with
        | y :: rest' =>
          if y.char = '\'' then singleFrom (text ++ ['\'']) none rest' else some (text, y :: rest')
        | [] => some (text, [])
      else singleFrom (text ++ [x.char]) none rest

/-- A single-quoted scalar after its quote. -/
def singleQuoted? (spots : List Spot) : Option (List Char × List Spot) :=
  singleFrom [] none spots

/-- What a character stands for after a backslash. -/
def escaped? (c : Char) : Option Char :=
  [('0', '\x00'), ('a', '\x07'), ('b', '\x08'), ('t', '\t'), ('\t', '\t'), ('n', '\n'),
    ('v', '\x0b'), ('f', '\x0c'), ('r', '\r'), ('e', '\x1b'), (' ', ' '), ('"', '"'), ('/', '/'),
    ('\\', '\\'), ('N', '\u0085'), ('_', '\u00a0'), ('L', '\u2028'), ('P', '\u2029')].lookup c

/-- How many digits of a character's number follow after a backslash and a letter. -/
def digitCount? (c : Char) : Option Nat :=
  [('x', 2), ('u', 4), ('U', 8)].lookup c

/-- The character with a number. -/
def charOf? (n : Nat) : Option Char :=
  if n.isValidChar then some (Char.ofNat n) else none

/-- What was read last in a double-quoted scalar. -/
inductive QuotedState where
  | word
  | gap (g : Gap)
  | backslash
  | digits (left value : Nat)
  deriving Inhabited, Repr

/-- The rest of a double-quoted scalar. -/
def doubleFrom (text : List Char) : QuotedState → List Spot → Option (List Char × List Spot)
  | _, [] => none
  | .backslash, x :: rest =>
    if isBreak x.char then doubleFrom text (.gap { hasBroken := true }) rest
    else
      match escaped? x.char, digitCount? x.char with
      | some c, _ => doubleFrom (text ++ [c]) .word rest
      | none, some n => doubleFrom text (.digits n 0) rest
      | none, none => none
  | .digits left value, x :: rest => do
    let value := value * 16 + (← Text.hexValue? x.char)
    if 1 < left then doubleFrom text (.digits (left - 1) value) rest
    else doubleFrom (text ++ [← charOf? value]) .word rest
  | .gap g, x :: rest =>
    if isBlank x.char || isBreak x.char then doubleFrom text (.gap (g.add x.char)) rest
    else if atDocumentMark (x :: rest) then none
    else if x.char = '"' then some (text ++ g.text, rest)
    else if x.char = '\\' then doubleFrom (text ++ g.text) .backslash rest
    else doubleFrom (text ++ g.text ++ [x.char]) .word rest
  | .word, x :: rest =>
    if isBlank x.char || isBreak x.char then doubleFrom text (.gap (Gap.add {} x.char)) rest
    else if x.char = '"' then some (text, rest)
    else if x.char = '\\' then doubleFrom text .backslash rest
    else doubleFrom (text ++ [x.char]) .word rest

/-- A double-quoted scalar after its quote. -/
def doubleQuoted? (spots : List Spot) : Option (List Char × List Spot) :=
  doubleFrom [] .word spots

end EviAssist.Yaml
