import EviAssist.Position
import EviAssist.Text.Blank

/-!
# Call sites

The call that a cursor stands in is found by reading backwards from the cursor to the
parenthesis that is still open, counting the commas passed on the way at the outermost level.

* `CallSite.textBefore`: the text up to a position.
* `CallSite.find?`: the called name and the index of the argument.
-/

namespace EviAssist

/-- A called name and the zero-based index of an argument. -/
structure CallSite where
  callee : String
  argument : Nat
  deriving DecidableEq, Inhabited, Repr

namespace CallSite

/-- The text up to a position: the lines before it, each with a line feed, and the start of its
own line. -/
def before : List (List Char) → Nat → Nat → List Char
  | [], _, _ => []
  | line :: _, 0, character => line.take character
  | line :: more, number + 1, character => line ++ '\n' :: before more number character

/-- The text up to a position of a document's text. -/
def textBefore (text : String) (at' : Position) : List Char :=
  before (Text.lines text) at'.line.toNat at'.character.toNat

/-- How many brackets of each kind were closed and not yet opened on the way back. -/
structure Nesting where
  parens : Nat := 0
  brackets : Int := 0
  braces : Int := 0
  deriving DecidableEq, Repr

/-- Whether a comma here separates arguments of the call. -/
def Nesting.isOutermost (n : Nesting) : Bool :=
  n.parens == 0 && n.brackets == 0 && n.braces == 0

/-- Reads backwards to the open parenthesis: the commas passed, and what stands before it. A
quote hides everything up to the next quote of its kind, `quote` being the one not yet met
again. -/
def arguments? : Option Char → Nesting → Nat → List Char → Option (Nat × List Char)
  | _, _, _, [] => none
  | some quote, n, commas, c :: cs =>
    arguments? (if c = quote then none else some quote) n commas cs
  | none, n, commas, c :: cs =>
    if c = '(' then
      match n.parens with
      | 0 => some (commas, cs)
      | parens + 1 => arguments? none { n with parens } commas cs
    else if c = ')' then arguments? none { n with parens := n.parens + 1 } commas cs
    else if c = '[' then arguments? none { n with brackets := n.brackets - 1 } commas cs
    else if c = ']' then arguments? none { n with brackets := n.brackets + 1 } commas cs
    else if c = '{' then arguments? none { n with braces := n.braces - 1 } commas cs
    else if c = '}' then arguments? none { n with braces := n.braces + 1 } commas cs
    else if c = '"' ∨ c = '\'' then arguments? (some c) n commas cs
    else if c = ',' ∧ n.isOutermost then arguments? none n (commas + 1) cs
    else arguments? none n commas cs

/-- The characters of names. -/
def isNameChar (c : Char) : Bool :=
  c.isAlphanum || c == '_'

/-- The name that ends a text read backwards, blanks after it left out. -/
def callee? (cs : List Char) : Option (List Char) :=
  match (cs.dropWhile Text.isBlank).takeWhile isNameChar with
  | [] => none
  | name => some name.reverse

/-- The call that a position stands in. -/
def find? (text : String) (at' : Position) : Option CallSite := do
  let (argument, rest) ← arguments? none {} 0 (textBefore text at').reverse
  let callee ← callee? rest
  return ⟨String.ofList callee, argument⟩

end CallSite

end EviAssist
