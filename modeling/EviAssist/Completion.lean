import EviAssist.Editor.Values
import EviAssist.Literal
import EviAssist.Text.Search

/-!
# Completion

The part of a word left of the cursor decides which tables of symbols are asked for and which of
their entries are proposed.

* `Completion.wantsVariables`, `Completion.wantsFunctions`: the tables to ask for.
* `Completion.Proposals`: the entries that begin with the typed part, each label once.
-/

namespace EviAssist.Completion

/-- Variables are proposed for nothing and for a sigil. -/
def wantsVariables (typed : String) : Bool :=
  match typed.toList with
  | [] => true
  | c :: _ => c == '$'

/-- Functions are proposed for nothing and for an identifier. -/
def wantsFunctions (typed : String) : Bool :=
  typed.toList.isEmpty || Literal.isIdentifier typed.toList

/-- The words proposed so far for a typed part. -/
structure Proposals where
  typed : String
  items : List CompletionItem := []
  deriving Inhabited, Repr

namespace Proposals

/-- Adds a word, unless it does not begin with the typed part or is there already. -/
def add (p : Proposals) (item : CompletionItem) : Proposals :=
  if (Text.afterStart? p.typed.toList item.label.toList).isSome ∧
      ¬p.items.any (·.label == item.label) then
    { p with items := p.items ++ [item] }
  else p

/-- A variable as a proposed word. -/
def ofVariable (v : Variable) : CompletionItem :=
  ⟨"$" ++ v.identifier, .variable, v.signature⟩

/-- A function as a proposed word. -/
def ofFunction (f : FunctionSignature) : CompletionItem :=
  ⟨f.identifier, .function, f.signature⟩

/-- Adds the variables of a table. -/
def addVariables (p : Proposals) (table : List Variable) : Proposals :=
  table.foldl (fun p v => p.add (ofVariable v)) p

/-- Adds the functions of a table. -/
def addFunctions (p : Proposals) (functions : List FunctionSignature) : Proposals :=
  functions.foldl (fun p f => p.add (ofFunction f)) p

end Proposals

end EviAssist.Completion
