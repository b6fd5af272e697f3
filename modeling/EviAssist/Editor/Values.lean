import EviAssist.Lint.Result
import EviAssist.Uri

/-!
# Values shown by editors

* `Location`, `Diagnostic`, `CompletionItem`, `Hover`, `SignatureHelp`: what an editor is given.
-/

namespace EviAssist

/-- A place in a file, as an editor opens it. -/
structure Location where
  uri : Uri
  range : Range
  deriving DecidableEq, Inhabited, Repr

/-- A remark at another place that goes with a diagnostic. -/
structure RelatedInformation where
  location : Location
  message : String
  deriving DecidableEq, Inhabited, Repr

/-- A remark on a range of a file. -/
structure Diagnostic where
  range : Range := default
  severity : Option Severity := none
  source : Option String := none
  message : String
  related : List RelatedInformation := []
  deriving DecidableEq, Inhabited, Repr

/-- What a proposed word names. -/
inductive SymbolKind where
  | variable
  | function
  deriving DecidableEq, Inhabited, Repr

/-- A proposed word. -/
structure CompletionItem where
  label : String
  kind : SymbolKind
  detail : String
  deriving DecidableEq, Inhabited, Repr

/-- What a hover shows: a piece of Evi, or a word that evi does not know. -/
inductive HoverContents where
  | code (text : String)
  | unknown (word : String)
  deriving DecidableEq, Inhabited, Repr

/-- What is shown for the word under the pointer. -/
structure Hover where
  contents : HoverContents
  range : Range
  deriving DecidableEq, Inhabited, Repr

/-- A called function and the parameter that the cursor is at. -/
structure SignatureHelp where
  label : String
  parameters : List String
  activeParameter : Nat
  deriving DecidableEq, Inhabited, Repr

end EviAssist
