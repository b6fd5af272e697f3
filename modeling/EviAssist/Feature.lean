import EviAssist.CallSite
import EviAssist.Completion
import EviAssist.Inquiry
import EviAssist.Report

/-!
# Features

What an editor offers for an Evi document, in terms of questions to evi. Where there is no
answer, nothing is offered; only a check tells why.

* `Feature.check` with `Feature.reportOf`, `Feature.completions`, `Feature.hover`,
  `Feature.definition`, `Feature.signatureHelp`.
-/

namespace EviAssist.Feature

/-- The report in evi's answer about a document, relative paths being seen from `directory` where
that is known. -/
def reportOf (directory : Option Path) (document : Document)
    (answer : Except LintError LintResult) : Except LintError Report :=
  answer.map fun result => Report.byFile directory document result.diagnosticList

/-- The diagnostics of a document by file. -/
def check (directory : Option Path) (document : Document) : Inquiry (Except LintError Report) :=
  reportOf directory document <$> Inquiry.run .diagnostics none

/-- The part of the word at a position that is left of the position. -/
def typedPart (document : Document) (at' : Position) : String :=
  match document.wordRange? at' with
  | some range =>
    let start := range.start.character.toNat
    let line := (document.line? at'.line).getD []
    String.ofList ((line.drop start).take (at'.character.toNat - start))
  | none => ""

/-- The words proposed at a position. -/
def completions (suggestions : Bool) (document : Document) (at' : Position) :
    Inquiry (List CompletionItem) := do
  if !suggestions then return []
  let typed := typedPart document at'
  let proposals : Completion.Proposals := { typed }
  let proposals ←
    if Completion.wantsVariables typed then do
      match ← Inquiry.query .knownVariables (some at') with
      | some result => pure (proposals.addVariables result.variableList)
      | none => pure proposals
    else pure proposals
  let proposals ←
    if Completion.wantsFunctions typed then do
      match ← Inquiry.query .knownFunctions (some at') with
      | some result => pure (proposals.addFunctions result.functionList)
      | none => pure proposals
    else pure proposals
  return proposals.items

/-- The signature of the symbol that a word names, if evi knows it. -/
def signatureOf? (word : String) (at' : Position) : Inquiry (Option String) := do
  match Literal.variableName? word with
  | some name =>
    let answer ← Inquiry.query .knownVariables (some at')
    return answer.bind fun result =>
      (result.variableList.find? (·.identifier == name)).map Variable.signature
  | none =>
    let answer ← Inquiry.query .knownFunctions (some at')
    return answer.bind fun result =>
      (result.functionList.find? (·.identifier == word)).map FunctionSignature.signature

/-- What is shown for the word at a position: the type of a constant, the signature of a symbol,
or that there is no such symbol. -/
def hover (document : Document) (at' : Position) : Inquiry (Option Hover) := do
  match document.wordRange? at', document.word? at' with
  | some range, some word =>
    match Literal.type? word with
    | some type => return some ⟨.code (word ++ " -> " ++ type), range⟩
    | none =>
      match ← signatureOf? word at' with
      | some signature => return some ⟨.code signature, range⟩
      | none => return some ⟨.unknown word, range⟩
  | _, _ => return none

/-- Where the symbol at a position is declared. -/
def definition (directory : Option Path) (at' : Position) : Inquiry (Option Location) := do
  let answer ← Inquiry.query .declaration (some at')
  return (answer.bind LintResult.declaration?).bind (Location.ofSource? directory)

/-- The function called around a position, and the parameter that the position is at; the last
parameter stands for all further arguments. -/
def signatureHelp (suggestions : Bool) (document : Document) (at' : Position) :
    Inquiry (Option SignatureHelp) := do
  if !suggestions then return none
  match CallSite.find? document.text at' with
  | none => return none
  | some site =>
    let answer ← Inquiry.query .knownFunctions (some at')
    return answer.bind fun result =>
      (result.functionList.find? (·.identifier == site.callee)).map fun f =>
        ⟨f.signature, f.parameters, min site.argument (f.parameters.length - 1)⟩

end EviAssist.Feature
