import EviAssist.Editor.Values
import EviAssist.Json

/-!
# Editor values as JSON

The members are those of the language server protocol; members without a value are left out.

* `Diagnostic.toJson`, `CompletionItem.toJson`, `Hover.toJson`, `SignatureHelp.toJson`, ….
-/

namespace EviAssist

/-- A position as JSON. -/
def Position.toJson (p : Position) : Json :=
  .ofList [("line", .nat p.line.toNat), ("character", .nat p.character.toNat)]

/-- A range as JSON. -/
def Range.toJson (r : Range) : Json :=
  .ofList [("start", r.start.toJson), ("end", r.stop.toJson)]

/-- A location as JSON. -/
def Location.toJson (l : Location) : Json :=
  .ofList [("uri", .text l.uri.text), ("range", l.range.toJson)]

/-- The number of a severity. -/
def Severity.toJson : Severity → Json
  | .error => .nat 1
  | .warning => .nat 2
  | .info => .nat 3
  | .hint => .nat 4

/-- A remark as JSON. -/
def RelatedInformation.toJson (r : RelatedInformation) : Json :=
  .ofList [("location", r.location.toJson), ("message", .text r.message)]

/-- A diagnostic as JSON. -/
def Diagnostic.toJson (d : Diagnostic) : Json :=
  .ofOptions
    [("range", some d.range.toJson), ("severity", d.severity.map Severity.toJson),
      ("source", d.source.map Json.text), ("message", some (.text d.message)),
      ("relatedInformation",
        if d.related.isEmpty then none else some (.array (d.related.map (·.toJson))))]

/-- The number of a kind of symbol. -/
def SymbolKind.toJson : SymbolKind → Json
  | .variable => .nat 6
  | .function => .nat 3

/-- A proposed word as JSON. -/
def CompletionItem.toJson (i : CompletionItem) : Json :=
  .ofList [("label", .text i.label), ("kind", i.kind.toJson), ("detail", .text i.detail)]

/-- A piece of Evi as JSON. -/
def codeToJson (text : String) : Json :=
  .ofList [("language", .text "evi"), ("value", .text text)]

/-- The contents of a hover as JSON. -/
def HoverContents.toJson : HoverContents → Json
  | .code text => codeToJson text
  | .unknown word => .array [codeToJson word, .text "Symbol not found."]

/-- A hover as JSON. -/
def Hover.toJson (h : Hover) : Json :=
  .ofList [("contents", h.contents.toJson), ("range", h.range.toJson)]

/-- A called function as JSON. -/
def SignatureHelp.toJson (h : SignatureHelp) : Json :=
  let parameters := h.parameters.map fun p => Json.ofList [("label", .text p)]
  .ofList
    [("signatures", .array [.ofList [("label", .text h.label), ("parameters", .array parameters)]]),
      ("activeSignature", .nat 0), ("activeParameter", .nat h.activeParameter)]

/-- The diagnostics of one file as JSON. -/
def fileDiagnosticsToJson (group : Path × List Diagnostic) : Json :=
  .ofList
    [("file", .text group.1.text), ("diagnostics", .array (group.2.map Diagnostic.toJson))]

end EviAssist
