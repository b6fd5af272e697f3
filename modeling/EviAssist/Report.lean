import EviAssist.Document
import EviAssist.Editor.Values

/-!
# Reports

evi's diagnostics as an editor shows them, grouped by the file they are about.

* `Location.ofSource?`: a place reported by evi as an editor opens it.
* `Diagnostic.ofLint`: one diagnostic.
* `Report.byFile`: the diagnostics of each file, files in the order in which they first appear.
-/

namespace EviAssist

/-- A place reported by evi, relative paths being seen from `directory` where that is known. -/
def Location.ofSource? (directory : Option Path) (p : SourcePosition) : Option Location :=
  (Uri.ofPath? directory p.file).map fun uri => ⟨uri, p.range⟩

/-- The range to show for a place: in the document itself a place without length reaches to the
end of its line. -/
def SourcePosition.rangeFor (p : SourcePosition) (document : Document) : Range :=
  if p.file.same document.path then p.rangeIn document.text else p.range

/-- A diagnostic as an editor shows it. -/
def Diagnostic.ofLint (directory : Option Path) (document : Document) (d : LintDiagnostic) :
    Diagnostic where
  range := d.position.rangeFor document
  severity := some d.severity
  source := some "evi"
  message := d.message
  related := d.related.filterMap fun note =>
    (Location.ofSource? directory note.position).map fun location => ⟨location, note.message⟩

/-- The diagnostics of several files. -/
abbrev Report : Type :=
  List (Path × List Diagnostic)

namespace Report

/-- Adds a diagnostic to the group of its file, which is new when there was none. -/
def add (file : Path) (d : Diagnostic) : Report → Report
  | [] => [(file, [d])]
  | (file', ds) :: rest =>
    if file'.same file then (file', ds ++ [d]) :: rest else (file', ds) :: add file d rest

/-- The diagnostics found while checking a document, by file. -/
def byFile (directory : Option Path) (document : Document) (ds : List LintDiagnostic) : Report :=
  ds.foldl (fun report d => report.add d.position.file (.ofLint directory document d)) []

/-- Whether a report has a group for a file. -/
def mentions (report : Report) (file : Path) : Bool :=
  report.any fun group => group.1.same file

end Report

end EviAssist
