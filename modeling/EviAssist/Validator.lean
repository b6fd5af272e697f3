import EviAssist.Duration
import EviAssist.Lint.Error
import EviAssist.Report

/-!
# The validator

Open documents are checked in the background. What a check finds in any file is published until a
later check of the same document, or its closing, takes it back; a file that another document
still reports into, or that is open itself, is left alone. When evi cannot be run at all this is
said once, and checking pauses until another executable is configured.

Each operation below is one critical section and returns what it has to announce.

* `DiagnosticCollection`: the diagnostics of the files that have any.
* `ValidationEvent`: what is announced.
* `Validator.accept`, `Validator.close`, `Validator.reload`, `Validator.conclude`: a new text, the
  closing of a document, new settings, and the end of a check.
-/

namespace EviAssist

/-- Whether open documents are checked, and how long after the last edit. -/
structure ValidationSettings where
  enabled : Bool := true
  debounce : Duration := .ofMillis 250
  deriving DecidableEq, Inhabited, Repr

/-! ## Collection -/

/-- The diagnostics of the files that have any. -/
structure DiagnosticCollection where
  entries : PathMap (List Diagnostic) := {}
  deriving Inhabited, Repr

namespace DiagnosticCollection

/-- Keeps the diagnostics of a file; a file without diagnostics has no entry. -/
def set (c : DiagnosticCollection) (file : Path) (ds : List Diagnostic) : DiagnosticCollection :=
  if ds.isEmpty then ⟨c.entries.erase file⟩ else ⟨c.entries.insert file ds⟩

/-- The diagnostics of a file. -/
def get (c : DiagnosticCollection) (file : Path) : List Diagnostic :=
  (c.entries.find? file).getD []

/-- Removes the entry of a file. -/
def delete (c : DiagnosticCollection) (file : Path) : DiagnosticCollection :=
  ⟨c.entries.erase file⟩

/-- Removes all entries. -/
def clear (_ : DiagnosticCollection) : DiagnosticCollection :=
  {}

/-- The files that have an entry. -/
def files (c : DiagnosticCollection) : List Path :=
  c.entries.keys

/-- Whether no file has an entry. -/
def isEmpty (c : DiagnosticCollection) : Bool :=
  c.entries.isEmpty

/-- Keeps the diagnostics of every file of a report. -/
def setAll (c : DiagnosticCollection) (report : Report) : DiagnosticCollection :=
  report.foldl (fun c group => c.set group.1 group.2) c

/-- Removes the entries of several files. -/
def deleteAll (c : DiagnosticCollection) (files : List Path) : DiagnosticCollection :=
  files.foldl delete c

end DiagnosticCollection

/-! ## Events -/

/-- What the validator announces. -/
inductive ValidationEvent where
  /-- A check of a document found these diagnostics. -/
  | published (document : Path) (files : Report)
  /-- These files have no diagnostics any more. -/
  | cleared (files : List Path)
  /-- A text to show, with or without an offer to open the settings. -/
  | message (text : String) (openSettings : Bool)
  /-- Checking pauses. -/
  | paused
  /-- Checking goes on. -/
  | resumed
  deriving Inhabited, Repr

/-! ## Validator -/

/-- The open documents and what is known of them. -/
structure Validator where
  settings : ValidationSettings := {}
  isPaused : Bool := false
  documents : PathMap Document := {}
  /-- The files that the last successful check of each document reported into. -/
  published : PathMap (List Path) := {}
  collection : DiagnosticCollection := {}
  deriving Inhabited, Repr

namespace Validator

/-- Whether a file is open or some document reports into it. -/
def isClaimed (v : Validator) (file : Path) : Bool :=
  v.documents.contains file || v.published.values.any fun files => files.any (·.same file)

/-- Whether a new text of a document leads to a check. -/
def schedules (v : Validator) : Bool :=
  v.settings.enabled && !v.isPaused

/-- A document is open with a new text. Only Evi documents matter; the answer tells whether a
check is to be scheduled. -/
def accept (v : Validator) (document : Document) : Validator × Bool :=
  if document.isEvi then
    ({ v with documents := v.documents.insert document.path document }, v.schedules)
  else (v, false)

/-- A document is closed. Its own diagnostics go, and those in files that nobody claims then. -/
def close (v : Validator) (path : Path) : Validator × List ValidationEvent :=
  if v.documents.contains path then
    let reported := (v.published.find? path).getD []
    let rest : Validator :=
      { v with documents := v.documents.erase path, published := v.published.erase path }
    let files := path :: reported.filter fun file => !file.same path && !rest.isClaimed file
    ({ rest with collection := v.collection.deleteAll files }, [.cleared files])
  else (v, [])

/-- New settings apply: all diagnostics go, and another executable ends a pause. The open
documents are to be accepted again. -/
def reload (v : Validator) (settings : ValidationSettings) (executableChanged : Bool) :
    Validator × List ValidationEvent :=
  let resumes := v.isPaused && executableChanged
  let files := v.collection.files
  ({ v with
      settings
      isPaused := v.isPaused && !executableChanged
      published := {}
      collection := v.collection.clear },
    (if resumes then [.resumed] else []) ++ (if files.isEmpty then [] else [.cleared files]))

/-- What is said when evi cannot be run. -/
def pauseMessage (e : LintError) : String :=
  "Cannot validate Evi files: " ++ e.message ++
    ". Set `executable` in the bridge configuration."

/-- Checking pauses because of an error, unless it does so already. -/
def pause (v : Validator) (e : LintError) : Validator × List ValidationEvent :=
  if v.isPaused then (v, [])
  else ({ v with isPaused := true }, [.message (pauseMessage e) true, .paused])

/-- The groups to publish for a document: those of the report, one for the document itself, and an
empty one for each file of the last check that is not mentioned any more and that nobody else
claims. `rest` knows nothing of the last check. -/
def groups (rest : Validator) (document : Path) (previous : List Path) (report : Report) :
    Report :=
  let own := if report.mentions document then report else report ++ [(document, [])]
  previous.foldl
    (fun groups file =>
      if groups.mentions file || rest.isClaimed file then groups else groups ++ [(file, [])])
    own

/-- A check of a document ends with a report. -/
def publish (v : Validator) (document : Path) (report : Report) :
    Validator × List ValidationEvent :=
  let previous := (v.published.find? document).getD []
  let rest : Validator := { v with published := v.published.erase document }
  let files := rest.groups document previous report
  ({ rest with
      collection := v.collection.setAll files
      published := rest.published.insert document (files.map (·.1)) },
    [.published document files])

/-- A check of a document ends. Of a document closed meanwhile nothing is published; an error that
will not go away by itself pauses checking, any other leaves all as it is. -/
def conclude (v : Validator) (document : Path) (result : Except LintError Report) :
    Validator × List ValidationEvent :=
  if v.documents.contains document then
    match result with
    | .ok report => v.publish document report
    | .error e => if e.pausesValidation then v.pause e else (v, [])
  else (v, [])

end Validator

end EviAssist
