import EviAssist.CommandLine.Arguments
import EviAssist.Config.Resolved
import EviAssist.Count
import EviAssist.Editor.Encode
import EviAssist.Feature
import EviAssist.Json.Printer
import EviAssist.Lint.Decode
import EviAssist.Lint.Snapshot
import EviAssist.Process

/-!
# The command line

What a command prints and how it ends. What the system does, reading files and running evi, is
left to a host.

* `Host`: what the command line needs of the system.
* `Failure`: why a command failed, with its causes.
* `CommandLine.execute`: carries out a command line.
-/

namespace EviAssist

/-- What the command line needs of the system. -/
structure Host (m : Type → Type) where
  /-- The current directory, or why there is none. -/
  directory : Except String Path
  /-- Where snapshots are written. -/
  scratch : Path := ⟨"/tmp"⟩
  home : Option Path
  /-- The program and the search path that the environment gives. -/
  executable : Option Path
  searchPath : Option String
  /-- The path from the root to a file, or why there is none. -/
  canonical : Path → m (Except String Path)
  /-- The text of a file, or why it cannot be read. -/
  read : Path → m (Except String String)
  canRun : Path → m Bool
  /-- Runs a command that finds a given text in the snapshot. -/
  run : ToolCommand → String → m ProcessRun

/-! ## Failures -/

/-- Why a command failed, and the causes of it, each the cause of the one before. -/
structure Failure where
  text : String
  causes : List String := []
  deriving DecidableEq, Inhabited, Repr

namespace Failure

/-- An error of a question to evi. -/
def ofLint (e : LintError) : Failure :=
  ⟨e.message, e.cause?.toList⟩

/-- A failure that is the cause of another one. -/
def during (text : String) (f : Failure) : Failure :=
  ⟨text, f.text :: f.causes⟩

/-- A text with something before its first line and blanks of the same width before the others. -/
def indented (first text : String) : String :=
  let blanks := String.ofList (List.replicate first.length ' ')
  let lines := (Text.splitAt '\n' text.toList).map String.ofList
  first ++ String.intercalate ("\n" ++ blanks) lines

/-- A number at the end of five columns, and a colon. -/
def numbered (n : Nat) : String :=
  let digits := toString n
  String.ofList (List.replicate (5 - digits.length) ' ') ++ digits ++ ": "

/-- The causes, numbered when there are several. -/
def causeLines : List String → List String
  | [] => []
  | [cause] => [indented "    " cause]
  | causes => causes.zipIdx.map fun (cause, n) => indented (numbered n) cause

/-- The text shown for a failure. -/
def report (f : Failure) : String :=
  if f.causes.isEmpty then f.text
  else f.text ++ "\n\nCaused by:\n" ++ String.intercalate "\n" (causeLines f.causes)

end Failure

/-! ## Outcomes -/

/-- How a command line ends. -/
inductive Ending where
  | usage (e : UsageError)
  | failed (f : Failure)
  /-- A line or a column that was to be printed has no successor. -/
  | overflowed
  | done (foundErrors : Bool)
  deriving DecidableEq, Inhabited, Repr

/-- What a command line prints, and how it ends. -/
structure Outcome where
  output : String := ""
  ending : Ending
  deriving DecidableEq, Inhabited, Repr

/-- The exit status. -/
def Ending.status : Ending → Nat
  | usage _ => 2
  | failed _ => 1
  | overflowed => 101
  | done foundErrors => if foundErrors then 1 else 0

namespace CommandLine

variable {m : Type → Type} [Monad m]

/-! ## Questions -/

/-- What evi printed when it was asked about a snapshot. -/
structure Reply where
  snapshot : Path
  stdout : String
  deriving DecidableEq, Inhabited, Repr

/-- Has evi print what it knows about a document. -/
def consult (host : Host m) (settings : ToolSettings) (document : Document) (kind : LintKind)
    (cursor : Option Position) : m (Except LintError Reply) := do
  match settings.executable, Snapshot.path? true host.scratch document.path 0 with
  | none, _ => return .error (.toolNotFound none)
  | some _, .error e => return .error e
  | some program, .ok snapshot =>
    let command := (LintRequest.make document kind cursor settings).command program snapshot
    match ← command.outcome (host.run · document.text) settings.timeout with
    | .error e => return .error e
    | .ok output => return .ok ⟨snapshot, output.stdout⟩

/-- Puts a question about a document to evi. -/
def ask (host : Host m) (settings : ToolSettings) (document : Document) (kind : LintKind)
    (cursor : Option Position) : m (Except LintError LintResult) := do
  let reply ← consult host settings document kind cursor
  return reply.bind fun r => Lint.answerOf kind r.snapshot document.path r.stdout

/-- A document read from a file. -/
def openDocument (host : Host m) (path : Path) : m (Except Failure Document) := do
  match ← host.canonical path with
  | .error cause => return .error ⟨"cannot open " ++ path.text, [cause]⟩
  | .ok path =>
    match ← host.read path with
    | .error cause => return .error ⟨"cannot read " ++ path.text, [cause]⟩
    | .ok text => return .ok { path, text }

/-! ## Checks -/

/-- The name of a diagnostic's severity; one without severity counts as an error. -/
def severityName (d : Diagnostic) : String :=
  (d.severity.getD .error).name

/-- A diagnostic on one line, with its line and its column counted from one. There is none when
one of them is the greatest number. -/
def line? (file : Path) (d : Diagnostic) : Option String := do
  let line ← Count.succ? d.range.start.line
  let column ← Count.succ? d.range.start.character
  return file.text ++ ":" ++ toString line ++ ":" ++ toString column ++ ": " ++
    severityName d ++ ": " ++ d.message

/-- The diagnostics of a report with their files, in the order in which they are printed. -/
def shown (report : Report) : List (Path × Diagnostic) :=
  report.flatMap fun group => group.2.map (group.1, ·)

/-- The lines for diagnostics up to the first that has none, and whether all of them have one. -/
def lines : List (Path × Diagnostic) → String × Bool
  | [] => ("", true)
  | (file, d) :: rest =>
    match line? file d with
    | none => ("", false)
    | some line =>
      let (text, isWhole) := lines rest
      (line ++ "\n" ++ text, isWhole)

/-- Whether a report has an error. -/
def hasError (report : Report) : Bool :=
  report.any fun group => group.2.any fun d => d.severity == some .error

/-- The report on one file. -/
def checkFile (host : Host m) (settings : ToolSettings) (file : Path) :
    m (Except Failure Report) := do
  match ← openDocument host file with
  | .error f => return .error f
  | .ok document =>
    let inquiry := Feature.check host.directory.toOption document
    let result ← inquiry.answerIn (ask host settings document)
    return result.mapError fun e => (Failure.ofLint e).during ("checking " ++ document.path.text)

/-- Prints the reports on files, one after another, as far as the check comes. Whether an error was
found before is given by `foundErrors`. -/
def checkLines (host : Host m) (settings : ToolSettings) (foundErrors : Bool) :
    List Path → m Outcome
  | [] => return { ending := .done foundErrors }
  | file :: rest => do
    match ← checkFile host settings file with
    | .error f => return { ending := .failed f }
    | .ok report =>
      let (text, isWhole) := lines (shown report)
      if isWhole then
        let later ← checkLines host settings (foundErrors || hasError report) rest
        return { later with output := text ++ later.output }
      else return ⟨text, .overflowed⟩

/-- The reports on files, or the first failure. -/
def checkReports (host : Host m) (settings : ToolSettings) :
    List Path → m (Except Failure Report)
  | [] => return .ok []
  | file :: rest => do
    match ← checkFile host settings file with
    | .error f => return .error f
    | .ok report => return (← checkReports host settings rest).map (report ++ ·)

/-- A JSON value on lines of its own. -/
def printed (value : Json) : String :=
  value.pretty ++ "\n"

/-- Checks files. Lines are printed as far as the check comes, JSON only when it succeeds. -/
def check (host : Host m) (settings : ToolSettings) (asJson : Bool) (files : List Path) :
    m Outcome := do
  if asJson then
    match ← checkReports host settings files with
    | .error f => return { ending := .failed f }
    | .ok report =>
      return ⟨printed (.array (report.map fileDiagnosticsToJson)), .done (hasError report)⟩
  else checkLines host settings false files

/-! ## Other commands -/

/-- Prints what a feature offers at a cursor. -/
def feature {α : Type} (host : Host m) (settings : ToolSettings) (cursor : Cursor)
    (inquiry : Document → Position → Inquiry α) (toJson : α → Json) : m Outcome := do
  match ← openDocument host cursor.file with
  | .error f => return { ending := .failed f }
  | .ok document =>
    let offered ← (inquiry document cursor.position).answerIn (ask host settings document)
    return ⟨printed (toJson offered), .done false⟩

/-- A value that may be missing as JSON. -/
def optionToJson {α : Type} (toJson : α → Json) : Option α → Json
  | none => .null
  | some a => toJson a

/-- A function as JSON. -/
def functionToJson (f : FunctionSignature) : Json :=
  .ofList
    [("name", .text f.identifier), ("return_type", .text f.returnType),
      ("parameters", .array (f.parameters.map Json.text)), ("variadic", .bool f.variadic),
      ("signature", .text f.signature)]

/-- A variable as JSON. -/
def variableToJson (v : Variable) : Json :=
  .ofList
    [("name", .text v.identifier), ("type", .text v.typeName), ("signature", .text v.signature)]

/-- The functions and the variables that evi knows in a document. -/
def symbolTables : Inquiry (Except LintError (List FunctionSignature × List Variable)) := do
  match ← Inquiry.run .knownFunctions none with
  | .error e => return .error e
  | .ok functionAnswer =>
    match ← Inquiry.run .knownVariables none with
    | .error e => return .error e
    | .ok variableAnswer => return .ok (functionAnswer.functionList, variableAnswer.variableList)

/-- Prints the symbols of a file. -/
def symbols (host : Host m) (settings : ToolSettings) (file : Path) : m Outcome := do
  match ← openDocument host file with
  | .error f => return { ending := .failed f }
  | .ok document =>
    match ← symbolTables.answerIn (ask host settings document) with
    | .error e => return { ending := .failed (.ofLint e) }
    | .ok (functionList, variableList) =>
      let json := Json.ofList
        [("functions", .array (functionList.map functionToJson)),
          ("variables", .array (variableList.map variableToJson))]
      return ⟨printed json, .done false⟩

/-! ## Command lines -/

/-- The configuration for a workspace. -/
def configure (host : Host m) (workspace : Path) : m ResolvedConfig := do
  let config ← Config.load host.read host.home (some workspace)
  let candidates := (host.searchPath.map (Config.candidates Config.programName)).getD []
  let runnable ← candidates.filterM host.canRun
  return config.resolve
    { workspace := some workspace
      executable := host.executable
      searchPath := host.searchPath
      canRun := runnable.contains }

/-- Carries out a command. -/
def perform (host : Host m) (config : ResolvedConfig) (command : Command) : m Outcome :=
  let settings := config.toolSettings
  let suggestions := config.suggestions
  match command with
  | .check asJson files => check host settings asJson files
  | .definition cursor =>
    feature host settings cursor (fun _ => Feature.definition host.directory.toOption)
      (optionToJson Location.toJson)
  | .hover cursor => feature host settings cursor Feature.hover (optionToJson Hover.toJson)
  | .complete cursor =>
    feature host settings cursor (Feature.completions suggestions) fun items =>
      .array (items.map CompletionItem.toJson)
  | .signature cursor =>
    feature host settings cursor (Feature.signatureHelp suggestions)
      (optionToJson SignatureHelp.toJson)
  | .symbols file => symbols host settings file

/-- Carries out a command line. The workspace is the current directory unless one is given. -/
def execute (host : Host m) (arguments : List String) : m Outcome := do
  match Invocation.ofArguments arguments with
  | .error e => return { ending := .usage e }
  | .ok invocation =>
    match invocation.options.workspace.elim host.directory .ok with
    | .error cause => return { ending := .failed ⟨cause, []⟩ }
    | .ok workspace => perform host (← configure host workspace) invocation.command

end CommandLine

end EviAssist
