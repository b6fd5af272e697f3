import EviAssist.Debouncer
import EviAssist.Feature
import EviAssist.Gate
import EviAssist.Lint.Decode
import EviAssist.Lint.Request
import EviAssist.Lint.Snapshot
import EviAssist.Validator

/-!
# Sessions

An editor at work: questions to evi that share one gate, and background checks of the open
documents. A session has a clock of its own, in milliseconds; time passes only in waits, and what
evi does is given from outside.

* `Tool`, `Reply`: what evi does when it is run.
* `Session`: the gate with who is inside and who waits, the scheduled checks, the validator.
* `Session.start`: a question comes to the gate.
* `Session.release`, `Session.expire`, `Session.fire`: a run ends, a waiter gives up, a scheduled
  check starts.
-/

namespace EviAssist

/-- What a run of evi does: after some time it ends with an output or an error. -/
structure Reply where
  delay : Nat := 0
  outcome : Except LintError String

/-- What evi does in each of its runs, by their number, the command and the text of the
snapshot. -/
abbrev Tool : Type :=
  Nat → ToolCommand → String → Reply

namespace Session

/-- Who asks: someone who waits for the answer, or a scheduled check. -/
inductive Asker where
  | task (number : Nat)
  | check (key : Path) (generation : Nat)
  deriving DecidableEq, Inhabited, Repr

/-- A question on its way through the gate. What is asked, and of which program, is fixed when
the question comes. -/
structure Question where
  asker : Asker
  document : Document
  request : LintRequest
  program : Path
  /-- When the asker gives up waiting. -/
  deadline : Nat
  deriving Inhabited, Repr

/-- A run of evi in progress, or one that had to end before it began. -/
structure Run where
  question : Question
  snapshot : Option Path
  ends : Nat
  outcome : Except LintError String
  deriving Inhabited

/-- A run of evi as it began: when, by which command, and with which text in the snapshot. -/
structure Call where
  time : Nat
  command : ToolCommand
  snapshot : Path
  text : String
  deriving Inhabited, Repr

/-- A check that is scheduled. -/
structure Timer where
  due : Nat
  generation : Nat
  document : Document
  deriving DecidableEq, Inhabited, Repr

/-- The answer to a question, and when it came. -/
structure Ending where
  task : Nat
  time : Nat
  answer : Except LintError LintResult
  deriving Inhabited

end Session

open Session in
/-- An editor at work. -/
structure Session where
  /-- From where relative paths are seen, where that is known. -/
  directory : Option Path := some ⟨"/"⟩
  /-- Where snapshots are written. -/
  scratch : Path := ⟨"/tmp"⟩
  tool : Tool
  /-- How long a question waits at the gate. -/
  gateWait : Nat
  /-- How long a check waits for the next edit. -/
  debounce : Nat
  settings : ToolSettings
  suggestions : Bool := true
  now : Nat := 0
  gate : Gate Run Question := {}
  debouncer : Debouncer := {}
  timers : List Timer := []
  validator : Validator := {}
  /-- The snapshots that exist, with their texts. -/
  snapshots : List (Path × String) := []
  /-- How many snapshots have been written. -/
  written : Nat := 0
  calls : List Call := []
  /-- How many tasks have been started. -/
  started : Nat := 0
  endings : List Ending := []
  /-- What the validator announced and nobody has read yet. -/
  events : List ValidationEvent := []

namespace Session

/-! ## Answers -/

/-- A section of the validator takes place, and what it announces is kept. -/
def validate (s : Session) (change : Validator → Validator × List ValidationEvent) : Session :=
  let (validator, events) := change s.validator
  { s with validator, events := s.events ++ events }

/-- The end of a question. -/
def conclude (s : Session) (asker : Asker) (document : Document)
    (answer : Except LintError LintResult) : Session :=
  match asker with
  | .task number => { s with endings := s.endings ++ [⟨number, s.now, answer⟩] }
  | .check key generation =>
    let s := s.validate (·.conclude document.path (Feature.reportOf s.directory document answer))
    { s with debouncer := s.debouncer.finish key generation }

/-! ## Runs -/

/-- A question goes through the gate: the snapshot is written, and evi begins to run. -/
def enter (s : Session) (q : Question) : Session :=
  match Snapshot.path? true s.scratch q.document.path s.written with
  | .error e => { s with gate := s.gate.enter ⟨q, none, s.now, .error e⟩ }
  | .ok snapshot =>
    let command := q.request.command q.program snapshot
    let reply := s.tool s.calls.length command q.document.text
    { s with
      gate := s.gate.enter ⟨q, some snapshot, s.now + reply.delay, reply.outcome⟩
      snapshots := s.snapshots ++ [(snapshot, q.document.text)]
      written := s.written + 1
      calls := s.calls ++ [⟨s.now, command, snapshot, q.document.text⟩] }

/-- A question comes. Without a program there is nothing to ask; else it goes in when nobody is
inside, and waits in line when someone is. -/
def start (s : Session) (asker : Asker) (document : Document) (kind : LintKind)
    (cursor : Option Position) : Session :=
  match s.settings.executable with
  | none => s.conclude asker document (.error (.toolNotFound none))
  | some program =>
    let request := LintRequest.make document kind cursor s.settings
    let question : Question := ⟨asker, document, request, program, s.now + s.gateWait⟩
    match s.gate.inside with
    | none => s.enter question
    | some _ => { s with gate := s.gate.queue question }

/-- The answer that a run gave. -/
def Run.answer (run : Run) : Except LintError LintResult := do
  let stdout ← run.outcome
  let snapshot := run.snapshot.getD run.question.document.path
  Lint.answerOf run.question.request.kind snapshot run.question.document.path stdout

/-- Without a snapshot. -/
def remove (s : Session) (snapshot : Option Path) : Session :=
  { s with snapshots := s.snapshots.filter fun file => some file.1 ≠ snapshot }

/-- A run ends: its snapshot is removed, the asker has the answer, and the first in line goes
in. -/
def release (s : Session) (run : Run) : Session :=
  let s := { s with now := run.ends }.remove run.snapshot
  let (next, gate) := s.gate.leave
  let s := { s with gate }.conclude run.question.asker run.question.document run.answer
  match next with
  | none => s
  | some question => s.enter question

/-- The first in line has waited too long. -/
def expire (s : Session) (q : Question) : Session :=
  { s with now := q.deadline, gate := s.gate.giveUp }.conclude q.asker q.document
    (.error (.gateTimeout (.ofMillis s.gateWait)))

/-- The moment of a scheduled check comes. -/
def fire (s : Session) (timer : Timer) (others : List Timer) : Session :=
  let s := { s with now := timer.due, timers := others }
  let key := timer.document.path
  match s.debouncer.wake? key timer.generation with
  | none => s
  | some debouncer =>
    { s with debouncer }.start (.check key timer.generation) timer.document .diagnostics none

end Session

end EviAssist
