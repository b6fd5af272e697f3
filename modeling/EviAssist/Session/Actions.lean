import EviAssist.Session.Clock

/-!
# What is done in a session

* `Session.spawn`, `Session.inquire`: questions in the background, and those that one waits for.
* `Session.edit`, `Session.close`, `Session.reload`: what the editor tells of documents and
  settings.
* `Session.readEvents`: what was announced since the last reading.
-/

namespace EviAssist.Session

/-- Lets all happen that is due. -/
def settleNow (s : Session) : Session :=
  s.settle s.now

/-! ## Questions -/

/-- A question in the background; the number of its task is returned. -/
def spawn (s : Session) (document : Document) (kind : LintKind) (cursor : Option Position) :
    Nat × Session :=
  (s.started, ({ s with started := s.started + 1 }.start (.task s.started) document kind cursor))

/-- Asks the questions of an inquiry about a document, one after another, and waits for the
answers. -/
def inquire {α : Type} (document : Document) : Inquiry α → Session → Option α × Session
  | .done outcome, s => (some outcome, s)
  | .ask kind cursor next, s =>
    let (task, s) := s.spawn document kind cursor
    match s.await task with
    | (none, s) => (none, s)
    | (some ending, s) => inquire document (next ending.answer) s

/-! ## Documents and settings -/

/-- The scheduled checks without one that is to be stopped. -/
def withoutTimer (timers : List Timer) (generation : Option Nat) : List Timer :=
  timers.filter fun timer => some timer.generation ≠ generation

/-- Schedules a check of a document in place of the one that waits for the same path. -/
def schedule (s : Session) (document : Document) : Session :=
  let (generation, debouncer) := s.debouncer.draw
  let (debouncer, stopped) := debouncer.install document.path generation
  { s with
    debouncer
    timers := withoutTimer s.timers stopped ++ [⟨s.now + s.debounce, generation, document⟩] }

/-- A document is open with a new text. -/
def edit (s : Session) (document : Document) : Session :=
  let (validator, isChecked) := s.validator.accept document
  let s := { s with validator }
  if isChecked then s.schedule document else s

/-- A document is closed. -/
def close (s : Session) (path : Path) : Session :=
  let (debouncer, stopped) := s.debouncer.cancel path
  { s with debouncer, timers := withoutTimer s.timers stopped }.validate (·.close path)

/-- Other tool settings apply to the questions that come from now on. -/
def reconfigure (s : Session) (settings : ToolSettings) : Session :=
  { s with settings }

/-- Other settings apply, and all open documents are checked again. -/
def reload (s : Session) (validation : ValidationSettings) (settings : ToolSettings) : Session :=
  let changed := !s.settings.sameExecutable settings
  let s := (s.reconfigure settings).validate (·.reload validation changed)
  s.validator.documents.values.foldl edit s

/-! ## Events -/

/-- How many announcements are kept for a reader. -/
def keptEvents : Nat :=
  256

/-- The number of announcements that a reader has missed, and the newest ones. -/
def readEvents (s : Session) : (Nat × List ValidationEvent) × Session :=
  let missed := s.events.length - keptEvents
  ((missed, s.events.drop missed), { s with events := [] })

end EviAssist.Session
