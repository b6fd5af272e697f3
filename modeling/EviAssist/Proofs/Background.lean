import EviAssist.Debouncer
import EviAssist.Lint.Settings
import EviAssist.Proofs.Validator.History
import Mathlib.Data.Multiset.Filter

/-!
# Checks in the background

The validator at work with its debouncer: texts come, wait for their moment, are checked and
answered, while documents are closed and settings change. Every step is one critical section, and
steps of different callers and jobs come in any order; what several callers have in hand is kept
without order.

* `Background`: the validator, the debouncer, and everything that is on its way.
* `Background.start`, `Background.Step`, `Background.step`, `Background.run`: the beginning,
  single steps, and runs.
* `Background.announced`: what is announced in a run.
* `Background.validator_run`: the validator goes through the history of its sections.
-/

namespace EviAssist

namespace Background

/-- A check that is scheduled: the generation it was given, and the text to check. -/
structure Job where
  generation : Nat
  document : Document
  deriving DecidableEq, Inhabited, Repr

/-- A check that is asked, and the program that it asks; none when there is none. -/
structure Check where
  job : Job
  program : Option Path
  deriving DecidableEq, Inhabited, Repr

/-- New settings on their way, and whether they name another program. -/
structure Change where
  validation : ValidationSettings
  tools : ToolSettings
  executableChanged : Bool
  deriving DecidableEq, Inhabited, Repr

end Background

open Background in
/-- The validator, the debouncer, and everything that is on its way. -/
structure Background where
  /-- From where relative paths are seen, where that is known. -/
  directory : Option Path := some ⟨"/"⟩
  /-- How evi is asked. -/
  tools : ToolSettings := {}
  validator : Validator := {}
  debouncer : Debouncer := {}
  /-- Accepted texts whose check has no generation yet. -/
  accepted : Multiset Document := 0
  /-- Checks with a generation that the debouncer does not know yet. -/
  drawn : Multiset Job := 0
  /-- Checks that wait for their moment. -/
  waiting : Multiset Job := 0
  /-- Checks that have started and do not know yet which program to ask. -/
  begun : Multiset Job := 0
  /-- Checks that evi has not answered yet. -/
  running : Multiset Check := 0
  /-- Checks that ended, which the debouncer does not know yet. -/
  ended : Multiset Job := 0
  /-- Changes of settings that have been compared with the program in use. -/
  compared : Multiset Change := 0
  /-- Changes of settings that evi is asked with already. -/
  configured : Multiset Change := 0

namespace Background

/-- Before anything happens. -/
def start (directory : Option Path) (tools : ToolSettings) (settings : ValidationSettings) :
    Background :=
  { directory, tools, validator := { settings } }

/-- What can happen next. -/
inductive Step where
  /-- A document is open with a new text. -/
  | accept (document : Document)
  /-- The check of an accepted text is given a generation. -/
  | draw (document : Document)
  /-- A check is scheduled; the one before it is stopped in time or not. -/
  | install (job : Job) (inTime : Bool)
  /-- What is scheduled for a document that closes is cancelled; it is stopped in time or not. -/
  | cancel (path : Path) (inTime : Bool)
  /-- A document is closed. -/
  | close (path : Path)
  /-- Evi is asked with other settings, and the validator is not told. -/
  | reconfigure (tools : ToolSettings)
  /-- New settings come. -/
  | compare (validation : ValidationSettings) (tools : ToolSettings)
  /-- From now on evi is asked with new settings. -/
  | configure (change : Change)
  /-- New settings apply to the validator. -/
  | reload (change : Change)
  /-- The moment of a scheduled check comes. -/
  | wake (job : Job)
  /-- A check that has started asks the program in use. -/
  | ask (job : Job)
  /-- A check ends with an answer. -/
  | conclude (check : Check) (answer : Except LintError LintResult)
  /-- The debouncer knows that a check has ended. -/
  | finish (job : Job)

/-- The waiting checks after one is to be stopped. -/
def stop (inTime : Bool) (waiting : Multiset Job) (generation : Option Nat) : Multiset Job :=
  if inTime then waiting.filter fun job => some job.generation ≠ generation else waiting

/-- Whether a scheduled check starts when its moment comes. -/
def isDue (b : Background) (job : Job) : Bool :=
  (b.debouncer.wake? job.document.path job.generation).isSome

/-- The section of the validator that takes place in a step. -/
def section? (b : Background) : Step → Option Validator.Section
  | .accept document => some (.accept document)
  | .close path => some (.close path)
  | .reload change =>
    if change ∈ b.configured then some (.reload change.validation change.executableChanged)
    else none
  | .conclude check answer =>
    if check ∈ b.running then some (.conclude check.job.document answer) else none
  | _ => none

/-- What a step does besides the section of the validator. -/
def move (b : Background) : Step → Background
  | .accept document =>
    if (b.validator.accept document).2 then { b with accepted := document ::ₘ b.accepted } else b
  | .draw document =>
    if document ∈ b.accepted then
      let (generation, debouncer) := b.debouncer.draw
      { b with
        debouncer
        accepted := b.accepted.erase document
        drawn := ⟨generation, document⟩ ::ₘ b.drawn }
    else b
  | .install job inTime =>
    if job ∈ b.drawn then
      let (debouncer, stopped) := b.debouncer.install job.document.path job.generation
      { b with
        debouncer
        drawn := b.drawn.erase job
        waiting := job ::ₘ stop inTime b.waiting stopped }
    else b
  | .cancel path inTime =>
    let (debouncer, stopped) := b.debouncer.cancel path
    { b with debouncer, waiting := stop inTime b.waiting stopped }
  | .close _ => b
  | .reconfigure tools => { b with tools }
  | .compare validation tools =>
    let change : Change := ⟨validation, tools, !b.tools.sameExecutable tools⟩
    { b with compared := change ::ₘ b.compared }
  | .configure change =>
    if change ∈ b.compared then
      { b with
        tools := change.tools
        compared := b.compared.erase change
        configured := change ::ₘ b.configured }
    else b
  | .reload change => { b with configured := b.configured.erase change }
  | .wake job =>
    if job ∈ b.waiting then
      match b.debouncer.wake? job.document.path job.generation with
      | none => { b with waiting := b.waiting.erase job }
      | some debouncer =>
        { b with
          debouncer
          waiting := b.waiting.erase job
          begun := job ::ₘ b.begun }
    else b
  | .ask job =>
    if job ∈ b.begun then
      { b with
        begun := b.begun.erase job
        running := ⟨job, b.tools.executable⟩ ::ₘ b.running }
    else b
  | .conclude check _ =>
    if check ∈ b.running then
      { b with running := b.running.erase check, ended := check.job ::ₘ b.ended }
    else b
  | .finish job =>
    if job ∈ b.ended then
      { b with
        debouncer := b.debouncer.finish job.document.path job.generation
        ended := b.ended.erase job }
    else b

/-- A step, and what is announced in it. -/
def step (b : Background) (s : Step) : Background × List ValidationEvent :=
  match b.section? s with
  | none => (b.move s, [])
  | some sec =>
    let (validator, events) := sec.run b.directory b.validator
    ({ b.move s with validator }, events)

/-- All that some steps do, one after another. -/
def run (b : Background) : List Step → Background
  | [] => b
  | s :: steps => (b.step s).1.run steps

/-- Whether some steps lead here from the beginning. -/
def IsReachable (b : Background) : Prop :=
  ∃ directory tools settings steps, b = (start directory tools settings).run steps

theorem isReachable_run (directory : Option Path) (tools : ToolSettings)
    (settings : ValidationSettings) (steps : List Step) :
    ((start directory tools settings).run steps).IsReachable :=
  ⟨directory, tools, settings, steps, rfl⟩

/-- What is announced in some steps. -/
def announced (b : Background) : List Step → List ValidationEvent
  | [] => []
  | s :: steps => (b.step s).2 ++ (b.step s).1.announced steps

/-- The sections of the validator in some steps, the newest first. -/
def history (b : Background) : List Step → List Validator.Section
  | [] => []
  | s :: steps => (b.step s).1.history steps ++ (b.section? s).toList

/-- Whether something is published in a step. -/
def Publishes (b : Background) (s : Step) : Prop :=
  ∃ document files, .published document files ∈ (b.step s).2

/-! ## Runs -/

theorem run_append (b : Background) (steps later : List Step) :
    b.run (steps ++ later) = (b.run steps).run later := by
  induction steps generalizing b with
  | nil => rfl
  | cons s steps ih => exact ih _

theorem announced_append (b : Background) (steps later : List Step) :
    b.announced (steps ++ later) = b.announced steps ++ (b.run steps).announced later := by
  induction steps generalizing b with
  | nil => rfl
  | cons s steps ih =>
    rw [List.cons_append, announced, announced, run, ih, List.append_assoc]

/-! ## What a step leaves alone -/

theorem move_eq (b : Background) (s : Step) :
    (b.move s).directory = b.directory ∧ (b.move s).validator = b.validator := by
  cases s with
  | close _ | cancel _ _ | reconfigure _ | compare _ _ | reload _ => exact ⟨rfl, rfl⟩
  | wake job =>
    simp only [move]
    split
    · split <;> exact ⟨rfl, rfl⟩
    · exact ⟨rfl, rfl⟩
  | accept _ | draw _ | install _ _ | configure _ | ask _ | conclude _ _ | finish _ =>
    simp only [move]
    split <;> exact ⟨rfl, rfl⟩

theorem step_of_section?_eq_none {b : Background} {s : Step} (h : b.section? s = none) :
    b.step s = (b.move s, []) := by
  rw [step, h]

theorem step_of_section?_eq_some {b : Background} {s : Step} {sec : Validator.Section}
    (h : b.section? s = some sec) :
    b.step s = ({ b.move s with validator := (sec.run b.directory b.validator).1 },
      (sec.run b.directory b.validator).2) := by
  rw [step, h]

theorem step_eq_move (b : Background) (s : Step) :
    (b.step s).1 = { b.move s with validator := (b.step s).1.validator } := by
  cases h : b.section? s with
  | none => rw [step_of_section?_eq_none h]
  | some sec => rw [step_of_section?_eq_some h]

theorem directory_step (b : Background) (s : Step) : (b.step s).1.directory = b.directory := by
  rw [step_eq_move]
  exact (b.move_eq s).1

/-! ## Histories of sections -/

variable {settings : ValidationSettings}

theorem validator_step {b : Background} {h : List Validator.Section}
    (hv : b.validator = Validator.after b.directory settings h) (s : Step) :
    (b.step s).1.validator =
        Validator.after b.directory settings ((b.section? s).toList ++ h) ∧
      (b.step s).2 = Validator.announced b.directory settings h (b.section? s).toList := by
  cases hs : b.section? s with
  | none =>
    rw [step_of_section?_eq_none hs]
    exact ⟨(b.move_eq s).2.trans hv, rfl⟩
  | some sec =>
    rw [step_of_section?_eq_some hs, hv]
    exact ⟨rfl, rfl⟩

/-- **The validator goes through the history of its sections**, and what it announces in them is
all that is announced. -/
theorem validator_run (steps : List Step) {b : Background} {h : List Validator.Section}
    (hv : b.validator = Validator.after b.directory settings h) :
    (b.run steps).validator = Validator.after b.directory settings (b.history steps ++ h) ∧
      b.announced steps = Validator.announced b.directory settings h (b.history steps) := by
  induction steps generalizing b h with
  | nil => exact ⟨hv, rfl⟩
  | cons s steps ih =>
    obtain ⟨hs, he⟩ := validator_step hv s
    rw [← directory_step b s] at hs
    obtain ⟨hr, ha⟩ := ih hs
    rw [directory_step] at hr ha
    refine ⟨?_, ?_⟩
    · rw [run, history, List.append_assoc]
      exact hr
    · rw [announced, history, Validator.announced_append, he, ha]

end Background

end EviAssist
