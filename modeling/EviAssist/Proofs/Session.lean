import EviAssist.Session.Actions
import Mathlib.Logic.Relation

/-!
# Runs of sessions

A session goes on by single steps: something is done in it, a scheduled check starts, a run of evi
ends, or someone gives up waiting. In a run the steps come in any order, whatever the clock says,
so what holds of all runs holds for all times that evi takes and for all waits.

* `Session.fresh`: a session in which nothing has happened.
* `Session.Follows`: the next thing happens by itself.
* `Session.step?_cases`: what can happen by itself.
* `Session.Step`, `Session.step`, `Session.run`: single steps, and runs.
* `Session.Goes`: whether a session goes on as another one by some steps.
* `Session.goes_sleep`, `Session.goes_inquire`, `Session.goes_reload`: all that is done in a session
  is a run.
-/

namespace EviAssist.Session

variable {s t u : Session}

/-- A session in which nothing has happened. -/
def fresh (directory : Option Path) (scratch : Path) (tool : Tool) (gateWait debounce : Nat)
    (settings : ToolSettings) (suggestions : Bool) (validation : ValidationSettings) : Session :=
  { directory, scratch, tool, gateWait, debounce, settings, suggestions,
    validator := { settings := validation } }

/-! ## What happens by itself -/

/-- Whether the next thing that happens by itself leads from a session to another one. -/
def Follows (s t : Session) : Prop :=
  ∃ time, s.step? = some (time, t)

/-- **What happens by itself**: a run of evi ends, the first in line gives up, or a scheduled
check starts. -/
theorem step?_cases {time : Nat} (h : s.step? = some (time, t)) :
    (∃ run, s.gate.inside = some run ∧ t = s.release run) ∨
      (∃ q rest, s.gate.waiting = q :: rest ∧ t = s.expire q) ∨
      ∃ timer others, Earliest.take? Timer.due s.timers = some (timer, others) ∧
        t = s.fire timer others := by
  have hwait : step?.waitOrCheck s = some (time, t) →
      (∃ q rest, s.gate.waiting = q :: rest ∧ t = s.expire q) ∨
        ∃ timer others, Earliest.take? Timer.due s.timers = some (timer, others) ∧
          t = s.fire timer others := by
    intro h
    unfold step?.waitOrCheck at h
    split at h
    · cases h
      exact .inl ⟨_, _, ‹_›, rfl⟩
    · split at h <;> cases h
      · exact .inl ⟨_, _, ‹_›, rfl⟩
      · exact .inr ⟨_, _, ‹_›, rfl⟩
    · cases h
      exact .inr ⟨_, _, ‹_›, rfl⟩
    · cases h
  unfold step? at h
  split at h
  · split at h
    · cases h
      exact .inl ⟨_, ‹_›, rfl⟩
    · exact .inr (hwait h)
  · exact .inr (hwait h)

theorem follows_settle (s : Session) (limit : Nat) :
    Relation.ReflTransGen Follows s (s.settle limit) := by
  induction s using settle.induct limit with
  | case1 s h =>
    rw [settle]
    split
    · exact .refl
    · rename_i h'
      cases h.symm.trans h'
  | case2 s time s' h hl ih =>
    rw [settle]
    split
    · exact .refl
    · rename_i h'
      cases h.symm.trans h'
      rw [if_pos hl]
      exact .head ⟨time, h⟩ ih
  | case3 s time s' h hl =>
    rw [settle]
    split
    · exact .refl
    · rename_i h'
      cases h.symm.trans h'
      rw [if_neg hl]

theorem follows_await (s : Session) (task : Nat) :
    Relation.ReflTransGen Follows s (s.await task).2 := by
  induction s using await.induct task with
  | case1 s ending h =>
    rw [await, h]
  | case2 s h hs =>
    rw [await, h]
    dsimp only
    split
    · exact .refl
    · rename_i h'
      cases hs.symm.trans h'
  | case3 s h time s' hs ih =>
    rw [await, h]
    dsimp only
    split
    · exact .refl
    · rename_i h'
      cases hs.symm.trans h'
      exact .head ⟨time, hs⟩ ih

/-! ## Steps -/

/-- What can happen next. -/
inductive Step where
  /-- A document is open with a new text. -/
  | edit (document : Document)
  /-- A document is closed. -/
  | close (path : Path)
  /-- Other settings apply; the open documents are to be edited again. -/
  | apply (validation : ValidationSettings) (settings : ToolSettings)
  /-- Other tool settings apply to the questions that come from now on. -/
  | reconfigure (settings : ToolSettings)
  /-- A question comes from someone who waits for the answer. -/
  | ask (document : Document) (kind : LintKind) (cursor : Option Position)
  /-- The moment of a scheduled check comes. -/
  | fire (timer : Timer)
  /-- A run of evi ends. -/
  | release
  /-- Someone in the line gives up. -/
  | giveUp (place : Nat)
  /-- The clock shows another time. -/
  | tick (time : Nat)

/-- Someone at a place of the line gives up. -/
def leaveLine (s : Session) (q : Question) (place : Nat) : Session :=
  { s with gate := { s.gate with waiting := s.gate.waiting.eraseIdx place } }.conclude q.asker
    q.document (.error (.gateTimeout (.ofMillis s.gateWait)))

/-- A single step; what cannot happen does nothing. -/
def step (s : Session) : Step → Session
  | .edit document => s.edit document
  | .close path => s.close path
  | .apply validation settings =>
    (s.reconfigure settings).validate
      (·.reload validation (!s.settings.sameExecutable settings))
  | .reconfigure settings => s.reconfigure settings
  | .ask document kind cursor => (s.spawn document kind cursor).2
  | .fire timer => if timer ∈ s.timers then s.fire timer (s.timers.erase timer) else s
  | .release =>
    match s.gate.inside with
    | some run => s.release run
    | none => s
  | .giveUp place =>
    match s.gate.waiting[place]? with
    | some q => s.leaveLine q place
    | none => s
  | .tick time => { s with now := time }

/-- Some steps, one after another. -/
def run (s : Session) : List Step → Session
  | [] => s
  | x :: steps => (s.step x).run steps

theorem run_append (s : Session) (steps later : List Step) :
    s.run (steps ++ later) = (s.run steps).run later := by
  induction steps generalizing s with
  | nil => rfl
  | cons x steps ih => exact ih _

/-- Whether a session goes on as another one by some steps. -/
def Goes (s t : Session) : Prop :=
  ∃ steps, t = s.run steps

theorem Goes.refl (s : Session) : s.Goes s :=
  ⟨[], rfl⟩

theorem Goes.trans (h : s.Goes t) (h' : t.Goes u) : s.Goes u := by
  obtain ⟨steps, rfl⟩ := h
  obtain ⟨later, rfl⟩ := h'
  exact ⟨steps ++ later, (run_append s steps later).symm⟩

theorem goes_step (s : Session) (x : Step) : s.Goes (s.step x) :=
  ⟨[x], rfl⟩

/-! ## All that is done is a run -/

theorem Goes.of_follows (h : s.Follows t) : s.Goes t := by
  obtain ⟨time, h⟩ := h
  obtain ⟨ending, hi, rfl⟩ | ⟨q, rest, hw, rfl⟩ | ⟨timer, others, ht, rfl⟩ := step?_cases h
  · refine ⟨[.release], ?_⟩
    rw [run, step, hi]
    rfl
  · refine ⟨[.tick q.deadline, .giveUp 0], ?_⟩
    simp only [run, step, hw, List.getElem?_cons_zero]
    rw [expire, leaveLine, Gate.giveUp, hw]
    rfl
  · refine ⟨[.fire timer], ?_⟩
    have hm : timer ∈ s.timers := (Earliest.take?_perm ht).mem_iff.2 (.head _)
    rw [run, step, if_pos hm, ← Earliest.take?_eq_erase ht]
    rfl

theorem Goes.of_reflTransGen (h : Relation.ReflTransGen Follows s t) : s.Goes t := by
  induction h with
  | refl => exact .refl s
  | tail _ h ih => exact ih.trans (.of_follows h)

theorem goes_sleep (s : Session) (time : Nat) : s.Goes (s.sleep time) :=
  (Goes.of_reflTransGen (follows_settle s _)).trans (goes_step _ (.tick (s.now + time)))

theorem goes_reload (s : Session) (validation : ValidationSettings) (settings : ToolSettings) :
    s.Goes (s.reload validation settings) := by
  have hedits : ∀ (documents : List Document) (s : Session), s.Goes (documents.foldl edit s) := by
    intro documents
    induction documents with
    | nil => exact .refl
    | cons document documents ih => exact fun s => (goes_step s (.edit document)).trans (ih _)
  exact (goes_step s (.apply validation settings)).trans (hedits _ _)

/-- **An inquiry is a run.** -/
theorem goes_inquire {α : Type} (document : Document) (inquiry : Inquiry α) (s : Session) :
    s.Goes (inquire document inquiry s).2 := by
  induction inquiry generalizing s with
  | done outcome => exact .refl s
  | ask kind cursor next ih =>
    have hs := (goes_step s (.ask document kind cursor)).trans
      (Goes.of_reflTransGen (follows_await _ s.started))
    unfold inquire
    dsimp only
    split
    · rename_i later h
      rw [show (s.step (.ask document kind cursor)).await s.started = _ from h] at hs
      exact hs
    · rename_i ending later h
      rw [show (s.step (.ask document kind cursor)).await s.started = _ from h] at hs
      exact hs.trans (ih ending.answer later)

end EviAssist.Session
