import EviAssist.Earliest
import EviAssist.Session

/-!
# The clock of a session

What happens by itself happens in the order of its moments. Every such thing leaves less to come:
a scheduled check becomes a question, a question a run, and a run ends.

* `Session.step?`: the next thing that happens by itself.
* `Session.settle`, `Session.sleep`: letting things happen up to a moment.
* `Session.await`: letting things happen until a task has ended.
-/

namespace EviAssist.Session

/-- When the first in line gives up. -/
def expiry (s : Session) : Option Nat :=
  s.gate.waiting.head?.map (·.deadline)

/-- When the next scheduled check is due. -/
def nextCheck (s : Session) : Option Nat :=
  (Earliest.take? Timer.due s.timers).map (·.1.due)

/-- The next thing that happens by itself, and when: of things at the same moment a run ends
first, and a check starts last. -/
def step? (s : Session) : Option (Nat × Session) :=
  match s.gate.inside with
  | some run =>
    if Earliest.notAfter (some run.ends) s.expiry && Earliest.notAfter (some run.ends) s.nextCheck
    then some (run.ends, s.release run)
    else waitOrCheck s
  | none => waitOrCheck s
where
  /-- The first in line gives up or a check starts, whichever is earlier. -/
  waitOrCheck (s : Session) : Option (Nat × Session) :=
    match s.gate.waiting, Earliest.take? Timer.due s.timers with
    | q :: _, none => some (q.deadline, s.expire q)
    | q :: _, some (timer, others) =>
      if q.deadline ≤ timer.due then some (q.deadline, s.expire q)
      else some (timer.due, s.fire timer others)
    | [], some (timer, others) => some (timer.due, s.fire timer others)
    | [], none => none

/-- How much can still happen by itself. -/
def load (s : Session) : Nat :=
  3 * s.timers.length + s.gate.load

@[simp] theorem load_conclude (s : Session) (asker : Asker) (document : Document)
    (answer : Except LintError LintResult) : (s.conclude asker document answer).load = s.load := by
  cases asker <;> rfl

theorem load_enter {s : Session} (h : s.gate.inside = none) (q : Question) :
    (s.enter q).load = s.load + 1 := by
  unfold enter
  split <;> simp [load, Gate.load_enter h] <;> omega

theorem load_start (s : Session) (asker : Asker) (document : Document) (kind : LintKind)
    (cursor : Option Position) : (s.start asker document kind cursor).load ≤ s.load + 2 := by
  unfold start
  split
  · simp
  · dsimp only
    split
    · rw [load_enter ‹_›]
      omega
    · simp [load, Gate.load_queue]
      omega

@[simp] theorem gate_conclude (s : Session) (asker : Asker) (document : Document)
    (answer : Except LintError LintResult) : (s.conclude asker document answer).gate = s.gate := by
  cases asker <;> rfl

theorem load_release {s : Session} {run : Run} (h : s.gate.inside = some run) :
    (s.release run).load < s.load := by
  have hl := Gate.load_leave h
  unfold release remove
  dsimp only
  split
  · rw [load_conclude]
    simp only [load]
    omega
  · rename_i q hq
    rw [load_enter (by simp [Gate.leave]), load_conclude]
    simp only [hq, Option.toList_some, List.length_singleton] at hl
    simp only [load]
    omega

theorem load_expire {s : Session} {q : Question} {rest : List Question}
    (h : s.gate.waiting = q :: rest) : (s.expire q).load < s.load := by
  have := Gate.load_giveUp h
  rw [expire, load_conclude]
  simp only [load]
  omega

theorem load_fire {s : Session} {timer : Timer} {others : List Timer}
    (h : others.length + 1 = s.timers.length) : (s.fire timer others).load < s.load := by
  unfold fire
  dsimp only
  split
  · simp only [load]
    omega
  · refine Nat.lt_of_le_of_lt (load_start _ _ _ _ _) ?_
    simp only [load]
    omega

theorem load_waitOrCheck {s s' : Session} {time : Nat}
    (h : step?.waitOrCheck s = some (time, s')) : s'.load < s.load := by
  unfold step?.waitOrCheck at h
  split at h
  · cases h
    exact load_expire ‹_›
  · rename_i hw ht
    split at h <;> cases h
    · exact load_expire ‹_›
    · exact load_fire (Earliest.take?_length ht)
  · rename_i hw ht
    cases h
    exact load_fire (Earliest.take?_length ht)
  · cases h

theorem load_step? {s s' : Session} {time : Nat} (h : s.step? = some (time, s')) :
    s'.load < s.load := by
  unfold step? at h
  split at h
  · split at h
    · cases h
      exact load_release ‹_›
    · exact load_waitOrCheck h
  · exact load_waitOrCheck h

/-- All that happens by itself up to a moment. -/
def settle (s : Session) (limit : Nat) : Session :=
  match _h : s.step? with
  | none => s
  | some (time, s') => if time ≤ limit then s'.settle limit else s
termination_by s.load
decreasing_by exact load_step? ‹_›

/-- Lets time pass. -/
def sleep (s : Session) (time : Nat) : Session :=
  { s.settle (s.now + time) with now := s.now + time }

/-- How a task ended, if it has. -/
def ending? (s : Session) (task : Nat) : Option Ending :=
  s.endings.find? (·.task == task)

/-- Lets happen what happens until a task has ended; none when it never will. -/
def await (s : Session) (task : Nat) : Option Ending × Session :=
  match s.ending? task with
  | some ending => (some ending, s)
  | none =>
    match _h : s.step? with
    | none => (none, s)
    | some (_, s') => s'.await task
termination_by s.load
decreasing_by exact load_step? ‹_›

end EviAssist.Session
