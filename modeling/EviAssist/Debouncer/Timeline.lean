import EviAssist.Debouncer
import EviAssist.Earliest

/-!
# Timelines of a debouncer

Triggers, cancellations and pauses one after another, with jobs that take given times. Times are
milliseconds; of things at the same moment the end of a job comes first.

* `Debouncer.Timeline.trigger`, `cancel`, `close`, `sleep`: what is done from outside.
* `Debouncer.Timeline.log`: when which jobs started and ended.
-/

namespace EviAssist.Debouncer

/-- A job that waits for its moment. -/
structure Timer where
  due : Nat
  key : Path
  generation : Nat
  id : Nat
  work : Nat
  deriving DecidableEq, Inhabited, Repr

/-- A job that runs. -/
structure Job where
  ends : Nat
  key : Path
  generation : Nat
  id : Nat
  deriving DecidableEq, Inhabited, Repr

/-- A start or an end of a job. -/
structure LogEntry where
  time : Nat
  id : Nat
  isEnd : Bool
  deriving DecidableEq, Inhabited, Repr

/-- A debouncer with its delay, the jobs that wait and run, and what happened. -/
structure Timeline where
  delay : Nat
  now : Nat := 0
  debouncer : Debouncer := {}
  timers : List Timer := []
  jobs : List Job := []
  log : List LogEntry := []
  isClosed : Bool := false
  deriving Inhabited, Repr

namespace Timeline

/-- The waiting jobs without one that is to be stopped. -/
def stop (timers : List Timer) (generation : Option Nat) : List Timer :=
  timers.filter fun t => some t.generation ≠ generation

/-- Triggers a key with a job. -/
def trigger (t : Timeline) (key : Path) (id work : Nat) : Timeline :=
  let (generation, debouncer) := t.debouncer.draw
  let (debouncer, stopped) := debouncer.install key generation
  { t with
    debouncer
    timers := stop t.timers stopped ++ [⟨t.now + t.delay, key, generation, id, work⟩] }

/-- Cancels a key. -/
def cancel (t : Timeline) (key : Path) : Timeline :=
  let (debouncer, stopped) := t.debouncer.cancel key
  { t with debouncer, timers := stop t.timers stopped }

/-- Drops the debouncer: nothing that waits will start. -/
def close (t : Timeline) : Timeline :=
  let (debouncer, stopped) := t.debouncer.close
  { t with
    debouncer
    timers := t.timers.filter fun timer => !stopped.contains timer.generation
    isClosed := true }

/-- The moment of a waiting job comes. -/
def fire (t : Timeline) (timer : Timer) (others : List Timer) : Timeline :=
  let t := { t with now := timer.due, timers := others }
  match t.debouncer.wake? timer.key timer.generation with
  | none => t
  | some debouncer =>
    { t with
      debouncer
      jobs := t.jobs ++ [⟨timer.due + timer.work, timer.key, timer.generation, timer.id⟩]
      log := t.log ++ [⟨timer.due, timer.id, false⟩] }

/-- A running job ends. -/
def finishJob (t : Timeline) (job : Job) (others : List Job) : Timeline :=
  { t with
    now := job.ends
    debouncer := t.debouncer.finish job.key job.generation
    jobs := others
    log := t.log ++ [⟨job.ends, job.id, true⟩] }

/-- The next thing that happens up to a moment. -/
def step? (t : Timeline) (limit : Nat) : Option Timeline :=
  match Earliest.take? Job.ends t.jobs, Earliest.take? Timer.due t.timers with
  | some (job, others), some (timer, otherTimers) =>
    if job.ends ≤ timer.due then if job.ends ≤ limit then some (t.finishJob job others) else none
    else if timer.due ≤ limit then some (t.fire timer otherTimers)
    else none
  | some (job, others), none =>
    if job.ends ≤ limit then some (t.finishJob job others) else none
  | none, some (timer, others) => if timer.due ≤ limit then some (t.fire timer others) else none
  | none, none => none

/-- How much can still happen. -/
def load (t : Timeline) : Nat :=
  2 * t.timers.length + t.jobs.length

theorem load_fire {t : Timeline} {timer : Timer} {others : List Timer}
    (h : others.length + 1 = t.timers.length) : (t.fire timer others).load < t.load := by
  unfold fire
  dsimp only
  split <;> simp [load] <;> omega

theorem load_finishJob {t : Timeline} {job : Job} {others : List Job}
    (h : others.length + 1 = t.jobs.length) : (t.finishJob job others).load < t.load := by
  simp [finishJob, load]
  omega

theorem load_step? {t t' : Timeline} {limit : Nat} (h : t.step? limit = some t') :
    t'.load < t.load := by
  unfold step? at h
  split at h
  · rename_i hj ht
    have hj := Earliest.take?_length hj
    have ht := Earliest.take?_length ht
    split at h
    · split at h <;> cases h
      exact load_finishJob hj
    · split at h <;> cases h
      exact load_fire ht
  · rename_i hj ht
    split at h <;> cases h
    exact load_finishJob (Earliest.take?_length hj)
  · rename_i hj ht
    split at h <;> cases h
    exact load_fire (Earliest.take?_length ht)
  · cases h

/-- All that happens up to a moment. -/
def settle (t : Timeline) (limit : Nat) : Timeline :=
  match _h : t.step? limit with
  | none => t
  | some t' => t'.settle limit
termination_by t.load
decreasing_by exact load_step? ‹_›

/-- Lets time pass. -/
def sleep (t : Timeline) (time : Nat) : Timeline :=
  { t.settle (t.now + time) with now := t.now + time }

end Timeline

end EviAssist.Debouncer
