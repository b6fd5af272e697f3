import EviAssist.Earliest
import EviAssist.Gate
import EviAssist.Lint.Error

/-!
# Schedules of the gate

Callers come at given moments and stay for given times; who waits too long gives up. Times are
milliseconds.

* `Gate.Schedule.step?`: the next thing that happens.
* `Gate.Schedule.ofCallers`: all that happens; `turns` tells when each caller got in or gave up.
* `Gate.Schedule.outcome`: what the gate answers a caller.
-/

namespace EviAssist.Gate

/-- When someone comes, and how long the stay is. -/
structure Caller where
  arrival : Nat
  hold : Nat
  deriving DecidableEq, Inhabited, Repr

/-- A caller in line, who gives up at a deadline. -/
structure Waiter where
  caller : Nat
  hold : Nat
  deadline : Nat
  deriving DecidableEq, Inhabited, Repr

/-- A caller inside, and when the stay ends. -/
structure Holder where
  caller : Nat
  leaves : Nat
  deriving DecidableEq, Inhabited, Repr

/-- How a caller fared: when the caller got in or gave up. -/
structure Turn where
  caller : Nat
  time : Nat
  gotIn : Bool
  deriving DecidableEq, Inhabited, Repr

/-- The callers still to come, in the order of their arrival, and what happened so far. -/
structure Schedule where
  wait : Nat
  coming : List (Nat × Caller)
  gate : Gate Holder Waiter := {}
  /-- The callers that found the gate busy. -/
  foundBusy : List Nat := []
  turns : List Turn := []
  deriving Inhabited, Repr

namespace Schedule

/-- A caller gets in. -/
def enter (s : Schedule) (time : Nat) (w : Waiter) : Schedule :=
  { s with
    gate := s.gate.enter ⟨w.caller, time + w.hold⟩
    turns := s.turns ++ [⟨w.caller, time, true⟩] }

/-- The one inside leaves; the first in line gets in. -/
def release (s : Schedule) (time : Nat) : Schedule :=
  let (next, gate) := s.gate.leave
  let s := { s with gate }
  match next with
  | none => s
  | some w => s.enter time w

/-- The first in line gives up. -/
def expire (s : Schedule) (w : Waiter) : Schedule :=
  { s with gate := s.gate.giveUp, turns := s.turns ++ [⟨w.caller, w.deadline, false⟩] }

/-- The next caller comes. -/
def arrive (s : Schedule) (index : Nat) (c : Caller) (rest : List (Nat × Caller)) : Schedule :=
  let w : Waiter := ⟨index, c.hold, c.arrival + s.wait⟩
  match s.gate.inside with
  | none => { s with coming := rest }.enter c.arrival w
  | some _ =>
    { s with coming := rest, gate := s.gate.queue w, foundBusy := s.foundBusy ++ [index] }

/-- The first in line gives up or the next caller comes, whichever is earlier. -/
def waitOrCome (s : Schedule) : Option Schedule :=
  match s.gate.waiting, s.coming with
  | w :: _, [] => some (s.expire w)
  | w :: _, (index, c) :: rest =>
    if w.deadline ≤ c.arrival then some (s.expire w) else some (s.arrive index c rest)
  | [], (index, c) :: rest => some (s.arrive index c rest)
  | [], [] => none

/-- The moment of the next giving up or coming. -/
def nextWaitOrCome (s : Schedule) : Option Nat :=
  match s.gate.waiting, s.coming with
  | w :: _, [] => some w.deadline
  | w :: _, (_, c) :: _ => some (min w.deadline c.arrival)
  | [], (_, c) :: _ => some c.arrival
  | [], [] => none

/-- The next thing that happens: of things at the same moment leaving comes first, giving up
second and coming last. -/
def step? (s : Schedule) : Option Schedule :=
  match s.gate.inside with
  | some h =>
    if Earliest.notAfter (some h.leaves) s.nextWaitOrCome then some (s.release h.leaves)
    else s.waitOrCome
  | none => s.waitOrCome

/-- How much can still happen. -/
def load (s : Schedule) : Nat :=
  3 * s.coming.length + s.gate.load

theorem load_enter {s : Schedule} (h : s.gate.inside = none) (time : Nat) (w : Waiter) :
    (s.enter time w).load = s.load + 1 := by
  simp [enter, load, Gate.load_enter h]
  omega

theorem load_release {s : Schedule} {h : Holder} (hi : s.gate.inside = some h) (time : Nat) :
    (s.release time).load < s.load := by
  have hl := Gate.load_leave hi
  unfold release
  dsimp only
  split
  · simp only [load]
    omega
  · rename_i w hw
    rw [load_enter rfl]
    simp only [hw, Option.toList_some, List.length_singleton] at hl
    simp only [load]
    omega

theorem load_expire {s : Schedule} {w : Waiter} {rest : List Waiter}
    (h : s.gate.waiting = w :: rest) : (s.expire w).load < s.load := by
  have := Gate.load_giveUp h
  simp only [expire, load]
  omega

theorem load_arrive {s : Schedule} {index : Nat} {c : Caller} {rest : List (Nat × Caller)}
    (h : s.coming = (index, c) :: rest) : (s.arrive index c rest).load < s.load := by
  unfold arrive
  dsimp only
  split
  · rw [load_enter ‹_›]
    simp only [load, h, List.length_cons]
    omega
  · simp only [load, h, List.length_cons, Gate.load_queue]
    omega

theorem load_waitOrCome {s s' : Schedule} (h : s.waitOrCome = some s') : s'.load < s.load := by
  unfold waitOrCome at h
  split at h
  · cases h
    exact load_expire ‹_›
  · split at h <;> cases h
    · exact load_expire ‹_›
    · exact load_arrive ‹_›
  · cases h
    exact load_arrive ‹_›
  · cases h

theorem load_step? {s s' : Schedule} (h : s.step? = some s') : s'.load < s.load := by
  unfold step? at h
  split at h
  · split at h
    · cases h
      exact load_release ‹_› _
    · exact load_waitOrCome h
  · exact load_waitOrCome h

/-- All that happens. -/
def finish (s : Schedule) : Schedule :=
  match _h : s.step? with
  | none => s
  | some s' => s'.finish
termination_by s.load
decreasing_by exact load_step? ‹_›

/-- The callers with their numbers, in the order of arrival. -/
def inOrder (callers : List Caller) : List (Nat × Caller) :=
  (callers.zipIdx.map fun (c, index) => (index, c)).mergeSort fun a b =>
    a.2.arrival ≤ b.2.arrival

/-- All that happens when the given callers come. -/
def ofCallers (wait : Nat) (callers : List Caller) : Schedule :=
  finish { wait, coming := inOrder callers }

/-- What the gate answers: the caller is in, or has waited too long. -/
def outcome (s : Schedule) (turn : Turn) : Except LintError Unit :=
  if turn.gotIn then .ok () else .error (.gateTimeout (.ofMillis s.wait))

/-- How a caller fared, and whether the gate was busy on arrival. -/
def turn? (s : Schedule) (caller : Nat) : Option (Turn × Bool) :=
  (s.turns.find? fun t => t.caller == caller).map fun t => (t, s.foundBusy.contains caller)

end Schedule

end EviAssist.Gate
