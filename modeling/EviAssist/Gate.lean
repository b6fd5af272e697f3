/-!
# The gate

At most one run of evi is in progress. Who comes while another is inside waits in line, and may
leave the line.

* `Gate`: who is inside and who waits, in the order of arrival.
* `Gate.enter`, `Gate.queue`, `Gate.leave`, `Gate.giveUp`: going in, joining the line, leaving the
  gate and leaving the line.
-/

namespace EviAssist

/-- Who is inside, and who waits in the order of arrival. -/
structure Gate (Holder Waiter : Type) where
  inside : Option Holder := none
  waiting : List Waiter := []
  deriving Inhabited, Repr

namespace Gate

variable {Holder Waiter : Type}

/-- Whether someone is inside. -/
def isBusy (g : Gate Holder Waiter) : Bool :=
  g.inside.isSome

/-- Someone goes in. -/
def enter (g : Gate Holder Waiter) (h : Holder) : Gate Holder Waiter :=
  { g with inside := some h }

/-- Someone joins the end of the line. -/
def queue (g : Gate Holder Waiter) (w : Waiter) : Gate Holder Waiter :=
  { g with waiting := g.waiting ++ [w] }

/-- The one inside leaves; the first in line is called. -/
def leave (g : Gate Holder Waiter) : Option Waiter × Gate Holder Waiter :=
  (g.waiting.head?, { inside := none, waiting := g.waiting.drop 1 })

/-- The first in line gives up. -/
def giveUp (g : Gate Holder Waiter) : Gate Holder Waiter :=
  { g with waiting := g.waiting.drop 1 }

/-- How much is still to happen at the gate: every waiter goes in and leaves. -/
def load (g : Gate Holder Waiter) : Nat :=
  2 * g.waiting.length + g.inside.toList.length

theorem load_enter {g : Gate Holder Waiter} (h : g.inside = none) (a : Holder) :
    (g.enter a).load = g.load + 1 := by
  simp [enter, load, h]

theorem load_queue (g : Gate Holder Waiter) (w : Waiter) : (g.queue w).load = g.load + 2 := by
  simp [queue, load]
  omega

theorem load_leave {g : Gate Holder Waiter} {h : Holder} (hi : g.inside = some h) :
    g.leave.2.load + 2 * g.leave.1.toList.length + 1 = g.load := by
  cases hw : g.waiting <;> simp [leave, load, hi, hw]
  omega

theorem load_giveUp {g : Gate Holder Waiter} {w : Waiter} {rest : List Waiter}
    (h : g.waiting = w :: rest) : g.giveUp.load + 2 = g.load := by
  simp [giveUp, load, h]
  omega

end Gate

end EviAssist
