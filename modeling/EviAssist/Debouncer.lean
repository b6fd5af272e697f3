import EviAssist.Path

/-!
# The debouncer

Of several triggers of one key in a burst only the last has its job started, after a delay. Every
trigger draws a generation, and a job starts only if its generation is still the one of its key,
so a job that could not be stopped in time does no harm. A job that has started runs to its end.

Each operation below is one critical section; callers and jobs may come in any order.

* `Debouncer.draw`, `Debouncer.install`: the two halves of a trigger.
* `Debouncer.cancel`: forgets a key.
* `Debouncer.wake?`, `Debouncer.finish`: the start and the end of a job.
* `Debouncer.state`: what a key is doing.
-/

namespace EviAssist

/-- What a key is doing. -/
inductive DebounceState where
  | idle
  | scheduled
  | running
  deriving DecidableEq, Inhabited, Repr

/-- What is known of one key: its generation, the job that waits, and the jobs that run. A job is
known by the generation of its trigger. -/
structure Slot where
  generation : Nat := 0
  pending : Option Nat := none
  running : List Nat := []
  deriving DecidableEq, Inhabited, Repr

/-- The slots of all keys, and the last generation drawn. -/
structure Debouncer where
  slots : PathMap Slot := {}
  drawn : Nat := 0
  deriving Inhabited, Repr

namespace Debouncer

/-- Draws the next generation. -/
def draw (d : Debouncer) : Nat × Debouncer :=
  (d.drawn + 1, { d with drawn := d.drawn + 1 })

/-- Makes the job of a generation the one that waits for a key; the one that waited before is to
be stopped. -/
def install (d : Debouncer) (key : Path) (generation : Nat) : Debouncer × Option Nat :=
  let slot := (d.slots.find? key).getD {}
  ({ d with slots := d.slots.insert key { slot with generation, pending := some generation } },
    slot.pending)

/-- Forgets a key; the job that waited is to be stopped, those that run go on. -/
def cancel (d : Debouncer) (key : Path) : Debouncer × Option Nat :=
  ({ d with slots := d.slots.erase key }, (d.slots.find? key).bind (·.pending))

/-- The start of a job after its delay; none when it was replaced or cancelled meanwhile. -/
def wake? (d : Debouncer) (key : Path) (generation : Nat) : Option Debouncer :=
  match d.slots.find? key with
  | some slot =>
    if slot.generation = generation then
      some
        { d with
          slots := d.slots.insert key
            { slot with pending := none, running := slot.running ++ [generation] } }
    else none
  | none => none

/-- The end of a job; a key for which nothing waits or runs any more is forgotten. -/
def finish (d : Debouncer) (key : Path) (generation : Nat) : Debouncer :=
  match d.slots.find? key with
  | some slot =>
    let slot := { slot with running := slot.running.filter (· ≠ generation) }
    if slot.pending.isNone ∧ slot.running = [] then { d with slots := d.slots.erase key }
    else { d with slots := d.slots.insert key slot }
  | none => d

/-- Nothing is to wait any more; the jobs that waited are to be stopped. -/
def close (d : Debouncer) : Debouncer × List Nat :=
  let slots := d.slots.entries.map fun (key, slot) => (key, { slot with pending := none })
  ({ d with slots := ⟨slots⟩ }, d.slots.values.filterMap (·.pending))

/-- What a key is doing. -/
def state (d : Debouncer) (key : Path) : DebounceState :=
  match d.slots.find? key with
  | some slot =>
    if slot.pending.isSome then .scheduled
    else if slot.running.isEmpty then .idle
    else .running
  | none => .idle

end Debouncer

end EviAssist
