import EviAssist.Gate
import EviAssist.Lint.Decode
import EviAssist.Lint.Request
import Mathlib.Data.List.Induction

/-!
# The bridge to evi

Any number of calls ask evi at the same time, while its settings are changed. Each call goes its
own way: it reads the settings, comes to the gate, writes a snapshot, has evi run, removes the
snapshot and leaves; or it gives up, or an error ends it. The steps of different calls come in any
order. Nothing but the gate keeps the calls apart, yet evi runs for one of them at most, and
nothing is left behind.

* `Bridge.Call`, `Bridge.Stage`: a call, and how far it has come.
* `Bridge`, `Bridge.Step`, `Bridge.step`, `Bridge.run`: the calls together, single steps, and runs.
* `Bridge.act_cases`: what a call does when it goes on.
* `Bridge.Guarded`, `Bridge.Guarded.step`: who holds the gate and whose snapshot exists, and that
  every step keeps it so.
* `Bridge.exists_call_of_run`: every call has the settings that were in use when it came.
* `Bridge.one_at_a_time`: what holds at every moment of every run.
-/

namespace EviAssist

namespace Bridge

/-- How far a call has come. -/
inductive Stage where
  /-- It has read the settings, and there is a program to ask. -/
  | called
  /-- It waits in the line. -/
  | waiting
  /-- It holds the gate. -/
  | inside
  /-- It has written its snapshot. -/
  | written (snapshot : Path)
  /-- Evi runs for it. -/
  | running (snapshot : Path) (command : ToolCommand)
  /-- Evi has ended. -/
  | ended (snapshot : Path) (outcome : Except LintError String)
  /-- It has removed its snapshot. -/
  | removed (snapshot : Path) (outcome : Except LintError String)
  /-- It has returned. -/
  | returned (answer : Except LintError LintResult)

/-- Whether a call holds the gate. -/
def Stage.holdsGate : Stage → Bool
  | inside | written _ | running _ _ | ended _ _ | removed _ _ => true
  | called | waiting | returned _ => false

/-- Whether a call waits in the line. -/
def Stage.isWaiting : Stage → Bool
  | waiting => true
  | _ => false

/-- Whether evi runs for a call. -/
def Stage.isRunning : Stage → Bool
  | running _ _ => true
  | _ => false

/-- The snapshot of a call, as long as it exists. -/
def Stage.snapshot? : Stage → Option Path
  | written snapshot | running snapshot _ | ended snapshot _ => some snapshot
  | called | waiting | inside | removed _ _ | returned _ => none

/-- A call: what it asks, the settings that it read when it came, and how far it has come. -/
structure Call where
  document : Document
  kind : LintKind
  cursor : Option Position
  settings : ToolSettings
  stage : Stage

/-- The command that asks evi about a snapshot. -/
def Call.command? (call : Call) (snapshot : Path) : Option ToolCommand :=
  call.settings.executable.map fun program =>
    (LintRequest.make call.document call.kind call.cursor call.settings).command program snapshot

/-- The answer in what evi did. -/
def Call.answer (call : Call) (snapshot : Path) (outcome : Except LintError String) :
    Except LintError LintResult := do
  let stdout ← outcome
  Lint.answerOf call.kind snapshot call.document.path stdout

/-- The snapshot of a call with the text that is to be in it, as long as it exists. -/
def Call.file? (call : Call) : Option (Path × String) :=
  call.stage.snapshot?.map fun snapshot => (snapshot, call.document.text)

end Bridge

open Bridge in
/-- Calls that ask evi at the same time; a call is known by its number. -/
structure Bridge where
  settings : ToolSettings
  /-- How long a call waits in the line. -/
  gateWait : Duration
  gate : Gate Nat Nat := {}
  /-- The snapshots that exist, with their texts. -/
  files : List (Path × String) := []
  calls : List Call := []

namespace Bridge

/-- What a call can do next. -/
inductive Move where
  /-- It comes to the gate. -/
  | arrive
  /-- It has waited too long; it may have been called in already. -/
  | giveUp
  /-- It writes its snapshot, or cannot do so. -/
  | write (created : Except LintError Path)
  /-- It has evi run. -/
  | execute
  /-- Evi ends. -/
  | finish (outcome : Except LintError String)
  /-- It removes its snapshot. -/
  | remove
  /-- It leaves the gate and returns. -/
  | leave

/-- What can happen next. -/
inductive Step where
  /-- A call comes. -/
  | call (document : Document) (kind : LintKind) (cursor : Option Position)
  /-- A call goes on. -/
  | move (number : Nat) (move : Move)
  /-- Other settings apply to the calls that come from now on. -/
  | reconfigure (settings : ToolSettings)

/-- A call comes to a stage. -/
def put (b : Bridge) (n : Nat) (stage : Stage) : Bridge :=
  { b with calls := b.calls.modify n fun call => { call with stage } }

/-- The call inside leaves the gate and returns; the first in line goes in. -/
def depart (b : Bridge) (n : Nat) (answer : Except LintError LintResult) : Bridge :=
  let (next, gate) := b.gate.leave
  let b := { b with gate }.put n (.returned answer)
  match next with
  | none => b
  | some m => { b with gate := b.gate.enter m }.put m .inside

/-- A call goes on; what it cannot do does nothing. -/
def act (b : Bridge) (n : Nat) (call : Call) : Move → Bridge
  | .arrive =>
    match call.stage with
    | .called =>
      match b.gate.inside with
      | none => { b with gate := b.gate.enter n }.put n .inside
      | some _ => { b with gate := b.gate.queue n }.put n .waiting
    | _ => b
  | .giveUp =>
    match call.stage with
    | .waiting =>
      { b with gate := { b.gate with waiting := b.gate.waiting.erase n } }.put n
        (.returned (.error (.gateTimeout b.gateWait)))
    | .inside => b.depart n (.error (.gateTimeout b.gateWait))
    | _ => b
  | .write created =>
    match call.stage, created with
    | .inside, .ok snapshot =>
      { b with files := b.files ++ [(snapshot, call.document.text)] }.put n (.written snapshot)
    | .inside, .error e => b.depart n (.error e)
    | _, _ => b
  | .execute =>
    match call.stage with
    | .written snapshot =>
      match call.command? snapshot with
      | some command => b.put n (.running snapshot command)
      | none => b
    | _ => b
  | .finish outcome =>
    match call.stage with
    | .running snapshot _ => b.put n (.ended snapshot outcome)
    | _ => b
  | .remove =>
    match call.stage with
    | .ended snapshot outcome =>
      { b with files := b.files.filter fun file => file.1 ≠ snapshot }.put n
        (.removed snapshot outcome)
    | _ => b
  | .leave =>
    match call.stage with
    | .removed snapshot outcome => b.depart n (call.answer snapshot outcome)
    | _ => b

/-- A single step. Without a program a call returns at once. -/
def step (b : Bridge) : Step → Bridge
  | .call document kind cursor =>
    let stage := match b.settings.executable with
      | none => .returned (.error (.toolNotFound none))
      | some _ => .called
    { b with calls := b.calls ++ [⟨document, kind, cursor, b.settings, stage⟩] }
  | .move n move =>
    match b.calls[n]? with
    | some call => b.act n call move
    | none => b
  | .reconfigure settings => { b with settings }

/-- Some steps, one after another. -/
def run (b : Bridge) : List Step → Bridge
  | [] => b
  | x :: steps => (b.step x).run steps

theorem run_append (b : Bridge) (steps later : List Step) :
    b.run (steps ++ later) = (b.run steps).run later := by
  induction steps generalizing b with
  | nil => rfl
  | cons x steps ih => exact ih _

/-! ## Calls -/

variable {b : Bridge} {n m : Nat} {call : Call} {stage : Stage}

theorem getElem?_concat (calls : List Call) (new : Call) (m : Nat) :
    (calls ++ [new])[m]? = if m = calls.length then some new else calls[m]? := by
  split
  · rename_i heq
    rw [heq, List.getElem?_concat_length]
  · rename_i hne
    rw [List.getElem?_append]
    split
    · rfl
    · rw [List.getElem?_eq_none (by simp; omega), List.getElem?_eq_none (by omega)]

theorem getElem?_put (b : Bridge) (n m : Nat) (stage : Stage) :
    (b.put n stage).calls[m]? =
      if n = m then b.calls[m]?.map ({ · with stage }) else b.calls[m]? := by
  rw [put, List.getElem?_modify]
  split <;> simp

theorem getElem?_put_self (hc : b.calls[n]? = some call) (stage : Stage) :
    (b.put n stage).calls[n]? = some { call with stage } := by
  rw [getElem?_put, if_pos rfl, hc]
  rfl

theorem step_move (hc : b.calls[n]? = some call) (move : Move) :
    b.step (.move n move) = b.act n call move := by
  rw [step, hc]

theorem depart_of_nil (hw : b.gate.waiting = []) (n : Nat)
    (answer : Except LintError LintResult) :
    b.depart n answer =
      { b with gate := { inside := none, waiting := [] } }.put n (.returned answer) := by
  simp only [depart, Gate.leave, hw, List.head?_nil, List.drop_nil]

theorem depart_of_cons {rest : List Nat} (hw : b.gate.waiting = m :: rest) (n : Nat)
    (answer : Except LintError LintResult) :
    b.depart n answer =
      ({ b with gate := { inside := some m, waiting := rest } }.put n (.returned answer)).put m
        .inside := by
  simp only [depart, Gate.leave, hw, List.head?_cons, List.drop_one, List.tail_cons]
  rfl

/-- **What a call does when it goes on**: nothing, or it comes to a further stage, or it departs,
with an error or, once its snapshot has been removed, with its answer. -/
theorem act_cases (b : Bridge) (n : Nat) (call : Call) (move : Move) :
    b.act n call move = b ∨
      (∃ files gate stage, (∀ result, stage ≠ .returned (.ok result)) ∧
        b.act n call move = { b with files, gate }.put n stage) ∨
      (∃ e, b.act n call move = b.depart n (.error e)) ∨
      ∃ snapshot outcome, move = .leave ∧ call.stage = .removed snapshot outcome ∧
        b.act n call move = b.depart n (call.answer snapshot outcome) := by
  cases move with
  | arrive =>
    simp only [act]
    split
    · split
      · exact .inr (.inl ⟨_, b.gate.enter n, .inside, by simp, rfl⟩)
      · exact .inr (.inl ⟨_, b.gate.queue n, .waiting, by simp, rfl⟩)
    · exact .inl rfl
  | giveUp =>
    simp only [act]
    split
    · exact .inr (.inl ⟨_, _, .returned (.error _), by simp, rfl⟩)
    · exact .inr (.inr (.inl ⟨_, rfl⟩))
    · exact .inl rfl
  | write created =>
    simp only [act]
    split
    · exact .inr (.inl ⟨_, _, .written _, by simp, rfl⟩)
    · exact .inr (.inr (.inl ⟨_, rfl⟩))
    · exact .inl rfl
  | execute =>
    simp only [act]
    split
    · split
      · exact .inr (.inl ⟨b.files, b.gate, .running _ _, by simp, rfl⟩)
      · exact .inl rfl
    · exact .inl rfl
  | finish outcome =>
    simp only [act]
    split
    · exact .inr (.inl ⟨b.files, b.gate, .ended _ _, by simp, rfl⟩)
    · exact .inl rfl
  | remove =>
    simp only [act]
    split
    · exact .inr (.inl ⟨_, _, .removed _ _, by simp, rfl⟩)
    · exact .inl rfl
  | leave =>
    simp only [act]
    split
    · rename_i snapshot outcome hs
      exact .inr (.inr (.inr ⟨snapshot, outcome, trivial, hs, rfl⟩))
    · exact .inl rfl

/-- How far a call has come, if it has come. -/
def stage? (b : Bridge) (n : Nat) : Option Stage :=
  b.calls[n]?.map (·.stage)

/-- The snapshot of a call, as long as it exists. -/
def file? (b : Bridge) (n : Nat) : Option (Path × String) :=
  b.calls[n]?.bind Call.file?

theorem stage?_put_self (hc : b.calls[n]? = some call) (stage : Stage) :
    (b.put n stage).stage? n = some stage := by
  rw [stage?, getElem?_put, if_pos rfl, hc]
  rfl

theorem stage?_put_of_ne (h : n ≠ m) (stage : Stage) :
    (b.put n stage).stage? m = b.stage? m := by
  rw [stage?, getElem?_put, if_neg h, stage?]

theorem file?_put_self (hc : b.calls[n]? = some call) (stage : Stage) :
    (b.put n stage).file? n = Call.file? { call with stage } := by
  rw [file?, getElem?_put, if_pos rfl, hc]
  rfl

theorem file?_put_of_ne (h : n ≠ m) (stage : Stage) : (b.put n stage).file? m = b.file? m := by
  rw [file?, getElem?_put, if_neg h, file?]

/-! ## Guarded bridges -/

/-- Whether the gate keeps the calls apart: one call is inside and it is the one that the gate
knows, those in line are the ones that wait, and the only snapshot is that of the call inside. -/
structure Guarded (b : Bridge) : Prop where
  inside : ∀ n, b.gate.inside = some n ↔ (b.stage? n).any Stage.holdsGate = true
  waiting : ∀ n, n ∈ b.gate.waiting ↔ (b.stage? n).any Stage.isWaiting = true
  nodup : b.gate.waiting.Nodup
  files : b.files = (b.gate.inside.bind b.file?).toList
  command : ∀ {n : Nat} {call : Call} {snapshot command}, b.calls[n]? = some call →
    call.stage = .running snapshot command → call.command? snapshot = some command

theorem guarded_start (settings : ToolSettings) (gateWait : Duration) :
    Guarded { settings, gateWait } where
  inside := fun _ => ⟨nofun, nofun⟩
  waiting := fun _ => ⟨nofun, nofun⟩
  nodup := .nil
  files := rfl
  command := nofun

theorem Guarded.put (h : b.Guarded) (hc : b.calls[n]? = some call) {gate : Gate Nat Nat}
    {files : List (Path × String)}
    (hi : ∀ m, gate.inside = some m ↔ if n = m then stage.holdsGate = true
      else b.gate.inside = some m)
    (hw : ∀ m, m ∈ gate.waiting ↔ if n = m then stage.isWaiting = true else m ∈ b.gate.waiting)
    (hd : gate.waiting.Nodup)
    (hf : files = (gate.inside.bind fun m =>
      if n = m then Call.file? { call with stage } else b.file? m).toList)
    (hr : ∀ {snapshot command}, stage = .running snapshot command →
      call.command? snapshot = some command) :
    Guarded ({ b with gate, files }.put n stage) := by
  have hself := stage?_put_self (b := { b with gate, files }) hc stage
  have hother : ∀ m, n ≠ m → ({ b with gate, files }.put n stage).stage? m = b.stage? m :=
    fun m hm => stage?_put_of_ne hm stage
  refine ⟨fun m => ?_, fun m => ?_, hd, hf.trans ?_, fun {m other snapshot command} hm hs => ?_⟩
  · refine (hi m).trans ?_
    split
    · rename_i heq
      rw [← heq, hself, Option.any_some]
    · rw [hother m ‹_›]
      exact h.inside m
  · refine (hw m).trans ?_
    split
    · rename_i heq
      rw [← heq, hself, Option.any_some]
    · rw [hother m ‹_›]
      exact h.waiting m
  · refine congrArg (fun file => (gate.inside.bind file).toList) (funext fun m => ?_)
    split
    · rename_i heq
      rw [← heq]
      exact (file?_put_self (b := { b with gate, files }) hc stage).symm
    · rename_i hne
      exact (file?_put_of_ne (b := { b with gate, files }) hne stage).symm
  · rw [getElem?_put] at hm
    split at hm
    · rename_i heq
      rw [← heq, hc] at hm
      cases hm
      exact hr hs
    · exact h.command hm hs

theorem Guarded.inside_eq (h : b.Guarded) (hc : b.calls[n]? = some call)
    (hs : call.stage.holdsGate = true) : b.gate.inside = some n := by
  rw [h.inside, stage?, hc]
  exact hs

theorem Guarded.files_eq (h : b.Guarded) (hc : b.calls[n]? = some call)
    (hs : call.stage = stage) (hg : stage.holdsGate = true) :
    b.files = (stage.snapshot?.map fun snapshot => (snapshot, call.document.text)).toList := by
  rw [h.files, h.inside_eq hc (hs ▸ hg), Option.bind_some, file?, hc, ← hs]
  rfl

theorem Guarded.waiting_iff (h : b.Guarded) (hc : b.calls[n]? = some call) :
    n ∈ b.gate.waiting ↔ call.stage.isWaiting = true := by
  rw [h.waiting, stage?, hc]
  rfl

theorem isWaiting_of_holdsGate (h : stage.holdsGate = true) : stage.isWaiting = false := by
  cases stage <;> first | rfl | cases h

theorem Guarded.stay (h : b.Guarded) (hc : b.calls[n]? = some call) {old : Stage}
    (hs : call.stage = old) (ho : old.holdsGate = true) (hg : stage.holdsGate = true)
    {files : List (Path × String)} (hf : files = (Call.file? { call with stage }).toList)
    (hr : ∀ {snapshot command}, stage = .running snapshot command →
      call.command? snapshot = some command) :
    Guarded ({ b with files }.put n stage) := by
  have hi := h.inside_eq hc (hs ▸ ho)
  refine h.put hc (fun m => ?_) (fun m => ?_) h.nodup ?_ hr
  · rw [hi, Option.some.injEq, hg]
    split <;> simp_all
  · split
    · rename_i heq
      rw [← heq, h.waiting_iff hc, hs, isWaiting_of_holdsGate ho, isWaiting_of_holdsGate hg]
    · rfl
  · rw [hf, hi, Option.bind_some, if_pos rfl]

theorem Guarded.outside (h : b.Guarded) (hc : b.calls[n]? = some call)
    (hs : call.stage.holdsGate = false) (hs' : stage.holdsGate = false) {waiting : List Nat}
    (hw : ∀ m, m ∈ waiting ↔ if n = m then stage.isWaiting = true else m ∈ b.gate.waiting)
    (hd : waiting.Nodup) :
    Guarded ({ b with gate := { b.gate with waiting } }.put n stage) := by
  have hi : b.gate.inside ≠ some n := by
    rw [Ne, h.inside, stage?, hc, Option.map_some, Option.any_some, hs]
    exact Bool.false_ne_true
  refine h.put hc (fun m => ?_) hw hd ?_ ?_
  · split
    · rename_i heq
      rw [← heq, hs']
      exact ⟨fun hm => absurd hm hi, fun hm => absurd hm Bool.false_ne_true⟩
    · rfl
  · rw [h.files]
    cases hin : b.gate.inside with
    | none => rfl
    | some holder =>
      have hne : n ≠ holder := fun heq => hi (heq ▸ hin)
      rw [Option.bind_some, Option.bind_some, if_neg hne]
  · rintro snapshot command rfl
    cases hs'

theorem Guarded.admit (h : b.Guarded) (hi : b.gate.inside = none) {rest : List Nat}
    (hw : b.gate.waiting = n :: rest) :
    Guarded ({ b with gate := { inside := some n, waiting := rest } }.put n .inside) := by
  obtain ⟨hn, hrest⟩ := List.nodup_cons.1 (hw ▸ h.nodup)
  have hwaits := (h.waiting n).1 (hw ▸ .head _)
  obtain ⟨stage, hstage, -⟩ := (Option.any_eq_true _ _).1 hwaits
  obtain ⟨call, hc, -⟩ := Option.map_eq_some_iff.1 hstage
  refine h.put hc (fun m => ?_) (fun m => ?_) hrest ?_ (fun h => by cases h)
  · rw [hi, Option.some.injEq]
    split <;> simp_all [Stage.holdsGate]
  · rw [hw, List.mem_cons]
    split
    · rename_i heq
      exact ⟨fun hm => absurd (heq ▸ hm) hn, fun hm => absurd hm Bool.false_ne_true⟩
    · rename_i hne
      exact ⟨.inr, fun hm => hm.resolve_left (Ne.symm hne)⟩
  · rw [h.files, hi, Option.bind_some, if_pos rfl]
    rfl

theorem Guarded.depart (h : b.Guarded) (hc : b.calls[n]? = some call) (hs : call.stage = stage)
    (hg : stage.holdsGate = true) (hn : stage.snapshot? = none)
    (answer : Except LintError LintResult) : (b.depart n answer).Guarded := by
  have hi := h.inside_eq hc (hs ▸ hg)
  have hfiles : b.files = [] := by
    rw [h.files_eq hc hs hg, hn]
    rfl
  -- The line waits for a moment in front of an empty gate.
  have hleft : Guarded ({ b with gate := { inside := none, waiting := b.gate.waiting } }.put n
      (.returned answer)) := by
    refine h.put hc (fun m => ?_) (fun m => ?_) h.nodup hfiles (fun h => by cases h)
    · rw [hi]
      split <;> simp_all [Stage.holdsGate]
    · split
      · rename_i heq
        rw [← heq, h.waiting_iff hc, hs, isWaiting_of_holdsGate hg]
        exact ⟨fun hm => absurd hm Bool.false_ne_true, fun hm => absurd hm Bool.false_ne_true⟩
      · rfl
  cases hw : b.gate.waiting with
  | nil =>
    rw [hw] at hleft
    rw [depart_of_nil hw]
    exact hleft
  | cons m rest =>
    rw [depart_of_cons hw]
    exact hleft.admit rfl hw

theorem Guarded.arrive (h : b.Guarded) (hc : b.calls[n]? = some call)
    (hs : call.stage = .called) : (b.act n call .arrive).Guarded := by
  have hn : ¬n ∈ b.gate.waiting := by
    rw [h.waiting_iff hc, hs]
    exact Bool.false_ne_true
  simp only [act, hs]
  cases hi : b.gate.inside with
  | none =>
    refine h.put hc (fun m => ?_) (fun m => ?_) h.nodup ?_ (fun h => by cases h)
    · simp only [Gate.enter, Option.some.injEq, hi]
      split <;> simp_all [Stage.holdsGate]
    · split
      · rename_i heq
        rw [← heq]
        exact ⟨fun hm => absurd hm hn, fun hm => absurd hm Bool.false_ne_true⟩
      · rfl
    · rw [h.files, hi, Gate.enter, Option.bind_some, if_pos rfl]
      rfl
  | some holder =>
    refine h.outside hc (by rw [hs]; rfl) rfl (fun m => ?_) ?_
    · rw [List.mem_append, List.mem_singleton]
      split
      · rename_i heq
        exact ⟨fun _ => rfl, fun _ => .inr heq.symm⟩
      · rename_i hne
        exact ⟨fun hm => hm.resolve_right (Ne.symm hne), .inl⟩
    · refine List.nodup_append.2 ⟨h.nodup, List.pairwise_singleton _ _, fun a ha m hm heq => ?_⟩
      rw [List.mem_singleton.1 hm] at heq
      exact hn (heq ▸ ha)

theorem Guarded.leaveLine (h : b.Guarded) (hc : b.calls[n]? = some call)
    (hs : call.stage = .waiting) (answer : Except LintError LintResult) :
    Guarded ({ b with gate := { b.gate with waiting := b.gate.waiting.erase n } }.put n
      (.returned answer)) := by
  refine h.outside hc (by rw [hs]; rfl) rfl (fun m => ?_) (h.nodup.erase n)
  rw [h.nodup.mem_erase_iff]
  split
  · rename_i heq
    exact ⟨fun hm => absurd heq.symm hm.1, fun hm => absurd hm Bool.false_ne_true⟩
  · rename_i hne
    exact ⟨And.right, fun hm => ⟨Ne.symm hne, hm⟩⟩

theorem Guarded.append (h : b.Guarded) {new : Call} (hg : new.stage.holdsGate = false)
    (hw : new.stage.isWaiting = false) : Guarded { b with calls := b.calls ++ [new] } := by
  have hnew : b.calls[b.calls.length]? = none := List.getElem?_eq_none (Nat.le_refl _)
  have hget := getElem?_concat b.calls new
  refine ⟨fun m => ?_, fun m => ?_, h.nodup, h.files.trans ?_,
    fun {m call snapshot command} hm => ?_⟩
  · refine (h.inside m).trans ?_
    rw [stage?, stage?, hget]
    split
    · rename_i heq
      rw [heq, hnew, Option.map_some, Option.any_some, hg]
      rfl
    · rfl
  · refine (h.waiting m).trans ?_
    rw [stage?, stage?, hget]
    split
    · rename_i heq
      rw [heq, hnew, Option.map_some, Option.any_some, hw]
      rfl
    · rfl
  · cases hi : b.gate.inside with
    | none => rfl
    | some m =>
      have hne : m ≠ b.calls.length := by
        rintro rfl
        have hs := (h.inside _).1 hi
        rw [stage?, hnew] at hs
        cases hs
      rw [Option.bind_some, Option.bind_some, file?, file?, hget, if_neg hne]
  · rw [hget] at hm
    split at hm
    · cases hm
      intro hs
      rw [hs] at hg
      cases hg
    · exact h.command hm

/-- **What every step preserves.** -/
theorem Guarded.step (h : b.Guarded) (x : Step) : (b.step x).Guarded := by
  cases x with
  | call document kind cursor =>
    refine h.append ?_ ?_ <;> dsimp only <;> split <;> rfl
  | reconfigure settings => exact ⟨h.inside, h.waiting, h.nodup, h.files, h.command⟩
  | move n move =>
    rw [Bridge.step]
    split
    · rename_i call hc
      cases move with
      | arrive =>
        cases hs : call.stage with
        | called => exact h.arrive hc hs
        | _ =>
          simp only [act, hs]
          exact h
      | giveUp =>
        simp only [act]
        split
        · exact h.leaveLine hc ‹_› _
        · exact h.depart hc ‹_› rfl rfl _
        · exact h
      | write created =>
        simp only [act]
        split
        · rename_i hs
          refine h.stay hc hs rfl rfl ?_ (fun h => by cases h)
          rw [h.files_eq hc hs rfl]
          rfl
        · exact h.depart hc ‹_› rfl rfl _
        · exact h
      | execute =>
        simp only [act]
        split
        · rename_i snapshot hs
          split
          · rename_i command hcommand
            have hf := h.files_eq hc hs rfl
            refine h.stay hc hs rfl rfl hf ?_
            rintro _ _ ⟨⟩
            exact hcommand
          · exact h
        · exact h
      | finish outcome =>
        simp only [act]
        split
        · rename_i snapshot command hs
          have hf := h.files_eq hc hs rfl
          exact h.stay hc hs rfl rfl hf (fun h => by cases h)
        · exact h
      | remove =>
        simp only [act]
        split
        · rename_i snapshot outcome hs
          refine h.stay hc hs rfl rfl ?_ (fun h => by cases h)
          rw [h.files_eq hc hs rfl]
          simp [Stage.snapshot?, Call.file?]
        · exact h
      | leave =>
        simp only [act]
        split
        · exact h.depart hc ‹_› rfl rfl _
        · exact h
    · exact h

theorem Guarded.run (h : b.Guarded) (steps : List Step) : (b.run steps).Guarded := by
  induction steps generalizing b with
  | nil => exact h
  | cons x steps ih => exact ih (h.step x)

/-! ## What is asked -/

/-- A call as it came. -/
def Call.origin (call : Call) : Call :=
  { call with stage := .called }

theorem origin_put (b : Bridge) (n : Nat) (stage : Stage) :
    (b.put n stage).calls.map Call.origin = b.calls.map Call.origin := by
  refine List.ext_getElem? fun m => ?_
  rw [List.getElem?_map, List.getElem?_map, getElem?_put]
  split
  · rw [Option.map_map]
    rfl
  · rfl

theorem origin_depart (b : Bridge) (n : Nat) (answer : Except LintError LintResult) :
    (b.depart n answer).calls.map Call.origin = b.calls.map Call.origin := by
  simp only [depart]
  split
  · exact origin_put { b with gate := b.gate.leave.2 } _ _
  · exact (origin_put _ _ _).trans (origin_put { b with gate := b.gate.leave.2 } _ _)

theorem origin_act (b : Bridge) (n : Nat) (call : Call) (move : Move) :
    (b.act n call move).calls.map Call.origin = b.calls.map Call.origin := by
  obtain h | ⟨files, gate, stage, -, h⟩ | ⟨e, h⟩ | ⟨snapshot, outcome, -, -, h⟩ :=
    act_cases b n call move
  · rw [h]
  · rw [h]
    exact origin_put { b with files, gate } _ _
  · rw [h]
    exact origin_depart _ _ _
  · rw [h]
    exact origin_depart _ _ _

/-- **Every call has the settings that were in use when it came.** -/
theorem exists_call_of_run (steps : List Step) (settings : ToolSettings) (gateWait : Duration)
    (hc : (run { settings, gateWait } steps).calls[n]? = some call) :
    ∃ before after, steps = before ++ .call call.document call.kind call.cursor :: after ∧
      (run { settings, gateWait } before).calls.length = n ∧
      call.settings = (run { settings, gateWait } before).settings := by
  induction steps using List.reverseRecOn generalizing call with
  | nil => cases hc
  | append_singleton steps x ih =>
    rw [run_append] at hc
    -- The call came before the last step, or in it.
    have hold : ∀ old, (run { settings, gateWait } steps).calls[n]? = some old →
        old.origin = call.origin →
        ∃ before after, steps ++ [x] =
            before ++ .call call.document call.kind call.cursor :: after ∧
          (run { settings, gateWait } before).calls.length = n ∧
          call.settings = (run { settings, gateWait } before).settings := by
      intro old ho heq
      obtain ⟨before, after, hs, hn, hset⟩ := ih ho
      injection heq with hd hk hcur hsettings
      refine ⟨before, after ++ [x], ?_, hn, hsettings.symm.trans hset⟩
      rw [hs, hd, hk, hcur, List.append_assoc]
      rfl
    cases x with
    | call document kind cursor =>
      rw [run, step, run, getElem?_concat] at hc
      split at hc
      · cases hc
        exact ⟨steps, [], rfl, Eq.symm ‹_›, rfl⟩
      · exact hold call hc rfl
    | move m move =>
      rw [run, step, run] at hc
      split at hc
      · rename_i moved _
        have horigin :=
          congrArg (·[n]?) (origin_act (run { settings, gateWait } steps) m moved move)
        rw [List.getElem?_map, List.getElem?_map, hc] at horigin
        obtain ⟨old, ho, heq⟩ := Option.map_eq_some_iff.1 horigin.symm
        exact hold old ho heq
      · exact hold call hc rfl
    | reconfigure other => exact hold call hc rfl

/-! ## Every moment of every run -/

/-- Whether evi runs for a call. -/
def isRunning (b : Bridge) (n : Nat) : Bool :=
  (b.stage? n).any Stage.isRunning

theorem holdsGate_of_isRunning (h : stage.isRunning = true) : stage.holdsGate = true := by
  cases stage <;> first | rfl | cases h

/-- Whoever has evi run holds the gate. -/
theorem Guarded.inside_of_isRunning (h : b.Guarded) (hn : b.isRunning n = true) :
    b.gate.inside = some n := by
  obtain ⟨stage, hs, hr⟩ := (Option.any_eq_true _ _).1 hn
  exact (h.inside n).2 ((Option.any_eq_true _ _).2 ⟨stage, hs, holdsGate_of_isRunning hr⟩)

/-- A snapshot belongs to the call that holds the gate. -/
theorem Guarded.exists_holder (h : b.Guarded) {file : Path × String} (hf : file ∈ b.files) :
    ∃ n, b.gate.inside = some n ∧ b.file? n = some file := by
  rw [h.files, Option.mem_toList] at hf
  exact Option.bind_eq_some_iff.1 hf

/-- **One evi at a time, and nothing left behind.** At every moment of every run evi runs for one
call at most, and one snapshot exists at most, that of the call that holds the gate. While evi runs,
the file that the command names first is there with the text of the caller, and the command is the
one for the settings that were in use when the call came. A call that has returned does not hold the
gate or wait for it, and no snapshot of it is left: whatever exists belongs to another call, which
holds the gate. -/
theorem one_at_a_time (settings : ToolSettings) (gateWait : Duration) (steps : List Step) :
    let b := run { settings, gateWait } steps
    (∀ n m, b.isRunning n = true → b.isRunning m = true → n = m) ∧
      b.files.length ≤ 1 ∧
      (∀ file ∈ b.files, ∃ n, b.gate.inside = some n ∧ b.file? n = some file) ∧
      (∀ (n : Nat) call snapshot command, b.calls[n]? = some call →
        call.stage = .running snapshot command →
          b.files = [(snapshot, call.document.text)] ∧
          command.arguments.head? = some snapshot.text ∧
          ∃ before after program,
            steps = before ++ .call call.document call.kind call.cursor :: after ∧
              (run { settings, gateWait } before).calls.length = n ∧
              (run { settings, gateWait } before).settings.executable = some program ∧
              command = (LintRequest.make call.document call.kind call.cursor
                (run { settings, gateWait } before).settings).command program snapshot) ∧
      ∀ (n : Nat) call answer, b.calls[n]? = some call → call.stage = .returned answer →
        b.gate.inside ≠ some n ∧ n ∉ b.gate.waiting ∧
          ∀ file ∈ b.files, ∃ m, m ≠ n ∧ b.gate.inside = some m ∧ b.file? m = some file := by
  intro b
  have h : b.Guarded := (guarded_start settings gateWait).run steps
  refine ⟨fun n m hn hm => ?_, ?_, fun _ => h.exists_holder,
    fun n call snapshot command hc hs => ⟨?_, ?_, ?_⟩, fun n call answer hc hs => ?_⟩
  · exact Option.some.inj ((h.inside_of_isRunning hn).symm.trans (h.inside_of_isRunning hm))
  · rw [h.files]
    exact Option.length_toList_le
  · exact h.files_eq hc hs rfl
  · obtain ⟨program, -, rfl⟩ := Option.map_eq_some_iff.1 (h.command hc hs)
    rfl
  · obtain ⟨before, after, he, hn, hset⟩ := exists_call_of_run steps settings gateWait hc
    obtain ⟨program, hp, hcommand⟩ := Option.map_eq_some_iff.1 (h.command hc hs)
    rw [hset] at hp hcommand
    exact ⟨before, after, program, he, hn, hp, hcommand.symm⟩
  · have hout : b.gate.inside ≠ some n := by
      rw [Ne, h.inside, stage?, hc, Option.map_some, Option.any_some, hs]
      exact Bool.false_ne_true
    refine ⟨hout, ?_, fun file hf => ?_⟩
    · rw [h.waiting_iff hc, hs]
      exact Bool.false_ne_true
    · obtain ⟨m, hi, hm⟩ := h.exists_holder hf
      exact ⟨m, fun heq => hout (heq ▸ hi), hi, hm⟩

/-- When the first call has left, the second one goes in and writes its snapshot. -/
example :
    let first : Document := ⟨⟨"/a.evi"⟩, "1", "evi"⟩
    let second : Document := ⟨⟨"/b.evi"⟩, "2", "evi"⟩
    (run { settings := { executable := some ⟨"/evi"⟩ }, gateWait := .ofMillis 3000 }
      [.call first .diagnostics none, .call second .diagnostics none, .move 0 .arrive,
        .move 1 .arrive, .move 0 (.write (.ok ⟨"/tmp/1"⟩)), .move 0 .execute,
        .move 0 (.finish (.ok "[]")), .move 0 .remove, .move 0 .leave,
        .move 1 (.write (.ok ⟨"/tmp/2"⟩)), .move 1 .execute]).files = [(⟨"/tmp/2"⟩, "2")] := by
  rfl

end Bridge

end EviAssist
