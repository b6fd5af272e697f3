import EviAssist.Proofs.Background.Session
import EviAssist.Proofs.Bridge
import Mathlib.Data.List.Forall2
import Mathlib.Data.List.Nodup

/-!
# The questions of a session as calls

The questions of a session, whether someone waits for the answer or they belong to checks, are
calls of one bridge. A step of the session is a few steps of the bridge, so whatever holds of all
runs of the bridge holds of sessions.

* `Session.Plays`: whether a call of the bridge asks a question of the session, and how far it has
  come.
* `Session.Mirrors`: whether a bridge is in the state of a session.
* `Session.mirrors_step`: what the bridge does in a step of the session.
* `Session.exists_mirrors_run`: every run of a session is a run of a bridge.
* `Session.snapshots_run`: what this says of the snapshots of a session.
-/

namespace EviAssist.Session

open Bridge (Stage)

/-- Whether a call asks a question. -/
def Question.IsAskedBy (q : Question) (call : Bridge.Call) : Prop :=
  call.document = q.document ∧ call.settings.executable = some q.program ∧
    LintRequest.make call.document call.kind call.cursor call.settings = q.request

/-- How far the call of a run has come: it waits for evi, or could not write its snapshot. -/
def Run.stage (r : Run) : Stage :=
  match r.snapshot with
  | none => .inside
  | some snapshot => .running snapshot (r.question.request.command r.question.program snapshot)

/-- Whether a call of the bridge asks a question, and has come to a stage. -/
def Plays (b : Bridge) (q : Question) (stage : Stage) (n : Nat) : Prop :=
  ∃ call, b.calls[n]? = some call ∧ q.IsAskedBy call ∧ call.stage = stage

/-- Whether a bridge is in the state of a session. -/
structure Mirrors (s : Session) (b : Bridge) : Prop where
  guarded : b.Guarded
  settings : b.settings = s.settings
  files : b.files = s.snapshots
  vacant : s.gate.inside = none → b.gate.inside = none ∧ s.gate.waiting = []
  holder : ∀ r, s.gate.inside = some r →
    ∃ n, b.gate.inside = some n ∧ Plays b r.question r.stage n
  waiting : List.Forall₂ (fun n q => Plays b q .waiting n) b.gate.waiting s.gate.waiting

variable {s t : Session} {b : Bridge} {q : Question} {n m : Nat} {stage : Stage}

theorem Plays.put (h : Plays b q stage m) (hne : n ≠ m) (other : Stage) :
    Plays (b.put n other) q stage m := by
  obtain ⟨call, hc, ha, hs⟩ := h
  exact ⟨call, by rw [Bridge.getElem?_put, if_neg hne, hc], ha, hs⟩

theorem Plays.put_self (h : Plays b q stage n) (other : Stage) :
    Plays (b.put n other) q other n := by
  obtain ⟨call, hc, ha, -⟩ := h
  exact ⟨{ call with stage := other }, by rw [Bridge.getElem?_put, if_pos rfl, hc]; rfl, ha, rfl⟩

theorem Plays.append (h : Plays b q stage n) (new : Bridge.Call) :
    Plays { b with calls := b.calls ++ [new] } q stage n := by
  obtain ⟨call, hc, ha, hs⟩ := h
  exact ⟨call, by rw [List.getElem?_append_left (List.getElem?_eq_some_iff.1 hc).1, hc], ha, hs⟩

theorem Plays.ne {q' : Question} {stage' : Stage} (h : Plays b q stage n)
    (h' : Plays b q' stage' m) (hs : stage ≠ stage') : n ≠ m := by
  rintro rfl
  obtain ⟨call, hc, -, hstage⟩ := h
  obtain ⟨call', hc', -, hstage'⟩ := h'
  rw [hc] at hc'
  cases hc'
  exact hs (hstage.symm.trans hstage')

theorem waiting_put {waiting : List Nat} {questions : List Question}
    (h : List.Forall₂ (fun m q => Plays b q .waiting m) waiting questions) (hn : n ∉ waiting)
    (other : Stage) :
    List.Forall₂ (fun m q => Plays (b.put n other) q .waiting m) waiting questions := by
  have hne : ∀ m ∈ waiting, n ≠ m := fun m hm heq => hn (heq ▸ hm)
  exact ((List.forall₂_and_left _ _).2 ⟨hne, h⟩).imp fun _ _ hp => hp.2.put hp.1 other

/-! ## Blocks of steps -/

variable {call : Bridge.Call}

theorem put_put (b : Bridge) (n : Nat) (earlier later : Stage) :
    (b.put n earlier).put n later = b.put n later :=
  congrArg (fun calls => { b with calls }) (List.modify_modify_eq _ _ _ _)

theorem run_write_execute (hc : b.calls[n]? = some call) (hs : call.stage = .inside)
    {snapshot : Path} {command : ToolCommand} (hcommand : call.command? snapshot = some command) :
    b.run [.move n (.write (.ok snapshot)), .move n .execute] =
      { b with files := b.files ++ [(snapshot, call.document.text)] }.put n
        (.running snapshot command) := by
  let written : Bridge :=
    { b with files := b.files ++ [(snapshot, call.document.text)] }.put n (.written snapshot)
  have hwritten : written.calls[n]? = some { call with stage := .written snapshot } :=
    Bridge.getElem?_put_self (b := { b with files := _ }) hc _
  have hfirst : b.step (.move n (.write (.ok snapshot))) = written := by
    rw [Bridge.step_move hc]
    simp only [Bridge.act, hs]
    rfl
  have hcommand' : Bridge.Call.command? { call with stage := .written snapshot } snapshot =
      some command := hcommand
  rw [Bridge.run, hfirst, Bridge.run, Bridge.step_move hwritten, Bridge.run]
  simp only [Bridge.act, hcommand']
  exact put_put _ _ _ _

theorem run_finish_remove (hc : b.calls[n]? = some call) {snapshot : Path} {command : ToolCommand}
    (hs : call.stage = .running snapshot command) (outcome : Except LintError String) :
    b.run [.move n (.finish outcome), .move n .remove] =
      { b with files := b.files.filter fun file => file.1 ≠ snapshot }.put n
        (.removed snapshot outcome) := by
  let ended := b.put n (.ended snapshot outcome)
  have hended : ended.calls[n]? = some { call with stage := .ended snapshot outcome } :=
    Bridge.getElem?_put_self hc _
  have hfirst : b.step (.move n (.finish outcome)) = ended := by
    rw [Bridge.step_move hc]
    simp only [Bridge.act, hs]
    rfl
  rw [Bridge.run, hfirst, Bridge.run, Bridge.step_move hended, Bridge.run]
  exact put_put { b with files := _ } _ _ _

/-! ## Steps -/

theorem mirrors_enter (hg : b.Guarded) (hset : b.settings = s.settings)
    (hf : b.files = s.snapshots) (hi : b.gate.inside = some n) (hp : Plays b q .inside n)
    (hw : List.Forall₂ (fun m q => Plays b q .waiting m) b.gate.waiting s.gate.waiting) :
    ∃ steps, (s.enter q).Mirrors (b.run steps) := by
  cases hs : Snapshot.path? true s.scratch q.document.path s.written with
  | error e =>
    refine ⟨[], hg, ?_, ?_, ?_, ?_, ?_⟩ <;> simp only [enter, hs, Bridge.run]
    · exact hset
    · exact hf
    · exact fun hn => absurd hn (Option.some_ne_none _)
    · rintro r ⟨⟩
      exact ⟨n, hi, hp⟩
    · exact hw
  | ok snapshot =>
    let command := q.request.command q.program snapshot
    obtain ⟨call, hc, ⟨hd, he, hr⟩, hstage⟩ := hp
    have hcommand : call.command? snapshot = some command := by
      rw [Bridge.Call.command?, he, hr]
      rfl
    have hn : n ∉ b.gate.waiting := by
      rw [hg.waiting_iff hc, hstage]
      exact Bool.false_ne_true
    have hguarded := hg.run [.move n (.write (.ok snapshot)), .move n .execute]
    have hb := run_write_execute hc hstage hcommand
    rw [hb] at hguarded
    refine ⟨[.move n (.write (.ok snapshot)), .move n .execute], ?_⟩
    rw [hb]
    refine ⟨hguarded, ?_, ?_, ?_, ?_, ?_⟩ <;> simp only [enter, hs]
    · exact hset
    · exact congrArg₂ (fun files text => files ++ [(snapshot, text)]) hf (congrArg (·.text) hd)
    · exact fun hn => absurd hn (Option.some_ne_none _)
    · rintro r ⟨⟩
      exact ⟨n, hi, _, Bridge.getElem?_put_self (b := { b with files := _ }) hc _,
        ⟨hd, he, hr⟩, rfl⟩
    · exact waiting_put (b := { b with files := _ }) hw hn _

theorem mirrors_depart (hg : b.Guarded) (hset : b.settings = t.settings)
    (hf : b.files = t.snapshots) (hc : b.calls[n]? = some call)
    (hs : call.stage = stage) (hh : stage.holdsGate = true) (hn : stage.snapshot? = none)
    {line : List Question}
    (hw : List.Forall₂ (fun m q => Plays b q .waiting m) b.gate.waiting line)
    (hi : t.gate.inside = none) (ht : t.gate.waiting = line.drop 1)
    (answer : Except LintError LintResult) :
    ∃ steps, Mirrors
      (match line.head? with
        | none => t
        | some q => t.enter q)
      ((b.depart n answer).run steps) := by
  have hguarded := hg.depart hc hs hh hn answer
  have hline : n ∉ b.gate.waiting := by
    rw [hg.waiting_iff hc, hs, Bridge.isWaiting_of_holdsGate hh]
    exact Bool.false_ne_true
  generalize hwait : b.gate.waiting = waiting at hw hline
  cases hw with
  | nil =>
    refine ⟨[], ?_⟩
    rw [List.head?_nil, Bridge.run]
    rw [Bridge.depart_of_nil hwait] at hguarded ⊢
    refine ⟨hguarded, hset, hf, fun _ => ⟨rfl, ht⟩, fun r hr => ?_, ?_⟩
    · cases hi.symm.trans hr
    · rw [ht]
      exact .nil
  | @cons m q ms rest hq hrest =>
    rw [Bridge.depart_of_cons hwait] at hguarded ⊢
    obtain ⟨hnm, hnms⟩ := not_or.1 fun h => hline (List.mem_cons.2 h)
    have hm : m ∉ ms := by
      have := hg.nodup
      rw [hwait] at this
      exact (List.nodup_cons.1 this).1
    refine mirrors_enter hguarded hset hf rfl (Plays.put_self (hq.put hnm _) _) ?_
    rw [ht]
    exact waiting_put (waiting_put (b := { b with gate := _ }) hrest hnms _) hm _

theorem conclude_eq (s : Session) (asker : Asker) (document : Document)
    (answer : Except LintError LintResult) :
    (s.conclude asker document answer).settings = s.settings ∧
      (s.conclude asker document answer).snapshots = s.snapshots := by
  cases asker <;> exact ⟨rfl, rfl⟩

theorem mirrors_release (h : s.Mirrors b) {r : Run} (hr : s.gate.inside = some r) :
    ∃ steps, (s.release r).Mirrors (b.run steps) := by
  obtain ⟨n, hi, call, hc, hq, hstage⟩ := h.holder r hr
  obtain ⟨hset, hsnap⟩ := (s.left r).conclude_eq r.question.asker r.question.document r.answer
  have hgate := gate_conclude (s.left r) r.question.asker r.question.document r.answer
  generalize ht : (s.left r).conclude r.question.asker r.question.document r.answer = t at *
  rw [gate_left] at hgate
  rw [release_eq, ht]
  cases hs : r.snapshot with
  | none =>
    have hin : call.stage = .inside := by rw [hstage, Run.stage, hs]
    have hfiles : b.files = t.snapshots := by
      rw [h.files, hsnap, left, remove, hs]
      exact (List.filter_eq_self.2 fun _ _ => rfl).symm
    let e : LintError := .toolNotFound none
    obtain ⟨later, hl⟩ := mirrors_depart h.guarded (h.settings.trans hset.symm) hfiles hc
      hin rfl rfl h.waiting (by rw [hgate]) (by rw [hgate]) (.error e)
    refine ⟨.move n (.write (.error e)) :: later, ?_⟩
    rw [Bridge.run, Bridge.step_move hc]
    simp only [Bridge.act, hin]
    exact hl
  | some snapshot =>
    let command := r.question.request.command r.question.program snapshot
    have hrun : call.stage = .running snapshot command := by rw [hstage, Run.stage, hs]
    have hn : n ∉ b.gate.waiting := by
      rw [h.guarded.waiting_iff hc, hrun]
      exact Bool.false_ne_true
    let ending : List Bridge.Step := [.move n (.finish r.outcome), .move n .remove]
    have hguarded := h.guarded.run ending
    have hb : b.run ending = _ := run_finish_remove hc hrun r.outcome
    rw [hb] at hguarded
    have hfiles : (b.files.filter fun file => file.1 ≠ snapshot) = t.snapshots := by
      rw [hsnap, left, remove, hs, h.files]
      exact List.filter_congr fun file _ => by simp
    have hremoved := Bridge.getElem?_put_self
      (b := { b with files := b.files.filter fun file => file.1 ≠ snapshot }) hc
      (.removed snapshot r.outcome)
    obtain ⟨later, hl⟩ := mirrors_depart hguarded (h.settings.trans hset.symm) hfiles hremoved
      rfl rfl rfl (waiting_put (b := { b with files := _ }) h.waiting hn _) (by rw [hgate])
      (by rw [hgate]) (call.answer snapshot r.outcome)
    refine ⟨ending ++ .move n .leave :: later, ?_⟩
    rw [Bridge.run_append, hb, Bridge.run, Bridge.step_move hremoved]
    exact hl

/-- A bridge that is in the state of a session is in that of another one with the same gate,
settings and snapshots. -/
theorem Mirrors.of_eq (h : s.Mirrors b) (hgate : t.gate = s.gate)
    (hset : t.settings = s.settings) (hsnap : t.snapshots = s.snapshots) : t.Mirrors b where
  guarded := h.guarded
  settings := h.settings.trans hset.symm
  files := h.files.trans hsnap.symm
  vacant := by
    rw [hgate]
    exact h.vacant
  holder := by
    rw [hgate]
    exact h.holder
  waiting := by
    rw [hgate]
    exact h.waiting

theorem Mirrors.append (h : s.Mirrors b) (new : Bridge.Call)
    (hg : Bridge.Guarded { b with calls := b.calls ++ [new] }) :
    s.Mirrors { b with calls := b.calls ++ [new] } where
  guarded := hg
  settings := h.settings
  files := h.files
  vacant := h.vacant
  holder := fun r hr =>
    let ⟨n, hi, hp⟩ := h.holder r hr
    ⟨n, hi, hp.append new⟩
  waiting := h.waiting.imp fun _ _ hp => hp.append new

theorem Mirrors.reconfigure (h : s.Mirrors b) (settings : ToolSettings) :
    (s.reconfigure settings).Mirrors (b.step (.reconfigure settings)) where
  guarded := h.guarded.step (.reconfigure settings)
  settings := rfl
  files := h.files
  vacant := h.vacant
  holder := h.holder
  waiting := h.waiting

theorem Run.holdsGate_stage (r : Run) : r.stage.holdsGate = true := by
  unfold Run.stage
  split <;> rfl

theorem ne_stage (r : Run) (h : stage.holdsGate = false) : stage ≠ r.stage := by
  rintro rfl
  cases h.symm.trans r.holdsGate_stage

theorem mirrors_arrive (h : s.Mirrors b) (hp : Plays b q .called n) :
    ∃ steps, Mirrors
      (match s.gate.inside with
        | none => s.enter q
        | some _ => { s with gate := s.gate.queue q })
      (b.run steps) := by
  obtain ⟨call, hc, -, hstage⟩ := id hp
  have hn : n ∉ b.gate.waiting := by
    rw [h.guarded.waiting_iff hc, hstage]
    exact Bool.false_ne_true
  have hg := h.guarded.arrive hc hstage
  have hrun : ∀ later, b.run (.move n .arrive :: later) = (b.act n call .arrive).run later := by
    intro later
    rw [Bridge.run, Bridge.step_move hc]
  cases hi : s.gate.inside with
  | none =>
    obtain ⟨hbi, -⟩ := h.vacant hi
    simp only [Bridge.act, hstage, hbi] at hg hrun
    obtain ⟨later, hl⟩ := mirrors_enter (s := s) hg h.settings h.files rfl
      (Plays.put_self (b := { b with gate := _ }) hp _)
      (waiting_put (b := { b with gate := _ }) h.waiting hn _)
    exact ⟨.move n .arrive :: later, (hrun later).symm ▸ hl⟩
  | some r =>
    obtain ⟨k, hk, hplays⟩ := h.holder r hi
    simp only [Bridge.act, hstage, hk] at hg hrun
    refine ⟨[.move n .arrive], (hrun []).symm ▸ ⟨hg, h.settings, h.files, ?_, ?_, ?_⟩⟩
    · intro hnone
      cases hi.symm.trans hnone
    · intro r' hr'
      cases hi.symm.trans hr'
      have hne : n ≠ k := hp.ne hplays (ne_stage r rfl)
      exact ⟨k, hk, Plays.put (b := { b with gate := _ }) hplays hne _⟩
    · exact List.rel_append (waiting_put (b := { b with gate := _ }) h.waiting hn _)
        (.cons (Plays.put_self (b := { b with gate := _ }) hp _) .nil)

theorem mirrors_start (h : s.Mirrors b) (asker : Asker) (document : Document) (kind : LintKind)
    (cursor : Option Position) :
    ∃ steps, (s.start asker document kind cursor).Mirrors (b.run steps) := by
  have hg := h.guarded.step (.call document kind cursor)
  cases he : s.settings.executable with
  | none =>
    have hs : s.start asker document kind cursor =
        s.conclude asker document (.error (.toolNotFound none)) := by
      simp only [start, he]
    obtain ⟨hset, hsnap⟩ := s.conclude_eq asker document (.error (.toolNotFound none))
    rw [hs]
    exact ⟨[.call document kind cursor],
      (h.append _ hg).of_eq (gate_conclude _ _ _ _) hset hsnap⟩
  | some program =>
    let new : Bridge.Call := ⟨document, kind, cursor, s.settings, .called⟩
    have hcalled : b.step (.call document kind cursor) = { b with calls := b.calls ++ [new] } := by
      simp only [Bridge.step, h.settings, he]
      rfl
    rw [hcalled] at hg
    have hp : Plays { b with calls := b.calls ++ [new] }
        (s.asked asker document kind cursor program) .called b.calls.length :=
      ⟨new, List.getElem?_concat_length, ⟨rfl, he, rfl⟩, rfl⟩
    obtain ⟨later, hl⟩ := mirrors_arrive (h.append new hg) hp
    rw [start_of_some he]
    refine ⟨.call document kind cursor :: later, ?_⟩
    rw [Bridge.run, hcalled]
    exact hl

theorem exists_of_getElem? {R : Nat → Question → Prop} {waiting : List Nat}
    {questions : List Question} (h : List.Forall₂ R waiting questions) {place : Nat}
    (hq : questions[place]? = some q) :
    ∃ n, waiting[place]? = some n ∧ R n q ∧
      List.Forall₂ R (waiting.eraseIdx place) (questions.eraseIdx place) := by
  induction h generalizing place with
  | nil => cases hq
  | @cons n first waiting questions hfirst hrest ih =>
    cases place with
    | zero =>
      cases hq
      exact ⟨n, rfl, hfirst, hrest⟩
    | succ place =>
      obtain ⟨m, hm, hr, he⟩ := ih hq
      exact ⟨m, hm, hr, .cons hfirst he⟩

theorem mirrors_leaveLine (h : s.Mirrors b) {place : Nat}
    (hq : s.gate.waiting[place]? = some q) :
    ∃ steps, (s.leaveLine q place).Mirrors (b.run steps) := by
  obtain ⟨n, hn, hp, hline⟩ := exists_of_getElem? h.waiting hq
  obtain ⟨call, hc, -, hstage⟩ := id hp
  obtain ⟨hlt, heq⟩ := List.getElem?_eq_some_iff.1 hn
  have herase : b.gate.waiting.erase n = b.gate.waiting.eraseIdx place :=
    heq ▸ h.guarded.nodup.erase_getElem place hlt
  have hne : n ∉ b.gate.waiting.eraseIdx place := herase ▸ h.guarded.nodup.not_mem_erase
  let answer : Except LintError LintResult := .error (.gateTimeout b.gateWait)
  have hg := h.guarded.leaveLine hc hstage answer
  have hb : b.step (.move n .giveUp) =
      { b with gate := { b.gate with waiting := b.gate.waiting.erase n } }.put n
        (.returned answer) := by
    rw [Bridge.step_move hc]
    simp only [Bridge.act, hstage]
    rfl
  rw [herase] at hg hb
  let left : Session := { s with gate := { s.gate with waiting := s.gate.waiting.eraseIdx place } }
  have hm : left.Mirrors ({ b with gate := { b.gate with
      waiting := b.gate.waiting.eraseIdx place } }.put n (.returned answer)) := by
    refine ⟨hg, h.settings, h.files, ?_, ?_, waiting_put (b := { b with gate := _ }) hline hne _⟩
    · intro hi
      rw [(h.vacant hi).2] at hq
      cases hq
    · intro r hr
      obtain ⟨k, hk, hplays⟩ := h.holder r hr
      exact ⟨k, hk, Plays.put (b := { b with gate := _ }) hplays (hp.ne hplays (ne_stage r rfl)) _⟩
  obtain ⟨hset, hsnap⟩ :=
    left.conclude_eq q.asker q.document (.error (.gateTimeout (.ofMillis s.gateWait)))
  refine ⟨[.move n .giveUp], ?_⟩
  rw [Bridge.run, Bridge.run, hb]
  exact hm.of_eq (gate_conclude left _ _ _) hset hsnap

/-- **A step of a session is a few steps of the bridge.** -/
theorem mirrors_step (h : s.Mirrors b) (x : Step) : ∃ steps, (s.step x).Mirrors (b.run steps) := by
  cases x with
  | edit document =>
    refine ⟨[], h.of_eq (gate_edit s document) ?_ ?_⟩ <;> simp only [step, edit] <;> split <;> rfl
  | close path => exact ⟨[], h.of_eq rfl rfl rfl⟩
  | apply validation settings =>
    exact ⟨[.reconfigure settings], (h.reconfigure settings).of_eq rfl rfl rfl⟩
  | reconfigure settings => exact ⟨[.reconfigure settings], h.reconfigure settings⟩
  | ask document kind cursor =>
    have hm : Mirrors { s with started := s.started + 1 } b := h.of_eq rfl rfl rfl
    exact mirrors_start hm _ _ _ _
  | fire timer =>
    rw [step]
    split
    · rw [fire]
      dsimp only
      split
      · exact ⟨[], h.of_eq rfl rfl rfl⟩
      · rename_i debouncer _
        let woken : Session :=
          { s with now := timer.due, timers := s.timers.erase timer, debouncer }
        have hm : woken.Mirrors b := h.of_eq rfl rfl rfl
        exact mirrors_start hm _ _ _ _
    · exact ⟨[], h⟩
  | release =>
    rw [step]
    split
    · exact mirrors_release h ‹_›
    · exact ⟨[], h⟩
  | giveUp place =>
    rw [step]
    split
    · exact mirrors_leaveLine h ‹_›
    · exact ⟨[], h⟩
  | tick time => exact ⟨[], h.of_eq rfl rfl rfl⟩

/-- **Every run of a session is a run of a bridge.** -/
theorem exists_mirrors_run (h : s.Mirrors b) (steps : List Step) :
    ∃ moves, (s.run steps).Mirrors (b.run moves) := by
  induction steps generalizing s b with
  | nil => exact ⟨[], h⟩
  | cons x steps ih =>
    obtain ⟨first, hf⟩ := mirrors_step h x
    obtain ⟨later, hl⟩ := ih hf
    exact ⟨first ++ later, by rw [Bridge.run_append]; exact hl⟩

theorem mirrors_fresh (directory : Option Path) (scratch : Path) (tool : Tool)
    (gateWait debounce : Nat) (settings : ToolSettings) (suggestions : Bool)
    (validation : ValidationSettings) :
    (fresh directory scratch tool gateWait debounce settings suggestions validation).Mirrors
      { settings, gateWait := .ofMillis gateWait } where
  guarded := Bridge.guarded_start _ _
  settings := rfl
  files := rfl
  vacant := fun _ => ⟨rfl, rfl⟩
  holder := fun _ hr => absurd hr.symm (Option.some_ne_none _)
  waiting := .nil

/-- **The snapshots of a session.** When nobody is at the gate there is none, and during a run of
evi there is that of the run, with the text that is asked about. -/
theorem Mirrors.snapshots (h : s.Mirrors b) :
    s.snapshots =
      match s.gate.inside with
      | none => []
      | some r =>
        (r.snapshot.map fun snapshot => (snapshot, r.question.document.text)).toList := by
  rw [← h.files]
  cases hi : s.gate.inside with
  | none =>
    rw [h.guarded.files, (h.vacant hi).1]
    rfl
  | some r =>
    obtain ⟨n, -, call, hc, hq, hstage⟩ := h.holder r hi
    rw [h.guarded.files_eq hc hstage r.holdsGate_stage, Run.stage, hq.1]
    dsimp only
    cases r.snapshot <;> rfl

/-- **At every moment of every session** there is the snapshot of the run in progress, or none. -/
theorem snapshots_run (directory : Option Path) (scratch : Path) (tool : Tool)
    (gateWait debounce : Nat) (settings : ToolSettings) (suggestions : Bool)
    (validation : ValidationSettings)
    (steps : List Step) :
    let s := (fresh directory scratch tool gateWait debounce settings suggestions validation).run
      steps
    s.snapshots =
      match s.gate.inside with
      | none => []
      | some r =>
        (r.snapshot.map fun snapshot => (snapshot, r.question.document.text)).toList := by
  intro s
  have hfresh := mirrors_fresh directory scratch tool gateWait debounce settings suggestions
    validation
  obtain ⟨moves, h⟩ := exists_mirrors_run hfresh steps
  exact h.snapshots

end EviAssist.Session
