import EviAssist.Proofs.Background.LatestText
import EviAssist.Proofs.Session
import Mathlib.Data.Multiset.AddSub

/-!
# Sessions in the background

In a session one thing happens after another. Whatever is done in it, and whatever happens by
itself, is a history of whole operations in the background, so what holds of all runs, or of all
such histories, holds of sessions.

* `Session.background`: what a session has in the background.
* `Session.IsKeyed`: whether the questions of checks are about the documents of their keys.
* `Session.Leads`: whether a session goes on as another one by operations in the background.
* `Session.leads_edit`, `Session.leads_close`, `Session.leads_reload`, `Session.leads_settle`,
  `Session.leads_await`, `Session.leads_inquire`: all that is done in a session leads on so.
* `Session.exists_after_of_leads`, `Session.isReachable_of_leads`: where a whole session leads.
* `Session.find?_of_mem_timers`: the texts of the checks that a session has scheduled.
-/

namespace EviAssist.Session

open Background (Job Check Operation)

/-! ## Questions of checks -/

/-- The check that a question belongs to, if it belongs to one. -/
def Asker.check? (document : Document) (program : Option Path) : Asker → Option Check
  | .task _ => none
  | .check _ generation => some ⟨⟨generation, document⟩, program⟩

/-- Whether a check is about the document of its key. -/
def Asker.isKeyed (document : Document) : Asker → Prop
  | .task _ => True
  | .check key _ => key = document.path

/-- The check that a question at the gate belongs to. -/
def Question.check? (q : Question) : Option Check :=
  q.asker.check? q.document (some q.program)

/-- The questions at the gate. -/
def questions (s : Session) : List Question :=
  s.gate.inside.toList.map (·.question) ++ s.gate.waiting

/-- The checks at the gate. -/
def checks (s : Session) : Multiset Check :=
  s.questions.filterMap Question.check?

/-- Whether the questions of checks are about the documents of their keys. -/
def IsKeyed (s : Session) : Prop :=
  ∀ q ∈ s.questions, q.asker.isKeyed q.document

/-! ## The background -/

/-- The check that is scheduled. -/
def Timer.job (timer : Timer) : Job :=
  ⟨timer.generation, timer.document⟩

/-- What a session has in the background, with the given checks in flight. -/
def backgroundWith (s : Session) (running : Multiset Check) : Background where
  directory := s.directory
  tools := s.settings
  validator := s.validator
  debouncer := s.debouncer
  waiting := s.timers.map Timer.job
  running

/-- What a session has in the background. -/
def background (s : Session) : Background :=
  s.backgroundWith s.checks

/-- Whether some operations lead from a background to that of a session, with all that is announced
in them after what was announced before. -/
def Reached (b : Background) (events : List ValidationEvent) (t : Session) : Prop :=
  ∃ history, b.after history = t.background ∧ t.events = events ++ b.announcedAfter history

/-- Whether a session goes on as another one by operations in the background. -/
def Leads (s t : Session) : Prop :=
  s.IsKeyed → t.IsKeyed ∧ Reached s.background s.events t

variable {s t u : Session}

theorem Leads.refl (s : Session) : s.Leads s := by
  intro hk
  exact ⟨hk, [], rfl, (List.append_nil _).symm⟩

theorem Leads.trans (h : s.Leads t) (h' : t.Leads u) : s.Leads u := by
  intro hk
  obtain ⟨ht, earlier, hr, he⟩ := h hk
  obtain ⟨hu, later, hr', he'⟩ := h' ht
  refine ⟨hu, later ++ earlier, ?_, ?_⟩
  · rw [Background.after_append, hr, hr']
  · rw [Background.announcedAfter_append, hr, he', he, List.append_assoc]

theorem Leads.of_eq (hg : t.gate = s.gate) (hb : t.background = s.background)
    (he : t.events = s.events) : s.Leads t := by
  intro hk
  refine ⟨?_, [], hb.symm, ?_⟩
  · simpa only [IsKeyed, questions, hg] using hk
  · rw [he]
    exact (List.append_nil _).symm

theorem Reached.refl (s : Session) : Reached s.background s.events s :=
  ⟨[], rfl, (List.append_nil _).symm⟩

theorem Reached.after {b : Background} {events : List ValidationEvent} (operation : Operation)
    (h : Reached (b.perform operation) (events ++ b.announces operation) t) :
    Reached b events t := by
  obtain ⟨later, hr, he⟩ := h
  refine ⟨later ++ [operation], ?_, ?_⟩
  · rw [Background.after_append]
    exact hr
  · rw [Background.announcedAfter_append, he, List.append_assoc]
    rfl

theorem Leads.of_perform (operation : Operation) (hg : t.gate = s.gate)
    (hb : s.background.perform operation = t.background)
    (he : t.events = s.events ++ s.background.announces operation) : s.Leads t := by
  intro hk
  refine ⟨?_, Reached.after operation ?_⟩
  · simpa only [IsKeyed, questions, hg] using hk
  · rw [hb, ← he]
    exact .refl t

/-! ## Answers -/

theorem checks_conclude (s : Session) (asker : Asker) (document : Document)
    (answer : Except LintError LintResult) :
    (s.conclude asker document answer).checks = s.checks := by
  cases asker <;> rfl

theorem questions_conclude (s : Session) (asker : Asker) (document : Document)
    (answer : Except LintError LintResult) :
    (s.conclude asker document answer).questions = s.questions := by
  cases asker <;> rfl

theorem Reached.of_conclude {asker : Asker} {document : Document} {program : Option Path}
    {answer : Except LintError LintResult} {rest : Multiset Check}
    (hk : asker.isKeyed document)
    (h : Reached ((s.conclude asker document answer).backgroundWith rest)
      (s.conclude asker document answer).events t) :
    Reached (s.backgroundWith (↑(asker.check? document program).toList + rest)) s.events t := by
  cases asker with
  | task number =>
    rw [show (↑((Asker.task number).check? document program).toList : Multiset Check) = 0 from rfl,
      Multiset.zero_add]
    exact h
  | check key generation =>
    cases hk
    let check : Check := ⟨⟨generation, document⟩, program⟩
    have hr : (s.backgroundWith (↑((Asker.check document.path generation).check? document
        program).toList + rest)).running = check ::ₘ rest := rfl
    apply Reached.after (.conclude check answer)
    rw [(Background.perform_conclude hr answer).1, (Background.perform_conclude hr answer).2]
    exact h

/-! ## The gate -/

theorem Reached.of_enter {q : Question} {running : Multiset Check}
    (h : Reached ((s.enter q).backgroundWith running) (s.enter q).events t) :
    Reached (s.backgroundWith running) s.events t := by
  unfold enter at h
  split at h <;> exact h

theorem questions_enter (s : Session) (q : Question) :
    (s.enter q).questions = q :: s.gate.waiting := by
  unfold enter
  split <;> rfl

theorem checks_of_perm {l : List Question} (h : s.questions.Perm l) :
    s.checks = (l.filterMap Question.check? : List Check) :=
  Multiset.coe_eq_coe.2 (h.filterMap _)

theorem coe_filterMap_cons (q : Question) (l : List Question) :
    (((q :: l).filterMap Question.check? : List Check) : Multiset Check) =
      ↑q.check?.toList + (l.filterMap Question.check? : List Check) := by
  rw [Multiset.coe_add, List.filterMap_cons]
  cases q.check? <;> rfl

/-- A session in which a run ends, before the asker has the answer. -/
def left (s : Session) (run : Run) : Session :=
  { { s with now := run.ends }.remove run.snapshot with gate := s.gate.leave.2 }

theorem release_eq (s : Session) (run : Run) :
    s.release run =
      match s.gate.waiting.head? with
      | none => (s.left run).conclude run.question.asker run.question.document run.answer
      | some q =>
        ((s.left run).conclude run.question.asker run.question.document run.answer).enter q :=
  rfl

theorem gate_left (s : Session) (run : Run) :
    (s.left run).gate = { inside := none, waiting := s.gate.waiting.drop 1 } :=
  rfl

theorem leads_release {run : Run} (hi : s.gate.inside = some run) : s.Leads (s.release run) := by
  intro hk
  have hq : s.questions = run.question :: s.gate.waiting := by rw [questions, hi]; rfl
  have hr : (s.release run).questions = s.gate.waiting := by
    rw [release_eq]
    cases hw : s.gate.waiting with
    | nil => exact (questions_conclude _ _ _ _).trans (by rw [questions, gate_left, hw]; rfl)
    | cons q rest => exact (questions_enter _ _).trans (by rw [gate_conclude, gate_left, hw]; rfl)
  refine ⟨fun q hm => hk q ?_, ?_⟩
  · rw [hq]
    rw [hr] at hm
    exact .tail _ hm
  · have hs : s.background = (s.left run).backgroundWith
        (↑run.question.check?.toList + (s.release run).checks) := by
      rw [background, checks, checks, hq, hr, coe_filterMap_cons]
      rfl
    rw [hs]
    apply Reached.of_conclude (hk run.question (hq ▸ .head _))
    rw [release_eq]
    cases s.gate.waiting.head? with
    | none => exact .refl _
    | some q => exact Reached.of_enter (.refl _)

theorem leads_expire {q : Question} {rest : List Question} (hw : s.gate.waiting = q :: rest) :
    s.Leads (s.expire q) := by
  intro hk
  have hq : s.questions.Perm (q :: (s.expire q).questions) := by
    rw [expire, questions_conclude]
    simp only [questions, Gate.giveUp, hw, List.drop_one, List.tail_cons]
    exact List.perm_middle
  refine ⟨fun a hm => hk a (hq.mem_iff.2 (.tail _ hm)), ?_⟩
  let later : Session := { s with now := q.deadline, gate := s.gate.giveUp }
  have hs : s.background = later.backgroundWith
      (↑q.check?.toList + (s.expire q).checks) := by
    rw [background, checks_of_perm hq, coe_filterMap_cons]
    rfl
  rw [hs]
  apply Reached.of_conclude (hk q (hq.mem_iff.2 (.head _)))
  exact .refl _

/-- The question that comes when there is a program to ask. -/
def asked (s : Session) (asker : Asker) (document : Document) (kind : LintKind)
    (cursor : Option Position) (program : Path) : Question :=
  ⟨asker, document, LintRequest.make document kind cursor s.settings, program, s.now + s.gateWait⟩

theorem start_of_some {asker : Asker} {document : Document} {kind : LintKind}
    {cursor : Option Position} {program : Path} (he : s.settings.executable = some program) :
    s.start asker document kind cursor =
      match s.gate.inside with
      | none => s.enter (s.asked asker document kind cursor program)
      | some _ => { s with gate := s.gate.queue (s.asked asker document kind cursor program) } := by
  simp only [start, he]
  rfl

theorem questions_start (asker : Asker) (document : Document) (kind : LintKind)
    (cursor : Option Position) {program : Path} (he : s.settings.executable = some program) :
    (s.start asker document kind cursor).questions.Perm
      (s.asked asker document kind cursor program :: s.questions) := by
  rw [start_of_some he]
  cases hi : s.gate.inside with
  | none =>
    rw [questions_enter, questions, hi]
    exact .refl _
  | some run =>
    simp only [questions, Gate.queue, hi]
    rw [← List.append_assoc]
    exact List.perm_append_singleton _ _

theorem checks_start (asker : Asker) (document : Document) (kind : LintKind)
    (cursor : Option Position) {program : Path} (he : s.settings.executable = some program) :
    (s.start asker document kind cursor).checks =
      ↑(asker.check? document (some program)).toList + s.checks :=
  (checks_of_perm (questions_start asker document kind cursor he)).trans (coe_filterMap_cons _ _)

theorem Reached.of_start (asker : Asker) (document : Document) (kind : LintKind)
    (cursor : Option Position) {program : Path} {running : Multiset Check}
    (he : s.settings.executable = some program)
    (h : Reached ((s.start asker document kind cursor).backgroundWith running)
      (s.start asker document kind cursor).events t) :
    Reached (s.backgroundWith running) s.events t := by
  rw [start_of_some he] at h
  cases hi : s.gate.inside with
  | none =>
    rw [hi] at h
    exact h.of_enter
  | some run =>
    rw [hi] at h
    exact h

theorem reached_start {asker : Asker} {document : Document} (kind : LintKind)
    (cursor : Option Position) (hk : s.IsKeyed) (ha : asker.isKeyed document) :
    (s.start asker document kind cursor).IsKeyed ∧
      Reached (s.backgroundWith (↑(asker.check? document s.settings.executable).toList + s.checks))
        s.events (s.start asker document kind cursor) := by
  cases he : s.settings.executable with
  | none =>
    have hs : s.start asker document kind cursor =
        s.conclude asker document (.error (.toolNotFound none)) := by
      simp only [start, he]
    rw [hs]
    refine ⟨?_, ?_⟩
    · rw [IsKeyed, questions_conclude]
      exact hk
    · apply Reached.of_conclude ha
      rw [← checks_conclude s asker document (.error (.toolNotFound none))]
      exact .refl _
  | some program =>
    have hq := questions_start asker document kind cursor he
    refine ⟨?_, ?_⟩
    · intro q hm
      obtain rfl | hm := List.mem_cons.1 (hq.mem_iff.1 hm)
      · exact ha
      · exact hk q hm
    · apply Reached.of_start asker document kind cursor he
      rw [← checks_start asker document kind cursor he]
      exact .refl _

theorem leads_fire {timer : Timer} {others : List Timer} (ht : s.timers.Perm (timer :: others)) :
    s.Leads (s.fire timer others) := by
  intro hk
  have hw : s.background.waiting = timer.job ::ₘ (others.map Timer.job : List Job) :=
    Multiset.coe_eq_coe.2 (ht.map Timer.job)
  cases hn : s.debouncer.wake? timer.document.path timer.generation with
  | none =>
    have hf : s.fire timer others = { s with now := timer.due, timers := others } := by
      simp only [fire, hn]
    rw [hf]
    refine ⟨hk, Reached.after (.fire timer.job) ?_⟩
    rw [Background.perform_fire_of_none hw hn, Background.announces_fire, List.append_nil]
    exact .refl { s with now := timer.due, timers := others }
  | some debouncer =>
    let woken : Session := { s with now := timer.due, timers := others, debouncer }
    let asker : Asker := .check timer.document.path timer.generation
    have hf : s.fire timer others = woken.start asker timer.document .diagnostics none := by
      simp only [fire, hn]
      rfl
    have ha : asker.isKeyed timer.document := rfl
    obtain ⟨hkeyed, hr⟩ := reached_start (s := woken) .diagnostics none hk ha
    rw [hf]
    refine ⟨hkeyed, Reached.after (.fire timer.job) ?_⟩
    rw [Background.perform_fire_of_some hw hn, Background.announces_fire, List.append_nil]
    exact hr

/-! ## Documents and settings -/

theorem stop_withoutTimer (timers : List Timer) (generation : Option Nat) :
    Background.stop true (timers.map Timer.job : List Job) generation =
      ((withoutTimer timers generation).map Timer.job : List Job) := by
  rw [Background.stop, if_pos rfl, Multiset.filter_coe, List.filter_map]
  rfl

theorem waiting_schedule (s : Session) (document : Document) :
    (s.schedule document).background.waiting =
      ⟨s.debouncer.draw.1, document⟩ ::ₘ Background.stop true s.background.waiting
        (s.debouncer.draw.2.install document.path s.debouncer.draw.1).2 := by
  have hp := (List.perm_append_singleton
    (⟨s.now + s.debounce, s.debouncer.draw.1, document⟩ : Timer)
    (withoutTimer s.timers (s.debouncer.draw.2.install document.path s.debouncer.draw.1).2)).map
    Timer.job
  refine (Multiset.coe_eq_coe.2 hp).trans ?_
  exact congrArg (Multiset.cons _) (stop_withoutTimer _ _).symm

theorem background_edit (s : Session) (document : Document) :
    s.background.run (s.background.editSteps document) = (s.edit document).background := by
  let accepted : Session := { s with validator := (s.validator.accept document).1 }
  by_cases ha : (s.validator.accept document).2 = true
  · have hs : s.edit document = accepted.schedule document := if_pos ha
    rw [hs]
    refine (Background.run_editSteps_of_accepted (b := s.background) ha).trans ?_
    exact congrArg (fun jobs => { (accepted.schedule document).background with waiting := jobs })
      (waiting_schedule accepted document).symm
  · have hs : s.edit document = accepted := if_neg ha
    rw [hs]
    exact Background.run_editSteps_of_not_accepted (b := s.background) ha

theorem gate_edit (s : Session) (document : Document) : (s.edit document).gate = s.gate := by
  simp only [edit]
  split <;> rfl

theorem events_edit (s : Session) (document : Document) : (s.edit document).events = s.events := by
  simp only [edit]
  split <;> rfl

theorem background_foldl_edit (documents : List Document) (s : Session) :
    s.background.run (s.background.editAllSteps documents) =
        (documents.foldl edit s).background ∧
      (documents.foldl edit s).gate = s.gate ∧ (documents.foldl edit s).events = s.events := by
  induction documents generalizing s with
  | nil => exact ⟨rfl, rfl, rfl⟩
  | cons document documents ih =>
    obtain ⟨hb, hg, he⟩ := ih (s.edit document)
    refine ⟨?_, hg.trans (gate_edit s document), he.trans (events_edit s document)⟩
    rw [Background.editAllSteps, Background.run_append, background_edit]
    exact hb

theorem leads_edit (s : Session) (document : Document) : s.Leads (s.edit document) := by
  refine Leads.of_perform (.edit document) (gate_edit s document) (background_edit s document) ?_
  rw [events_edit, Background.announces, Background.stepsOf, Background.announced_editSteps,
    List.append_nil]

theorem leads_close (s : Session) (path : Path) : s.Leads (s.close path) := by
  have hw : Background.stop true s.background.waiting (s.debouncer.cancel path).2 =
      (s.close path).background.waiting :=
    stop_withoutTimer _ _
  obtain ⟨hr, he⟩ := s.background.perform_close path
  refine Leads.of_perform (.close path) rfl (hr.trans ?_) ?_
  · exact congrArg (fun jobs => { (s.close path).background with waiting := jobs }) hw
  · rw [he]
    rfl

theorem leads_reconfigure (s : Session) (settings : ToolSettings) :
    s.Leads (s.reconfigure settings) :=
  Leads.of_perform (.reconfigure settings) rfl rfl (List.append_nil _).symm

theorem leads_reload (s : Session) (validation : ValidationSettings) (settings : ToolSettings) :
    s.Leads (s.reload validation settings) := by
  let changed := !s.settings.sameExecutable settings
  let reloaded := (s.reconfigure settings).validate (·.reload validation changed)
  obtain ⟨hb, hg, he⟩ := background_foldl_edit reloaded.validator.documents.values reloaded
  obtain ⟨hr, ha⟩ := s.background.perform_reload validation settings
  refine Leads.of_perform (.reload validation settings) hg (hr.trans hb) (he.trans ?_)
  rw [ha]
  rfl

/-! ## The clock -/

theorem Leads.of_follows (h : s.Follows t) : s.Leads t := by
  obtain ⟨time, h⟩ := h
  obtain ⟨run, hi, rfl⟩ | ⟨q, rest, hw, rfl⟩ | ⟨timer, others, ht, rfl⟩ := step?_cases h
  · exact leads_release hi
  · exact leads_expire hw
  · exact leads_fire (Earliest.take?_perm ht)

theorem Leads.of_reflTransGen (h : Relation.ReflTransGen Follows s t) : s.Leads t := by
  induction h with
  | refl => exact .refl s
  | tail _ h ih => exact ih.trans (.of_follows h)

/-- **All that happens by itself up to a moment** is a run in the background. -/
theorem leads_settle (s : Session) (limit : Nat) : s.Leads (s.settle limit) :=
  .of_reflTransGen (follows_settle s limit)

theorem leads_sleep (s : Session) (time : Nat) : s.Leads (s.sleep time) :=
  (leads_settle s _).trans (.of_eq rfl rfl rfl)

/-- **All that happens until a task has ended** is a run in the background. -/
theorem leads_await (s : Session) (task : Nat) : s.Leads (s.await task).2 :=
  .of_reflTransGen (follows_await s task)

/-! ## Questions -/

theorem leads_spawn (s : Session) (document : Document) (kind : LintKind)
    (cursor : Option Position) : s.Leads (s.spawn document kind cursor).2 := by
  intro hk
  let counted : Session := { s with started := s.started + 1 }
  have ha : (Asker.task s.started).isKeyed document := trivial
  obtain ⟨hkeyed, hr⟩ := reached_start (s := counted) kind cursor hk ha
  refine ⟨hkeyed, ?_⟩
  rw [show (Asker.task s.started).check? document counted.settings.executable = none from rfl,
    Option.toList_none, Multiset.coe_nil, Multiset.zero_add] at hr
  exact hr

/-- **An inquiry** is a run in the background. -/
theorem leads_inquire {α : Type} (document : Document) (inquiry : Inquiry α) (s : Session) :
    s.Leads (inquire document inquiry s).2 := by
  induction inquiry generalizing s with
  | done outcome => exact .refl s
  | ask kind cursor next ih =>
    have hs := (leads_spawn s document kind cursor).trans
      (leads_await (s.spawn document kind cursor).2 (s.spawn document kind cursor).1)
    unfold inquire
    dsimp only
    split
    · rename_i later h
      rw [h] at hs
      exact hs
    · rename_i ending later h
      rw [h] at hs
      exact hs.trans (ih ending.answer later)

/-! ## Whole sessions -/

/-- **Sessions are histories of operations.** A session that goes on from a beginning has in the
background what some operations lead to. -/
theorem exists_after_of_leads {settings : ValidationSettings} (h : s.Leads t)
    (hb : s.background = Background.start s.directory s.settings settings)
    (hq : s.questions = []) :
    ∃ history,
      t.background = (Background.start s.directory s.settings settings).after history ∧
        t.events = s.events ++
          (Background.start s.directory s.settings settings).announcedAfter history := by
  have hk : s.IsKeyed := by
    intro q hm
    rw [hq] at hm
    cases hm
  obtain ⟨-, history, hr, he⟩ := h hk
  rw [hb] at hr he
  exact ⟨history, hr.symm, he⟩

/-- **Sessions are runs.** A session that goes on from a beginning has in the background what some
steps lead to, and its validator has gone through a history. -/
theorem isReachable_of_leads {settings : ValidationSettings} (h : s.Leads t)
    (hb : s.background = Background.start s.directory s.settings settings)
    (hq : s.questions = []) :
    t.background.IsReachable ∧ ∃ history,
      t.validator = Validator.after s.directory settings history ∧
        t.events = s.events ++ Validator.announced s.directory settings [] history := by
  let b := Background.start s.directory s.settings settings
  obtain ⟨operations, hr, he⟩ := exists_after_of_leads h hb hq
  obtain ⟨steps, hs, ha⟩ := b.exists_run_eq_after operations
  have hv : b.validator = Validator.after b.directory settings [] := rfl
  obtain ⟨hv', hn⟩ := Background.validator_run steps hv
  have ht : t.background = b.run steps := hr.trans hs.symm
  refine ⟨⟨_, _, _, steps, ht⟩, b.history steps, ?_, ?_⟩
  · rw [← ht, List.append_nil] at hv'
    exact hv'
  · rw [he, ← ha, hn]
    rfl

/-- **What a session has scheduled.** A check that starts when its moment comes is of an open
document, and has its text while checking is on. -/
theorem find?_of_mem_timers {settings : ValidationSettings} (h : s.Leads t)
    (hb : s.background = Background.start s.directory s.settings settings)
    (hq : s.questions = []) {timer : Timer} (hm : timer ∈ t.timers)
    (hd : (t.debouncer.wake? timer.document.path timer.generation).isSome = true) :
    t.validator.documents.contains timer.document.path = true ∧
      (t.validator.schedules = true →
        t.validator.documents.find? timer.document.path = some timer.document) := by
  obtain ⟨history, hr, -⟩ := exists_after_of_leads h hb hq
  have hk := Background.keepsLatest_after s.directory s.settings settings history
  have hp : t.background.IsPending timer.job :=
    ⟨Multiset.mem_coe.2 (List.mem_map_of_mem hm), hd⟩
  have hv : t.background.validator = t.validator := rfl
  rw [hr] at hp
  have ho := hk.isOpen hp
  have hf := hk.find?_of_isPending hp
  rw [← hr, hv] at ho hf
  exact ⟨ho, hf⟩

end EviAssist.Session
