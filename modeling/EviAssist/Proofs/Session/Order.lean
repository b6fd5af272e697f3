import EviAssist.Proofs.Background.Session
import EviAssist.Proofs.Debouncer

/-!
# Results in the order of the edits

Several checks of one document may be at the gate at once, since a check that has started is never
called back, and nothing compares their texts when they end. Still the results of a document are
published in the order of its edits: a check starts only when it is the newest of its document,
nobody in the line overtakes another, and who gives up is not published at all.

* `Session.Publication`, `Session.published`, `Session.publications`: what is published in steps,
  and for which trigger.
* `Session.triggered`, `Session.triggers`: the texts whose checks are triggered in steps.
* `Session.Ordered`: how the checks that passed the debouncer, those that are scheduled, and the
  triggers belong together.
* `Session.InOrder`, `Session.InOrder.step`: this of a session, and what every step preserves.
* `Session.published_in_order`: the order of what is published.
-/

namespace EviAssist.Session

open Background (Job)

/-! ## Publications and triggers -/

/-- A result that is published, and the check that found it. -/
structure Publication where
  job : Job
  files : Report

/-- What is announced. -/
def Publication.report (p : Publication) : Path × Report :=
  (p.job.document.path, p.files)

/-- The report that is announced. -/
def report? : ValidationEvent → Option (Path × Report)
  | .published document files => some (document, files)
  | _ => none

/-- The check that asks about a document, if it is a check. -/
def Asker.job? (document : Document) : Asker → Option Job
  | .task _ => none
  | .check _ generation => some ⟨generation, document⟩

/-- The check that a question belongs to. -/
def Question.job? (q : Question) : Option Job :=
  q.asker.job? q.document

/-- What is published when a run ends. -/
def publishedBy (s : Session) (ended : Run) : List Publication :=
  match ended.question.job? with
  | none => []
  | some job =>
    let answer := Feature.reportOf s.directory job.document ended.answer
    ((s.validator.conclude job.document.path answer).2.filterMap report?).map fun report =>
      ⟨job, report.2⟩

/-- What is published in a step. -/
def published (s : Session) : Step → List Publication
  | .release => s.gate.inside.toList.flatMap s.publishedBy
  | _ => []

/-- What is published in some steps. -/
def publications (s : Session) : List Step → List Publication
  | [] => []
  | x :: steps => s.published x ++ (s.step x).publications steps

/-- The texts whose checks are triggered in a step. -/
def triggered (s : Session) : Step → List Document
  | .edit document => if (s.validator.accept document).2 then [document] else []
  | _ => []

/-- The texts whose checks are triggered in some steps, each in the place of its generation. -/
def triggers (s : Session) : List Step → List Document
  | [] => []
  | x :: steps => s.triggered x ++ (s.step x).triggers steps

/-- The checks at the gate, in the order of the line. -/
def line (s : Session) : List Job :=
  s.questions.filterMap Question.job?

/-! ## Order of checks -/

/-- How the checks that passed the debouncer, those that are scheduled, and the triggers belong
together: every check belongs to the trigger of its generation, no trigger has two checks, and the
checks of a document that passed, passed in the order of the triggers. -/
structure Ordered (d : Debouncer) (passed scheduled : List Job) (triggers : List Document) :
    Prop where
  drawn : d.drawn = triggers.length
  known : ∀ job ∈ passed ++ scheduled,
    0 < job.generation ∧ triggers[job.generation - 1]? = some job.document
  nodup : ((passed ++ scheduled).map (·.generation)).Nodup
  latest : ∀ job ∈ passed, ∀ {n}, d.generation? job.document.path = some n → job.generation ≤ n
  pairwise : passed.Pairwise fun a b =>
    a.document.path.same b.document.path = true → a.generation < b.generation

variable {d d' : Debouncer} {passed passed' scheduled scheduled' : List Job}
  {triggers : List Document} {job : Job}

theorem Ordered.thin (h : Ordered d passed scheduled triggers) (hd : d'.drawn = d.drawn)
    (hg : ∀ {key n}, d'.generation? key = some n → d.generation? key = some n)
    (hp : passed'.Sublist passed) (hs : scheduled'.Sublist scheduled) :
    Ordered d' passed' scheduled' triggers where
  drawn := hd.trans h.drawn
  known := fun job hm => h.known job ((hp.append hs).subset hm)
  nodup := h.nodup.sublist ((hp.append hs).map _)
  latest := fun job hm => fun hn => h.latest job (hp.subset hm) (hg hn)
  pairwise := h.pairwise.sublist hp

theorem Ordered.perm (h : Ordered d passed scheduled triggers)
    (hs : scheduled.Perm scheduled') : Ordered d passed scheduled' triggers where
  drawn := h.drawn
  known := fun job hm => h.known job ((hs.append_left passed).mem_iff.2 hm)
  nodup := (((hs.append_left passed).map (·.generation)).nodup_iff).1 h.nodup
  latest := h.latest
  pairwise := h.pairwise

theorem Ordered.trigger (h : Ordered d passed scheduled triggers) (document : Document)
    (hs : scheduled'.Sublist scheduled) :
    Ordered (d.draw.2.install document.path d.draw.1).1 passed
      (scheduled' ++ [⟨d.draw.1, document⟩]) (triggers ++ [document]) := by
  have h := h.thin rfl id (.refl passed) hs
  have hlt : ∀ job ∈ passed ++ scheduled', job.generation < d.draw.1 := by
    intro job hm
    obtain ⟨hpos, hk⟩ := h.known job hm
    have := (List.getElem?_eq_some_iff.1 hk).1
    have := h.drawn
    rw [Debouncer.draw]
    omega
  refine ⟨?_, fun job hm => ?_, ?_, fun job hm => fun hn => ?_, h.pairwise⟩
  · rw [List.length_append, List.length_singleton, ← h.drawn]
    rfl
  · rw [← List.append_assoc] at hm
    obtain hm | hm := List.mem_append.1 hm
    · obtain ⟨hpos, hk⟩ := h.known job hm
      have hlt := (List.getElem?_eq_some_iff.1 hk).1
      exact ⟨hpos, (List.getElem?_append_left hlt).trans hk⟩
    · rw [List.mem_singleton.1 hm, Debouncer.draw, h.drawn]
      exact ⟨Nat.succ_pos _, by simp⟩
  · rw [← List.append_assoc, List.map_append, List.map_singleton]
    refine List.nodup_append.2 ⟨h.nodup, List.nodup_singleton _, fun n hn m hm heq => ?_⟩
    obtain ⟨job, hj, rfl⟩ := List.mem_map.1 hn
    rw [List.mem_singleton.1 hm] at heq
    exact absurd heq (Nat.ne_of_lt (hlt job hj))
  · rw [Debouncer.generation?_install] at hn
    split at hn
    · cases hn
      exact (hlt job (List.mem_append_left _ hm)).le
    · exact h.latest job hm hn

theorem Ordered.pass (h : Ordered d passed scheduled triggers)
    (hs : scheduled.Perm (job :: scheduled'))
    (hg : d.generation? job.document.path = some job.generation) :
    Ordered d (passed ++ [job]) scheduled' triggers := by
  have hperm : (passed ++ scheduled).Perm (passed ++ [job] ++ scheduled') := by
    rw [List.append_assoc]
    exact hs.append_left passed
  have hnodup := (hperm.map (·.generation)).nodup_iff.1 h.nodup
  refine ⟨h.drawn, fun other hm => h.known other (hperm.mem_iff.2 hm), hnodup, fun other hm => ?_,
    ?_⟩
  · intro n hn
    obtain hm | hm := List.mem_append.1 hm
    · exact h.latest other hm hn
    · rw [List.mem_singleton.1 hm, hg] at hn
      rw [List.mem_singleton.1 hm]
      exact (Option.some.inj hn).le
  · refine List.pairwise_append.2 ⟨h.pairwise, List.pairwise_singleton _ _, fun a ha b hb hs => ?_⟩
    rw [List.mem_singleton.1 hb] at hs ⊢
    have hle : a.generation ≤ job.generation :=
      h.latest a ha ((Debouncer.generation?_congr d hs).trans hg)
    have hne : a.generation ≠ job.generation := by
      rw [List.map_append, List.map_append] at hnodup
      have hpassed := (List.nodup_append.1 (List.nodup_append.1 hnodup).1).2.2
      exact hpassed _ (List.mem_map_of_mem ha) _ (.head _)
    omega

/-! ## What is announced -/

variable {s : Session}

theorem filterMap_conclude (v : Validator) (path : Path) (answer : Except LintError Report) :
    (v.conclude path answer).2.filterMap report? = [] ∨
      ∃ files, (v.conclude path answer).2.filterMap report? = [(path, files)] := by
  unfold Validator.conclude
  split
  · split
    · exact .inr ⟨_, rfl⟩
    · split
      · left
        unfold Validator.pause
        split <;> rfl
      · exact .inl rfl
  · exact .inl rfl

theorem filterMap_conclude_error (v : Validator) (path : Path) (e : LintError) :
    (v.conclude path (.error e)).2.filterMap report? = [] := by
  unfold Validator.conclude
  split
  · dsimp only
    split
    · unfold Validator.pause
      split <;> rfl
    · rfl
  · rfl

theorem filterMap_close (v : Validator) (path : Path) :
    (v.close path).2.filterMap report? = [] := by
  unfold Validator.close
  split <;> rfl

theorem filterMap_reload (v : Validator) (settings : ValidationSettings)
    (executableChanged : Bool) :
    (v.reload settings executableChanged).2.filterMap report? = [] := by
  refine List.filterMap_append.trans (List.append_eq_nil_iff.2 ⟨?_, ?_⟩) <;> split <;> rfl

theorem events_validate (s : Session) (change : Validator → Validator × List ValidationEvent) :
    (s.validate change).events.filterMap report? =
      s.events.filterMap report? ++ (change s.validator).2.filterMap report? :=
  List.filterMap_append

theorem events_conclude (s : Session) (key : Path) (generation : Nat) (document : Document)
    (answer : Except LintError LintResult) :
    (s.conclude (.check key generation) document answer).events.filterMap report? =
      s.events.filterMap report? ++ (s.validator.conclude document.path
        (Feature.reportOf s.directory document answer)).2.filterMap report? :=
  events_validate s (·.conclude document.path (Feature.reportOf s.directory document answer))

theorem events_conclude_error (s : Session) (asker : Asker) (document : Document) (e : LintError) :
    (s.conclude asker document (.error e)).events.filterMap report? =
      s.events.filterMap report? := by
  cases asker with
  | task number => rfl
  | check key generation =>
    refine (events_conclude _ _ _ _ _).trans ?_
    rw [show Feature.reportOf s.directory document (.error e) = .error e from rfl,
      filterMap_conclude_error, List.append_nil]

theorem events_enter (s : Session) (q : Question) : (s.enter q).events = s.events := by
  unfold enter
  split <;> rfl

theorem events_start (s : Session) (asker : Asker) (document : Document) (kind : LintKind)
    (cursor : Option Position) :
    (s.start asker document kind cursor).events.filterMap report? =
      s.events.filterMap report? := by
  cases he : s.settings.executable with
  | none =>
    have hs : s.start asker document kind cursor =
        s.conclude asker document (.error (.toolNotFound none)) := by
      simp only [start, he]
    rw [hs, events_conclude_error]
  | some program =>
    rw [start_of_some he]
    split
    · rw [events_enter]
    · rfl

theorem events_release (s : Session) (ended : Run) :
    (s.release ended).events.filterMap report? =
      s.events.filterMap report? ++ (s.publishedBy ended).map Publication.report := by
  have hc : ((s.left ended).conclude ended.question.asker ended.question.document
      ended.answer).events.filterMap report? =
        s.events.filterMap report? ++ (s.publishedBy ended).map Publication.report := by
    rw [publishedBy, Question.job?]
    cases ended.question.asker with
    | task number => exact (List.append_nil _).symm
    | check key generation =>
      refine (events_conclude _ _ _ _ _).trans (congrArg _ ?_)
      simp only [Asker.job?]
      obtain hn | ⟨files, hf⟩ := filterMap_conclude s.validator ended.question.document.path
        (Feature.reportOf s.directory ended.question.document ended.answer)
      · rw [hn]
        exact hn
      · rw [hf]
        exact hf
  rw [release_eq]
  split
  · exact hc
  · rw [events_enter]
    exact hc

/-- **What a step announces** of reports is what is published in it. -/
theorem events_step (s : Session) (x : Step) :
    (s.step x).events.filterMap report? =
      s.events.filterMap report? ++ (s.published x).map Publication.report := by
  have hnone : ∀ {t : Session}, t.events.filterMap report? = s.events.filterMap report? →
      t.events.filterMap report? =
        s.events.filterMap report? ++ ([] : List Publication).map Publication.report :=
    fun h => h.trans (List.append_nil _).symm
  cases x with
  | edit document =>
    refine hnone ?_
    rw [step, events_edit]
  | close path =>
    refine hnone ((events_validate _ _).trans ?_)
    rw [filterMap_close, List.append_nil]
  | apply validation settings =>
    refine hnone ((events_validate _ _).trans ?_)
    rw [filterMap_reload, List.append_nil]
    rfl
  | reconfigure settings => exact hnone rfl
  | ask document kind cursor =>
    refine hnone ?_
    exact events_start { s with started := s.started + 1 } _ _ _ _
  | fire timer =>
    refine hnone ?_
    rw [step]
    split
    · rw [fire]
      dsimp only
      split
      · rfl
      · exact events_start _ _ _ _ _
    · rfl
  | release =>
    rw [step, published]
    cases s.gate.inside with
    | none => exact (List.append_nil _).symm
    | some ended =>
      rw [events_release, Option.toList_some, List.flatMap_singleton]
  | giveUp place =>
    refine hnone ?_
    rw [step]
    split
    · exact events_conclude_error _ _ _ _
    · rfl
  | tick time => exact hnone rfl

/-! ## Sessions in order -/

/-- Whether the checks of a session are in order after those that have been published: nobody waits
when nobody is inside, and whoever is at the gate came there in the order of the triggers. -/
structure InOrder (s : Session) (done : List Job) (triggers : List Document) : Prop where
  free : s.gate.inside = none → s.gate.waiting = []
  ordered : Ordered s.debouncer (done ++ s.line) (s.timers.map Timer.job) triggers

variable {done : List Job}

theorem line_of_gate {t : Session} (h : t.gate = s.gate) : t.line = s.line := by
  rw [line, line, questions, questions, h]

theorem line_enter (s : Session) (q : Question) :
    (s.enter q).line = q.job?.toList ++ s.gate.waiting.filterMap Question.job? := by
  rw [line, questions_enter, List.filterMap_cons]
  cases q.job? <;> rfl

theorem enter_eq (s : Session) (q : Question) :
    (s.enter q).debouncer = s.debouncer ∧ (s.enter q).timers = s.timers ∧
      (s.enter q).gate.inside ≠ none := by
  unfold enter
  split <;> exact ⟨rfl, rfl, Option.some_ne_none _⟩

theorem Ordered.conclude (h : Ordered s.debouncer passed scheduled triggers) (asker : Asker)
    (document : Document) (answer : Except LintError LintResult) :
    Ordered (s.conclude asker document answer).debouncer passed scheduled triggers := by
  cases asker with
  | task number => exact h
  | check key generation =>
    exact h.thin (Debouncer.drawn_finish _ _ _) Debouncer.generation?_finish (.refl _) (.refl _)

theorem timers_conclude (s : Session) (asker : Asker) (document : Document)
    (answer : Except LintError LintResult) :
    (s.conclude asker document answer).timers = s.timers := by
  cases asker <;> rfl

theorem InOrder.start (hf : s.gate.inside = none → s.gate.waiting = []) {asker : Asker}
    {document : Document}
    (ho : Ordered s.debouncer (done ++ (s.line ++ (asker.job? document).toList))
      (s.timers.map Timer.job) triggers) (kind : LintKind) (cursor : Option Position) :
    (s.start asker document kind cursor).InOrder done triggers := by
  cases he : s.settings.executable with
  | none =>
    have hs : s.start asker document kind cursor =
        s.conclude asker document (.error (.toolNotFound none)) := by
      simp only [Session.start, he]
    have hg := gate_conclude s asker document (.error (.toolNotFound none))
    rw [hs]
    refine ⟨by rwa [hg], ?_⟩
    rw [line_of_gate hg, timers_conclude]
    refine Ordered.conclude (ho.thin rfl id ?_ (.refl _)) _ _ _
    exact (List.Sublist.refl done).append (List.sublist_append_left _ _)
  | some program =>
    rw [start_of_some he]
    cases hi : s.gate.inside with
    | none =>
      obtain ⟨hd, ht, hin⟩ := s.enter_eq (s.asked asker document kind cursor program)
      dsimp only
      refine ⟨fun h => absurd h hin, ?_⟩
      have hl : s.line = [] := by
        rw [line, questions, hi, hf hi]
        rfl
      rw [hd, ht, line_enter, hf hi, List.filterMap_nil, List.append_nil]
      rw [hl, List.nil_append] at ho
      exact ho
    | some ended =>
      refine ⟨fun h => absurd (hi.symm.trans h) (Option.some_ne_none _), ?_⟩
      have hl : ({ s with gate := s.gate.queue (s.asked asker document kind cursor program) } :
          Session).line = s.line ++ (asker.job? document).toList := by
        rw [line, line, questions, questions, Gate.queue, ← List.append_assoc,
          List.filterMap_append, List.filterMap_cons, List.filterMap_nil]
        cases asker <;> rfl
      rw [hl]
      exact ho

theorem InOrder.fire (h : s.InOrder done triggers) {timer : Timer} {others : List Timer}
    (ht : s.timers.Perm (timer :: others)) : (s.fire timer others).InOrder done triggers := by
  have hjobs : (s.timers.map Timer.job).Perm (timer.job :: others.map Timer.job) := ht.map _
  rw [Session.fire]
  dsimp only
  split
  · refine ⟨h.free, ?_⟩
    have hp := h.ordered.perm hjobs
    exact hp.thin rfl id (.refl _) (List.sublist_cons_self _ _)
  · rename_i debouncer hw
    let woken : Session := { s with now := timer.due, timers := others, debouncer }
    refine InOrder.start (s := woken) h.free ?_ _ _
    have hg := (Debouncer.isSome_wake? _ _ _).1 (Option.isSome_of_eq_some hw)
    have hp := h.ordered.pass hjobs hg
    rw [List.append_assoc] at hp
    exact hp.thin (Debouncer.drawn_wake hw)
      (fun hn => (Debouncer.generation?_wake hw _).symm.trans hn) (.refl _) (.refl _)

theorem InOrder.release (h : s.InOrder done triggers) {ended : Run}
    (hi : s.gate.inside = some ended) :
    (s.release ended).InOrder (done ++ (s.publishedBy ended).map (·.job)) triggers := by
  have hline : s.line =
      ended.question.job?.toList ++ s.gate.waiting.filterMap Question.job? := by
    rw [line, questions, hi, Option.toList_some, List.map_singleton, List.singleton_append,
      List.filterMap_cons]
    cases ended.question.job? <;> rfl
  have hjob : ((s.publishedBy ended).map (·.job)).Sublist ended.question.job?.toList := by
    rw [publishedBy]
    cases ended.question.job? with
    | none => exact .refl _
    | some job =>
      dsimp only
      obtain hn | ⟨files, hf⟩ := filterMap_conclude s.validator job.document.path
        (Feature.reportOf s.directory job.document ended.answer)
      · rw [hn]
        exact List.nil_sublist _
      · rw [hf]
        exact .refl _
  have ho : Ordered s.debouncer
      (done ++ (s.publishedBy ended).map (·.job) ++ s.gate.waiting.filterMap Question.job?)
      (s.timers.map Timer.job) triggers := by
    refine h.ordered.thin rfl id ?_ (.refl _)
    rw [hline, List.append_assoc]
    exact (List.Sublist.refl done).append (hjob.append (.refl _))
  have hc := Ordered.conclude (s := s.left ended) ho ended.question.asker ended.question.document
    ended.answer
  generalize hs : (s.left ended).conclude ended.question.asker ended.question.document
    ended.answer = concluded at hc
  have hg : concluded.gate = { inside := none, waiting := s.gate.waiting.drop 1 } := by
    rw [← hs, gate_conclude, gate_left]
  have ht : concluded.timers = s.timers := by
    rw [← hs, timers_conclude]
    rfl
  rw [release_eq, hs]
  cases hw : s.gate.waiting with
  | nil =>
    rw [hw] at hc hg
    refine ⟨fun _ => by rw [List.head?_nil, hg]; rfl, ?_⟩
    rw [List.head?_nil, line, questions, hg, ht]
    exact hc
  | cons q rest =>
    rw [hw] at hc hg
    obtain ⟨hd, ht', hin⟩ := concluded.enter_eq q
    rw [List.head?_cons]
    dsimp only
    refine ⟨fun hn => absurd hn hin, ?_⟩
    rw [hd, ht', ht, line_enter, hg]
    rw [List.filterMap_cons] at hc
    cases hj : q.job? <;> rw [hj] at hc <;> exact hc

theorem InOrder.leaveLine (h : s.InOrder done triggers) {q : Question} {place : Nat}
    (hq : s.gate.waiting[place]? = some q) : (s.leaveLine q place).InOrder done triggers := by
  let rest : Session := { s with gate := { s.gate with waiting := s.gate.waiting.eraseIdx place } }
  have hg : (s.leaveLine q place).gate = rest.gate := gate_conclude rest _ _ _
  refine ⟨fun hi => ?_, ?_⟩
  · rw [hg] at hi
    rw [h.free hi] at hq
    cases hq
  · rw [line_of_gate hg, Session.leaveLine, timers_conclude]
    refine Ordered.conclude (s := rest) (h.ordered.thin rfl id ?_ (.refl _)) _ _ _
    refine (List.Sublist.refl done).append (List.Sublist.filterMap _ ?_)
    exact (List.Sublist.refl _).append (List.eraseIdx_sublist _ _)

theorem sublist_withoutTimer (timers : List Timer) (generation : Option Nat) :
    ((withoutTimer timers generation).map Timer.job).Sublist (timers.map Timer.job) :=
  List.filter_sublist.map _

/-- **What every step preserves.** -/
theorem InOrder.step (h : s.InOrder done triggers) (x : Step) :
    (s.step x).InOrder (done ++ (s.published x).map (·.job)) (triggers ++ s.triggered x) := by
  have hnone : ∀ {t : Session}, t.InOrder done triggers →
      t.InOrder (done ++ ([] : List Publication).map (·.job)) (triggers ++ []) := by
    intro t ht
    rwa [List.map_nil, List.append_nil, List.append_nil]
  cases x with
  | edit document =>
    simp only [Session.step, edit, triggered, published, List.map_nil, List.append_nil]
    split
    · refine ⟨h.free, ?_⟩
      rw [schedule, List.map_append]
      exact h.ordered.trigger document (sublist_withoutTimer _ _)
    · rw [List.append_nil]
      exact ⟨h.free, h.ordered⟩
  | close path =>
    refine hnone ⟨h.free, h.ordered.thin rfl (fun {key n} hn => ?_) (.refl _) ?_⟩
    · have hn : (s.debouncer.cancel path).1.generation? key = some n := hn
      rw [Debouncer.generation?_cancel] at hn
      split at hn
      · cases hn
      · exact hn
    · exact sublist_withoutTimer _ _
  | apply validation settings => exact hnone ⟨h.free, h.ordered⟩
  | reconfigure settings => exact hnone ⟨h.free, h.ordered⟩
  | ask document kind cursor =>
    let counted : Session := { s with started := s.started + 1 }
    refine hnone (InOrder.start (s := counted) h.free ?_ _ _)
    rw [show (Asker.task s.started).job? document = none from rfl, Option.toList_none,
      List.append_nil]
    exact h.ordered
  | fire timer =>
    refine hnone ?_
    rw [Session.step]
    split
    · exact h.fire (List.perm_cons_erase ‹_›)
    · exact h
  | release =>
    simp only [Session.step, published, triggered, List.append_nil]
    cases hi : s.gate.inside with
    | none =>
      rw [Option.toList_none, List.flatMap_nil, List.map_nil, List.append_nil]
      exact h
    | some ended =>
      rw [Option.toList_some, List.flatMap_singleton]
      exact h.release hi
  | giveUp place =>
    refine hnone ?_
    rw [Session.step]
    split
    · exact h.leaveLine ‹_›
    · exact h
  | tick time => exact hnone ⟨h.free, h.ordered⟩

/-! ## Runs -/

theorem publications_append (s : Session) (steps later : List Step) :
    s.publications (steps ++ later) =
      s.publications steps ++ (s.run steps).publications later := by
  induction steps generalizing s with
  | nil => rfl
  | cons x steps ih =>
    rw [List.cons_append, publications, publications, ih, List.append_assoc]
    rfl

theorem triggers_append (s : Session) (steps later : List Step) :
    s.triggers (steps ++ later) = s.triggers steps ++ (s.run steps).triggers later := by
  induction steps generalizing s with
  | nil => rfl
  | cons x steps ih =>
    rw [List.cons_append, Session.triggers, Session.triggers, ih, List.append_assoc]
    rfl

/-- **What every run preserves.** -/
theorem InOrder.run (h : s.InOrder done triggers) (steps : List Step) :
    (s.run steps).InOrder (done ++ (s.publications steps).map (·.job))
      (triggers ++ s.triggers steps) := by
  induction steps generalizing s done triggers with
  | nil =>
    rw [publications, Session.triggers, List.map_nil, List.append_nil, List.append_nil]
    exact h
  | cons x steps ih =>
    rw [publications, Session.triggers, List.map_append, ← List.append_assoc, ← List.append_assoc]
    exact ih (h.step x)

/-- **What a run announces** of reports is what is published in it. -/
theorem events_run (s : Session) (steps : List Step) :
    (s.run steps).events.filterMap report? =
      s.events.filterMap report? ++ (s.publications steps).map Publication.report := by
  induction steps generalizing s with
  | nil => exact (List.append_nil _).symm
  | cons x steps ih =>
    rw [run, ih, events_step, publications, List.map_append, List.append_assoc]

theorem inOrder_fresh (directory : Option Path) (scratch : Path) (tool : Tool)
    (gateWait debounce : Nat) (settings : ToolSettings) (suggestions : Bool)
    (validation : ValidationSettings) :
    (fresh directory scratch tool gateWait debounce settings suggestions validation).InOrder
      [] [] where
  free := fun _ => rfl
  ordered := ⟨rfl, nofun, .nil, nofun, .nil⟩

/-- **Results are published in the order of the edits.** In every run, whatever evi does and
however long it takes, the reports that are announced are those that the checks of triggers found,
each trigger publishes once at most, and of one document a later report belongs to a later trigger.
So when the newest check of a document has been published, only checks that are triggered after
that are published for it. -/
theorem published_in_order (directory : Option Path) (scratch : Path) (tool : Tool)
    (gateWait debounce : Nat) (settings : ToolSettings) (suggestions : Bool)
    (validation : ValidationSettings)
    (steps : List Step) :
    let s := fresh directory scratch tool gateWait debounce settings suggestions validation
    (s.run steps).events.filterMap report? = (s.publications steps).map Publication.report ∧
      (∀ p ∈ s.publications steps, 0 < p.job.generation ∧
        (s.triggers steps)[p.job.generation - 1]? = some p.job.document) ∧
      ((s.publications steps).map (·.job.generation)).Nodup ∧
      ((s.publications steps).Pairwise fun a b =>
        a.job.document.path.same b.job.document.path = true →
          a.job.generation < b.job.generation) ∧
      ∀ before after, steps = before ++ after → ∀ a ∈ s.publications before,
        (∀ (i : Nat) document, (s.triggers before)[i]? = some document →
          a.job.document.path.same document.path = true → i < a.job.generation) →
        ∀ b ∈ (s.run before).publications after,
          a.job.document.path.same b.job.document.path = true →
            (s.triggers before).length < b.job.generation := by
  intro s
  have ho := ((inOrder_fresh directory scratch tool gateWait debounce settings suggestions
    validation).run steps).ordered
  rw [List.nil_append, List.nil_append] at ho
  have hknown : ∀ p ∈ s.publications steps, 0 < p.job.generation ∧
      (s.triggers steps)[p.job.generation - 1]? = some p.job.document := fun p hm =>
    ho.known p.job (List.mem_append_left _ (List.mem_append_left _ (List.mem_map_of_mem hm)))
  have hpairwise : (s.publications steps).Pairwise fun a b =>
      a.job.document.path.same b.job.document.path = true →
        a.job.generation < b.job.generation :=
    List.pairwise_map.1 (List.pairwise_append.1 ho.pairwise).1
  refine ⟨events_run s steps, hknown, ?_, hpairwise, ?_⟩
  · have hnodup := ho.nodup
    rw [List.map_append, List.map_append, List.map_map] at hnodup
    exact (List.nodup_append.1 (List.nodup_append.1 hnodup).1).1
  · intro before after he a ha hlatest b hb hs
    rw [he, publications_append] at hknown hpairwise
    rw [triggers_append] at hknown
    have hlt : a.job.generation < b.job.generation :=
      (List.pairwise_append.1 hpairwise).2.2 a ha b hb hs
    obtain ⟨hpos, hk⟩ := hknown b (List.mem_append_right _ hb)
    by_contra hle
    have hold : b.job.generation - 1 < (s.triggers before).length := by omega
    rw [List.getElem?_append_left hold] at hk
    have := hlatest _ _ hk hs
    omega

end EviAssist.Session
