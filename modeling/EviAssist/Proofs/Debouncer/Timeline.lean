import EviAssist.Debouncer.Timeline
import EviAssist.Proofs.Debouncer
import Mathlib.Algebra.Order.Group.Multiset
import Mathlib.Tactic.Abel

/-!
# When jobs run

Triggers, cancellations and closings come at given moments, and jobs take given times. A job starts
when its delay is over, unless its key was triggered again or cancelled, or all was closed, before
that; a job that has started runs to its end. What is logged is laid down by this rule alone.

* `Debouncer.Timeline.Operation`, `Debouncer.Timeline.logOf`: what is done at which moments, and
  what is logged up to a moment.
* `Debouncer.Timeline.schedule`: what the rule lays down.
* `Debouncer.Timeline.step?_cases`: the single things that happen by themselves.
* `Debouncer.Timeline.Sound`: every job that waits is the one that its key waits for.
* `Debouncer.Timeline.account`: what is logged and what is still to come of it; whatever happens,
  it stays the same.
* `Debouncer.Timeline.logOf_perm`: the log is as laid down.
* `Debouncer.Timeline.log_follows_schedule`: what this says of one job, and of one key.
-/

namespace EviAssist.Debouncer

/-- The job that starts when a timer is due. -/
def Timer.job (timer : Timer) : Job :=
  ⟨timer.due + timer.work, timer.key, timer.generation, timer.id⟩

/-- What is logged when a job ends. -/
def Job.ending (job : Job) : LogEntry :=
  ⟨job.ends, job.id, true⟩

namespace Timeline

/-! ## Histories -/

/-- What is done to a debouncer from outside. -/
inductive Operation where
  | trigger (key : Path) (id work : Nat)
  | cancel (key : Path)
  | close
  deriving DecidableEq, Inhabited, Repr

/-- Operations at their moments. -/
abbrev History : Type :=
  List (Nat × Operation)

/-- Does something from outside. -/
def perform (t : Timeline) : Operation → Timeline
  | .trigger key id work => t.trigger key id work
  | .cancel key => t.cancel key
  | .close => t.close

/-- Lets time pass up to a moment. -/
def sleepTo (t : Timeline) (time : Nat) : Timeline :=
  t.sleep (time - t.now)

/-- Does everything at its moment. -/
def run (t : Timeline) : History → Timeline
  | [] => t
  | (time, operation) :: later => ((t.sleepTo time).perform operation).run later

/-- What is logged up to a moment. -/
def logOf (delay : Nat) (history : History) (limit : Nat) : List LogEntry :=
  ((run { delay } history).sleepTo limit).log

/-! ## The rule -/

/-- Whether an operation recalls the job that waits for a key. -/
def Operation.recalls (key : Path) : Operation → Bool
  | trigger other _ _ => other.same key
  | cancel other => other.same key
  | close => true

/-- Whether nothing recalls the job that waits for a key before it is due. -/
def lasts (key : Path) (due : Nat) (later : History) : Bool :=
  later.all fun op => due ≤ op.1 || !op.2.recalls key

/-- What is logged of a job that waits: its start when it is due and its end, unless it is
recalled. -/
def entries (key : Path) (due id work : Nat) (later : History) : List LogEntry :=
  if lasts key due later then [⟨due, id, false⟩, ⟨due + work, id, true⟩] else []

/-- What is to be logged of all jobs. -/
def schedule (delay : Nat) : History → List LogEntry
  | [] => []
  | (time, .trigger key id work) :: later =>
    entries key (time + delay) id work later ++ schedule delay later
  | _ :: later => schedule delay later

theorem Operation.recalls_congr {key other : Path} (h : key.same other = true)
    (operation : Operation) : operation.recalls key = operation.recalls other := by
  cases operation with
  | trigger _ _ _ | cancel _ => exact Path.same_congr_right h
  | close => rfl

theorem lasts_of_forall_le {key : Path} {due : Nat} {later : History}
    (h : ∀ op ∈ later, due ≤ op.1) : lasts key due later = true := by
  refine List.all_eq_true.2 fun op hm => ?_
  rw [decide_eq_true (h op hm), Bool.true_or]

theorem lasts_cons {key : Path} {due time : Nat} (h : time < due) (operation : Operation)
    (later : History) :
    lasts key due ((time, operation) :: later) =
      (!operation.recalls key && lasts key due later) := by
  rw [lasts, List.all_cons, decide_eq_false (Nat.not_le.2 h), Bool.false_or, lasts]

/-! ## Single steps -/

variable {t t' : Timeline} {limit : Nat}

/-- **What happens by itself**: of all jobs that run or wait, the one that ends or is due first
ends or is due. -/
theorem step?_cases (h : t.step? limit = some t') :
    (∃ job others, t.jobs.Perm (job :: others) ∧ job.ends ≤ limit ∧
      (∀ other ∈ t.jobs, job.ends ≤ other.ends) ∧ (∀ timer ∈ t.timers, job.ends ≤ timer.due) ∧
      t' = t.finishJob job others) ∨
    ∃ timer others, t.timers.Perm (timer :: others) ∧ timer.due ≤ limit ∧
      (∀ job ∈ t.jobs, timer.due ≤ job.ends) ∧ (∀ other ∈ t.timers, timer.due ≤ other.due) ∧
      t' = t.fire timer others := by
  unfold step? at h
  split at h
  · rename_i job others timer otherTimers hj ht
    have hje := Earliest.take?_le hj
    have htd := Earliest.take?_le ht
    split at h
    · rename_i hle
      split at h <;> cases h
      exact .inl ⟨job, others, Earliest.take?_perm hj, ‹_›, hje,
        fun other ho => hle.trans (htd other ho), rfl⟩
    · rename_i hlt
      split at h <;> cases h
      exact .inr ⟨timer, otherTimers, Earliest.take?_perm ht, ‹_›,
        fun other ho => (Nat.le_of_not_le hlt).trans (hje other ho), htd, rfl⟩
  · rename_i job others hj ht
    split at h <;> cases h
    refine .inl ⟨job, others, Earliest.take?_perm hj, ‹_›, Earliest.take?_le hj, ?_, rfl⟩
    rw [Earliest.take?_eq_none ht]
    nofun
  · rename_i timer others hj ht
    split at h <;> cases h
    refine .inr ⟨timer, others, Earliest.take?_perm ht, ‹_›, ?_, Earliest.take?_le ht, rfl⟩
    rw [Earliest.take?_eq_none hj]
    nofun
  · cases h

theorem lt_of_step?_eq_none (h : t.step? limit = none) :
    (∀ job ∈ t.jobs, limit < job.ends) ∧ ∀ timer ∈ t.timers, limit < timer.due := by
  unfold step? at h
  split at h
  · rename_i job others timer otherTimers hj ht
    have hje := Earliest.take?_le hj
    have htd := Earliest.take?_le ht
    have hlt : limit < job.ends ∧ limit < timer.due := by
      split at h
      · split at h
        · cases h
        · omega
      · split at h
        · cases h
        · omega
    exact ⟨fun other ho => hlt.1.trans_le (hje other ho),
      fun other ho => hlt.2.trans_le (htd other ho)⟩
  · rename_i job others hj ht
    rw [Earliest.take?_eq_none ht]
    split at h
    · cases h
    · rename_i hlt
      exact ⟨fun other ho => (Nat.lt_of_not_le hlt).trans_le (Earliest.take?_le hj other ho), nofun⟩
  · rename_i timer others hj ht
    rw [Earliest.take?_eq_none hj]
    split at h
    · cases h
    · rename_i hlt
      exact ⟨nofun, fun other ho => (Nat.lt_of_not_le hlt).trans_le (Earliest.take?_le ht other ho)⟩
  · rename_i hj ht
    rw [Earliest.take?_eq_none hj, Earliest.take?_eq_none ht]
    exact ⟨nofun, nofun⟩

theorem settle_induction {P : Timeline → Prop}
    (hs : ∀ {t t'}, P t → t.step? limit = some t' → P t') (h : P t) :
    P (t.settle limit) ∧ (t.settle limit).step? limit = none := by
  induction t using settle.induct limit with
  | case1 t hn =>
    rw [settle]
    split
    · exact ⟨h, hn⟩
    · rename_i hsome
      cases hn.symm.trans hsome
  | case2 t t' hsome ih =>
    rw [settle]
    split
    · rename_i hn
      cases hn.symm.trans hsome
    · rename_i hsome'
      cases hsome.symm.trans hsome'
      exact ih (hs h hsome)

/-! ## Sound timelines -/

/-- Whether every job that waits is the one that its key waits for, and jobs are told apart by
their generations. -/
structure Sound (t : Timeline) : Prop where
  pending : ∀ timer ∈ t.timers, t.debouncer.pending? timer.key = some timer.generation
  apart : t.timers.Pairwise fun a b => ¬a.key.same b.key = true
  generation : ∀ {key n}, t.debouncer.pending? key = some n →
    t.debouncer.generation? key = some n
  injective : ∀ {key other n}, t.debouncer.pending? key = some n →
    t.debouncer.pending? other = some n → key.same other = true
  drawn : ∀ {key n}, t.debouncer.pending? key = some n → n ≤ t.debouncer.drawn

theorem sound_start (delay : Nat) : Sound { delay } where
  pending := nofun
  apart := .nil
  generation := nofun
  injective := nofun
  drawn := nofun

theorem Sound.stop_eq (h : t.Sound) (key : Path) :
    stop t.timers (t.debouncer.pending? key) =
      t.timers.filter fun timer => !timer.key.same key := by
  refine List.filter_congr fun timer hm => ?_
  have hp := h.pending timer hm
  by_cases hs : timer.key.same key
  · rw [hs, ← pending?_congr _ hs, hp]
    simp
  · have hne : ¬some timer.generation = t.debouncer.pending? key :=
      fun heq => hs (h.injective hp heq.symm)
    simp [hs, hne]

theorem Sound.apart_of_perm (h : t.Sound) {timer : Timer} {others : List Timer}
    (hp : t.timers.Perm (timer :: others)) :
    (∀ other ∈ others, ¬timer.key.same other.key = true) ∧
      others.Pairwise fun a b => ¬a.key.same b.key = true := by
  refine List.pairwise_cons.1 ((hp.pairwise_iff ?_).1 h.apart)
  intro _ _ hn hs
  exact hn (Path.same_symm hs)

theorem Sound.fire_eq (h : t.Sound) {timer : Timer} (hm : timer ∈ t.timers)
    (others : List Timer) :
    ∃ debouncer, t.debouncer.wake? timer.key timer.generation = some debouncer ∧
      t.fire timer others =
        { t with
          now := timer.due
          debouncer
          timers := others
          jobs := t.jobs ++ [timer.job]
          log := t.log ++ [⟨timer.due, timer.id, false⟩] } := by
  have hw := (isSome_wake? _ _ _).2 (h.generation (h.pending timer hm))
  obtain ⟨debouncer, hn⟩ := Option.isSome_iff_exists.1 hw
  refine ⟨debouncer, hn, ?_⟩
  simp only [fire, hn]
  rfl

theorem Sound.fire (h : t.Sound) {timer : Timer} {others : List Timer}
    (hp : t.timers.Perm (timer :: others)) : (t.fire timer others).Sound := by
  obtain ⟨debouncer, hn, hf⟩ := h.fire_eq (hp.mem_iff.2 (.head _)) others
  obtain ⟨ha, hr⟩ := h.apart_of_perm hp
  have hd : ∀ {key n}, debouncer.pending? key = some n → t.debouncer.pending? key = some n := by
    intro key n hk
    rw [pending?_wake hn] at hk
    split at hk
    · cases hk
    · exact hk
  rw [hf]
  refine ⟨fun other ho => ?_, hr, fun hk => ?_, fun hk ho => h.injective (hd hk) (hd ho),
    fun hk => ?_⟩
  · rw [pending?_wake hn, if_neg (ha other ho)]
    exact h.pending other (hp.mem_iff.2 (.tail _ ho))
  · rw [generation?_wake hn]
    exact h.generation (hd hk)
  · rw [drawn_wake hn]
    exact h.drawn (hd hk)

theorem Sound.finishJob (h : t.Sound) (job : Job) (others : List Job) :
    (t.finishJob job others).Sound := by
  have hp : ∀ key, (t.debouncer.finish job.key job.generation).pending? key =
      t.debouncer.pending? key := fun key => pending?_finish _ _ _ _
  refine ⟨fun timer hm => (hp _).trans (h.pending timer hm), h.apart, fun {key n} hk => ?_,
    fun hk ho => h.injective ((hp _).symm.trans hk) ((hp _).symm.trans ho), fun hk => ?_⟩
  · have hk := (hp _).symm.trans hk
    exact (generation?_finish_of_pending? hk).trans (h.generation hk)
  · rw [Timeline.finishJob, drawn_finish]
    exact h.drawn ((hp _).symm.trans hk)

theorem Sound.trigger_eq (h : t.Sound) (key : Path) (id work : Nat) :
    t.trigger key id work =
      { t with
        debouncer := (t.debouncer.draw.2.install key (t.debouncer.drawn + 1)).1
        timers := (t.timers.filter fun timer => !timer.key.same key) ++
          [⟨t.now + t.delay, key, t.debouncer.drawn + 1, id, work⟩] } := by
  rw [← h.stop_eq key]
  simp only [Timeline.trigger, draw, install_snd]
  rfl

theorem Sound.cancel_eq (h : t.Sound) (key : Path) :
    t.cancel key =
      { t with
        debouncer := (t.debouncer.cancel key).1
        timers := t.timers.filter fun timer => !timer.key.same key } := by
  rw [← h.stop_eq key]
  rfl

theorem Sound.close_eq (h : t.Sound) :
    t.close = { t with debouncer := t.debouncer.close.1, timers := [], isClosed := true } := by
  have hn : (t.timers.filter fun timer => !t.debouncer.close.2.contains timer.generation) = [] := by
    refine List.filter_eq_nil_iff.2 fun timer hm => ?_
    simpa using mem_close_snd (h.pending timer hm)
  exact congrArg
    (fun timers => { t with debouncer := t.debouncer.close.1, timers, isClosed := true }) hn

theorem Sound.perform (h : t.Sound) (operation : Operation) : (t.perform operation).Sound := by
  cases operation with
  | trigger key id work =>
    have hp : ∀ other, (t.debouncer.draw.2.install key (t.debouncer.drawn + 1)).1.pending? other =
        if key.same other then some (t.debouncer.drawn + 1) else t.debouncer.pending? other :=
      fun other => pending?_install _ _ _ _
    rw [Timeline.perform, h.trigger_eq]
    refine ⟨fun timer hm => ?_, ?_, fun {other n} hk => ?_, fun {a b n} ha hb => ?_,
      fun {other n} hk => ?_⟩
    · rw [hp]
      obtain hm | hm := List.mem_append.1 hm
      · obtain ⟨hm, hs⟩ := List.mem_filter.1 hm
        rw [Path.same_comm, Bool.not_eq_true'] at hs
        rw [hs]
        exact h.pending timer hm
      · rw [List.mem_singleton.1 hm, Path.same_self, if_pos rfl]
    · refine List.pairwise_append.2 ⟨h.apart.filter _, List.pairwise_singleton _ _, ?_⟩
      intro timer hm new hn
      rw [List.mem_singleton.1 hn]
      simpa using (List.mem_filter.1 hm).2
    · rw [hp] at hk
      rw [generation?_install]
      split at hk
      · rename_i hs
        rw [if_pos hs, hk]
      · rename_i hs
        rw [if_neg hs]
        exact h.generation hk
    · -- What waited before was drawn before, so it is not the generation drawn now.
      have hlt : ∀ {c}, t.debouncer.pending? c ≠ some (t.debouncer.drawn + 1) := by
        intro c hc
        have := h.drawn hc
        omega
      rw [hp] at ha hb
      split at ha <;> split at hb
      · rename_i hsa hsb
        rwa [← Path.same_congr hsa]
      · exact absurd (hb.trans ha.symm) hlt
      · exact absurd (ha.trans hb.symm) hlt
      · exact h.injective ha hb
    · rw [hp] at hk
      split at hk
      · cases hk
        exact le_rfl
      · exact (h.drawn hk).trans (Nat.le_succ _)
  | cancel key =>
    have hp : ∀ {other n}, (t.debouncer.cancel key).1.pending? other = some n →
        ¬key.same other = true ∧ t.debouncer.pending? other = some n := by
      intro other n hk
      rw [pending?_cancel] at hk
      split at hk
      · cases hk
      · exact ⟨‹_›, hk⟩
    rw [Timeline.perform, h.cancel_eq]
    refine ⟨fun timer hm => ?_, h.apart.filter _, fun hk => ?_,
      fun ha hb => h.injective (hp ha).2 (hp hb).2, fun hk => h.drawn (hp hk).2⟩
    · obtain ⟨hm, hs⟩ := List.mem_filter.1 hm
      rw [Path.same_comm, Bool.not_eq_true'] at hs
      rw [pending?_cancel, hs]
      exact h.pending timer hm
    · rw [generation?_cancel, if_neg (hp hk).1]
      exact h.generation (hp hk).2
  | close =>
    have hp : ∀ {other n}, t.debouncer.close.1.pending? other ≠ some n := by
      intro other n hk
      rw [pending?_close] at hk
      cases hk
    rw [Timeline.perform, h.close_eq]
    exact ⟨nofun, .nil, fun hk => absurd hk hp, fun hk => absurd hk hp, fun hk => absurd hk hp⟩

/-! ## The order of the log -/

/-- Whether the log is in the order of its moments, and all that is to come comes after it. -/
structure InOrder (t : Timeline) : Prop where
  log : t.log.Pairwise fun a b => a.time ≤ b.time
  log_le : ∀ entry ∈ t.log, entry.time ≤ t.now
  jobs : ∀ job ∈ t.jobs, t.now ≤ job.ends
  timers : ∀ timer ∈ t.timers, t.now ≤ timer.due

theorem inOrder_start (delay : Nat) : InOrder { delay } :=
  ⟨.nil, nofun, nofun, nofun⟩

theorem InOrder.log_append (h : t.InOrder) (entry : LogEntry) (hle : t.now ≤ entry.time) :
    ((t.log ++ [entry]).Pairwise fun a b => a.time ≤ b.time) ∧
      ∀ e ∈ t.log ++ [entry], e.time ≤ entry.time := by
  have hl : ∀ e ∈ t.log, e.time ≤ entry.time := fun e he => (h.log_le e he).trans hle
  refine ⟨List.pairwise_append.2 ⟨h.log, List.pairwise_singleton _ _, fun e he new hn => ?_⟩,
    fun e he => ?_⟩
  · rw [List.mem_singleton.1 hn]
    exact hl e he
  · obtain he | he := List.mem_append.1 he
    · exact hl e he
    · rw [List.mem_singleton.1 he]

theorem InOrder.step (hs : t.Sound) (h : t.InOrder) (ht : t.step? limit = some t') :
    t'.InOrder ∧ (t.now ≤ limit → t'.now ≤ limit) := by
  obtain ⟨job, others, hp, hle, hj, hd, rfl⟩ | ⟨timer, others, hp, hle, hj, hd, rfl⟩ :=
    step?_cases ht
  · have hm : job ∈ t.jobs := hp.mem_iff.2 (.head _)
    obtain ⟨hlog, hlast⟩ := h.log_append job.ending (h.jobs job hm)
    exact ⟨⟨hlog, hlast, fun other ho => hj other (hp.mem_iff.2 (.tail _ ho)), hd⟩, fun _ => hle⟩
  · have hm : timer ∈ t.timers := hp.mem_iff.2 (.head _)
    obtain ⟨hlog, hlast⟩ :=
      h.log_append ⟨timer.due, timer.id, false⟩ (h.timers timer hm)
    obtain ⟨debouncer, -, hf⟩ := hs.fire_eq hm others
    rw [hf]
    refine ⟨⟨hlog, hlast, fun job hjob => ?_, fun other ho => hd other (hp.mem_iff.2 (.tail _ ho))⟩,
      fun _ => hle⟩
    obtain hjob | hjob := List.mem_append.1 hjob
    · exact hj job hjob
    · rw [List.mem_singleton.1 hjob]
      exact Nat.le_add_right _ _

theorem InOrder.perform (hs : t.Sound) (h : t.InOrder) (operation : Operation) :
    (t.perform operation).InOrder := by
  cases operation with
  | trigger key id work =>
    rw [Timeline.perform, hs.trigger_eq]
    refine ⟨h.log, h.log_le, h.jobs, fun timer hm => ?_⟩
    obtain hm | hm := List.mem_append.1 hm
    · exact h.timers timer (List.mem_filter.1 hm).1
    · rw [List.mem_singleton.1 hm]
      exact Nat.le_add_right _ _
  | cancel key =>
    rw [Timeline.perform, hs.cancel_eq]
    exact ⟨h.log, h.log_le, h.jobs, fun timer hm => h.timers timer (List.mem_filter.1 hm).1⟩
  | close =>
    rw [Timeline.perform, hs.close_eq]
    exact ⟨h.log, h.log_le, h.jobs, nofun⟩

/-! ## What is logged and what is still to come -/

/-- What is still to be logged of a job that waits. -/
def entriesOf (later : History) (timer : Timer) : List LogEntry :=
  entries timer.key timer.due timer.id timer.work later

/-- What is logged, and what is still to come of it when the given operations follow. -/
def account (t : Timeline) (later : History) : Multiset LogEntry :=
  t.log + t.jobs.map Job.ending + t.timers.flatMap (entriesOf later) + schedule t.delay later

/-- **What happens by itself leaves the account as it is**, when the operations that follow come
later. -/
theorem account_step (hs : t.Sound) {later : History} (hl : ∀ op ∈ later, limit ≤ op.1)
    (ht : t.step? limit = some t') : t'.account later = t.account later := by
  obtain ⟨job, others, hp, -, -, -, rfl⟩ | ⟨timer, others, hp, hle, -, -, rfl⟩ := step?_cases ht
  · have hj : (t.jobs.map Job.ending : Multiset LogEntry) =
        ((job :: others).map Job.ending : List LogEntry) :=
      Multiset.coe_eq_coe.2 (hp.map _)
    simp only [account, hj, finishJob, List.map_cons, ← Multiset.cons_coe, ← Multiset.coe_add,
      ← Multiset.singleton_add, Multiset.coe_nil]
    rw [Job.ending]
    abel
  · obtain ⟨debouncer, -, hf⟩ := hs.fire_eq (hp.mem_iff.2 (.head _)) others
    have hlast : lasts timer.key timer.due later = true :=
      lasts_of_forall_le fun op hm => hle.trans (hl op hm)
    have ht : (t.timers.flatMap (entriesOf later) : Multiset LogEntry) =
        ((timer :: others).flatMap (entriesOf later) : List LogEntry) :=
      Multiset.coe_eq_coe.2 (hp.flatMap_right _)
    have he : entriesOf later timer = [⟨timer.due, timer.id, false⟩, timer.job.ending] := by
      rw [entriesOf, entries, if_pos hlast]
      rfl
    simp only [account, hf, ht, List.flatMap_cons, he, List.map_append, List.map_cons, List.map_nil,
      ← Multiset.cons_coe, ← Multiset.coe_add, ← Multiset.singleton_add, Multiset.coe_nil]
    abel

theorem flatMap_entriesOf_cons {time : Nat} (ht : ∀ timer ∈ t.timers, time < timer.due)
    (operation : Operation) (later : History) :
    t.timers.flatMap (entriesOf ((time, operation) :: later)) =
      (t.timers.filter fun timer => !operation.recalls timer.key).flatMap (entriesOf later) := by
  generalize t.timers = timers at ht
  induction timers with
  | nil => rfl
  | cons timer timers ih =>
    rw [List.flatMap_cons, ih fun other ho => ht other (.tail _ ho), entriesOf, entries,
      lasts_cons (ht timer (.head _)), List.filter_cons]
    cases operation.recalls timer.key <;> rfl

/-- **What is done from outside leaves the account as it is.** -/
theorem account_perform (hs : t.Sound) (ht : ∀ timer ∈ t.timers, t.now < timer.due)
    (operation : Operation) (later : History) :
    (t.perform operation).account later = t.account ((t.now, operation) :: later) := by
  rw [account, account, flatMap_entriesOf_cons ht]
  cases operation with
  | trigger key id work =>
    have hr : (fun timer : Timer => !(Operation.trigger key id work).recalls timer.key) =
        fun timer => !timer.key.same key := by
      funext timer
      rw [Operation.recalls, Path.same_comm]
    rw [hr, Timeline.perform, hs.trigger_eq]
    simp only [schedule, List.flatMap_append, List.flatMap_cons, List.flatMap_nil, List.append_nil,
      entriesOf, ← Multiset.coe_add]
    abel
  | cancel key =>
    have hr : (fun timer : Timer => !(Operation.cancel key).recalls timer.key) =
        fun timer => !timer.key.same key := by
      funext timer
      rw [Operation.recalls, Path.same_comm]
    rw [hr, Timeline.perform, hs.cancel_eq]
    rfl
  | close =>
    have hr : (t.timers.filter fun timer => !Operation.close.recalls timer.key) = [] :=
      List.filter_eq_nil_iff.2 fun _ _ => Bool.false_ne_true
    rw [hr, Timeline.perform, hs.close_eq]
    rfl

/-! ## Runs -/

/-- What lasts when time passes up to a moment before the next operation. -/
structure Settled (t : Timeline) (limit : Nat) (later : History) (u : Timeline) : Prop where
  sound : u.Sound
  inOrder : u.InOrder
  now : u.now = limit
  delay : u.delay = t.delay
  account : u.account later = t.account later
  jobs : ∀ job ∈ u.jobs, limit < job.ends
  timers : ∀ timer ∈ u.timers, limit < timer.due

theorem settled_sleepTo (hs : t.Sound) (ho : t.InOrder) (hn : t.now ≤ limit) (later : History)
    (hl : ∀ op ∈ later, limit ≤ op.1) : t.Settled limit later (t.sleepTo limit) := by
  have hn : t.now + (limit - t.now) = limit := Nat.add_sub_cancel' ‹_›
  let P (u : Timeline) : Prop :=
    u.Sound ∧ u.InOrder ∧ u.now ≤ limit ∧ u.delay = t.delay ∧ u.account later = t.account later
  have hstep : ∀ {u u'}, P u → u.step? limit = some u' → P u' := by
    intro u u' ⟨hs, ho, hn, hd, ha⟩ hu
    obtain ⟨ho', hn'⟩ := ho.step hs hu
    refine ⟨?_, ho', hn' hn, ?_, (account_step hs hl hu).trans ha⟩
    · obtain ⟨job, others, -, -, -, -, rfl⟩ | ⟨timer, others, hp, -, -, -, rfl⟩ := step?_cases hu
      · exact hs.finishJob job others
      · exact hs.fire hp
    · obtain ⟨job, others, -, -, -, -, rfl⟩ | ⟨timer, others, hp, -, -, -, rfl⟩ := step?_cases hu
      · exact hd
      · obtain ⟨debouncer, -, hf⟩ := hs.fire_eq (hp.mem_iff.2 (.head _)) others
        rw [hf]
        exact hd
  obtain ⟨⟨hs', ho', hn', hd, ha⟩, hnone⟩ :=
    settle_induction hstep (⟨hs, ho, by omega, rfl, rfl⟩ : P t)
  obtain ⟨hj, ht⟩ := lt_of_step?_eq_none hnone
  rw [sleepTo, sleep, hn]
  exact ⟨⟨hs'.pending, hs'.apart, hs'.generation, hs'.injective, hs'.drawn⟩,
    ⟨ho'.log, fun e he => (ho'.log_le e he).trans hn', fun job hm => (hj job hm).le,
      fun timer hm => (ht timer hm).le⟩, rfl, hd, ha, hj, ht⟩

/-- **A whole run leaves the account as it is.** -/
theorem account_run {history : History} (hs : t.Sound) (ho : t.InOrder)
    (hh : history.Pairwise fun a b => a.1 ≤ b.1) (hn : ∀ op ∈ history, t.now ≤ op.1)
    (hnl : t.now ≤ limit) (hl : ∀ op ∈ history, op.1 ≤ limit) :
    (t.run history).Sound ∧ (t.run history).InOrder ∧ (t.run history).now ≤ limit ∧
      (t.run history).account [] = t.account history := by
  induction history generalizing t with
  | nil => exact ⟨hs, ho, hnl, rfl⟩
  | cons op history ih =>
    obtain ⟨time, operation⟩ := op
    obtain ⟨hlater, hh⟩ := List.pairwise_cons.1 hh
    have hu := settled_sleepTo hs ho (hn _ (.head _)) ((time, operation) :: history)
      (List.forall_mem_cons.2 ⟨le_rfl, hlater⟩)
    have hnow : ((t.sleepTo time).perform operation).now = time := by
      cases operation <;> exact hu.now
    obtain ⟨hs', ho', hn', ha⟩ := ih (hu.sound.perform operation)
      (hu.inOrder.perform hu.sound operation) hh (fun op hm => hnow.trans_le (hlater op hm))
      (hnow.trans_le (hl _ (.head _))) fun op hm => hl op (.tail _ hm)
    refine ⟨hs', ho', hn', ?_⟩
    have hp := account_perform hu.sound (fun timer hm => hu.now.trans_lt (hu.timers timer hm))
      operation history
    rw [hu.now] at hp
    exact ha.trans (hp.trans hu.account)

/-- **What is logged up to a moment** is, in the order of its moments, what the rule lays down up
to that moment. -/
theorem logOf_perm (delay : Nat) {history : History} (hh : history.Pairwise fun a b => a.1 ≤ b.1)
    (hl : ∀ op ∈ history, op.1 ≤ limit) :
    ((logOf delay history limit).Pairwise fun a b => a.time ≤ b.time) ∧
      (logOf delay history limit).Perm
        ((schedule delay history).filter fun entry => entry.time ≤ limit) := by
  obtain ⟨hs, ho, hn, ha⟩ := account_run (sound_start delay) (inOrder_start delay) hh
    (fun op _ => Nat.zero_le op.1) (Nat.zero_le limit) hl
  have hu := settled_sleepTo hs ho hn [] nofun
  refine ⟨hu.inOrder.log, ?_⟩
  have hacc := hu.account.trans ha
  generalize ht : (run { delay } history).sleepTo limit = t at hu hacc
  have hjobs : ((t.jobs.map Job.ending).filter fun entry => entry.time ≤ limit) = [] := by
    refine List.filter_eq_nil_iff.2 fun entry hm hle => ?_
    obtain ⟨job, hj, rfl⟩ := List.mem_map.1 hm
    exact absurd (of_decide_eq_true hle) (Nat.not_le.2 (hu.jobs job hj))
  have htimers :
      ((t.timers.flatMap (entriesOf [])).filter fun entry => entry.time ≤ limit) = [] := by
    refine List.filter_eq_nil_iff.2 fun entry hm => ?_
    obtain ⟨timer, hm, he⟩ := List.mem_flatMap.1 hm
    have hlt := hu.timers timer hm
    rw [entriesOf, entries, lasts, List.all_nil, if_pos rfl] at he
    simp only [List.mem_cons, List.not_mem_nil, or_false] at he
    obtain rfl | rfl := he <;> simp <;> omega
  have hlog : (t.log.filter fun entry => entry.time ≤ limit) = t.log :=
    List.filter_eq_self.2 fun entry hm =>
      decide_eq_true ((hu.inOrder.log_le entry hm).trans hu.now.le)
  have hperm : (t.log ++ t.jobs.map Job.ending ++ t.timers.flatMap (entriesOf [])).Perm
      (schedule delay history) := by
    rw [← Multiset.coe_eq_coe]
    simpa [account, schedule] using hacc
  have hperm := hperm.filter fun entry => decide (entry.time ≤ limit)
  rw [List.filter_append, List.filter_append, hlog, hjobs, htimers, List.append_nil,
    List.append_nil] at hperm
  rw [logOf, ht]
  exact hperm

/-! ## One job, one key -/

/-- The job that an operation brings. -/
def Operation.job? : Operation → Option Nat
  | trigger _ id _ => some id
  | _ => none

/-- Whether the jobs of a history belong to the keys that they are said to belong to. -/
def Belong (keyOf : Nat → Path) (history : History) : Prop :=
  ∀ time key id work, (time, .trigger key id work) ∈ history → (keyOf id).same key = true

theorem id_of_mem_entries {key : Path} {due id work : Nat} {later : History} {entry : LogEntry}
    (h : entry ∈ entries key due id work later) : entry.id = id := by
  rw [entries] at h
  split at h
  · simp only [List.mem_cons, List.not_mem_nil, or_false] at h
    obtain rfl | rfl := h <;> rfl
  · cases h

theorem job?_of_mem_schedule {delay : Nat} {history : History} {entry : LogEntry}
    (h : entry ∈ schedule delay history) : ∃ op ∈ history, op.2.job? = some entry.id := by
  induction history with
  | nil => cases h
  | cons op history ih =>
    have hlater : entry ∈ schedule delay history →
        ∃ other ∈ op :: history, other.2.job? = some entry.id := fun h =>
      let ⟨other, hm, hj⟩ := ih h
      ⟨other, .tail _ hm, hj⟩
    obtain ⟨time, _ | _ | _⟩ := op
    · obtain h | h := List.mem_append.1 h
      · exact ⟨_, .head _, congrArg some (id_of_mem_entries h).symm⟩
      · exact hlater h
    · exact hlater h
    · exact hlater h

theorem filter_schedule_of_job {delay time key id work} {before later : History}
    (hb : ∀ op ∈ before, op.2.job? ≠ some id) (hl : ∀ op ∈ later, op.2.job? ≠ some id) :
    ((schedule delay (before ++ (time, .trigger key id work) :: later)).filter
      fun entry => entry.id = id) = entries key (time + delay) id work later := by
  induction before with
  | nil =>
    have hnone : ((schedule delay later).filter fun entry => entry.id = id) = [] := by
      refine List.filter_eq_nil_iff.2 fun entry hm he => ?_
      obtain ⟨op, ho, hj⟩ := job?_of_mem_schedule hm
      exact hl op ho (hj.trans (congrArg some (of_decide_eq_true he)))
    rw [List.nil_append, schedule, List.filter_append, hnone, List.append_nil]
    exact List.filter_eq_self.2 fun entry hm => decide_eq_true (id_of_mem_entries hm)
  | cons op before ih =>
    have ih := ih fun other ho => hb other (.tail _ ho)
    have hne := hb op (.head _)
    obtain ⟨_, _ | _ | _⟩ := op
    · rw [List.cons_append, schedule, List.filter_append, ih]
      refine (List.append_left_eq_self).2 (List.filter_eq_nil_iff.2 fun entry hm he => hne ?_)
      rw [← of_decide_eq_true he, id_of_mem_entries hm]
      rfl
    · exact ih
    · exact ih

theorem lasts_filter {key other : Path} (hs : key.same other = true) (due : Nat) (later : History) :
    lasts key due (later.filter fun op => op.2.recalls other) = lasts key due later := by
  rw [lasts, List.all_filter]
  refine congrArg (List.all later) (funext fun op => ?_)
  rw [← Operation.recalls_congr hs]
  cases op.2.recalls key <;> simp

/-- What is laid down of one key depends on the operations on this key only. -/
theorem filter_schedule_of_key {keyOf : Nat → Path} (delay : Nat) {history : History}
    (hk : Belong keyOf history) (key : Path) :
    ((schedule delay history).filter fun entry => (keyOf entry.id).same key) =
      schedule delay (history.filter fun op => op.2.recalls key) := by
  induction history with
  | nil => rfl
  | cons op history ih =>
    have ih := ih fun time key id work hm => hk time key id work (.tail _ hm)
    rw [List.filter_cons]
    obtain ⟨time, other | other | _⟩ := op
    · rename_i id work
      have hid : (keyOf id).same key = other.same key := Path.same_congr (hk _ _ _ _ (.head _))
      rw [schedule, List.filter_append, ih]
      by_cases hs : other.same key = true
      · rw [Operation.recalls, if_pos hs, schedule, entries, entries, lasts_filter hs]
        refine congrArg (· ++ _) (List.filter_eq_self.2 fun entry hm => ?_)
        rw [id_of_mem_entries hm, hid, hs]
      · rw [Operation.recalls, if_neg hs]
        refine (List.append_left_eq_self).2 (List.filter_eq_nil_iff.2 fun entry hm he => hs ?_)
        rwa [id_of_mem_entries hm, hid] at he
    · split <;> exact ih
    · exact ih

/-- **The log follows the schedule.** Of a job, its start is logged when its delay is over and its
end when its time is over, each once, unless its key was triggered or cancelled, or all was closed,
before its delay was over; then nothing is logged of it. What is logged of a key is what is logged
when nothing but the operations on this key and the closing is done. -/
theorem log_follows_schedule (delay limit : Nat) (history : History)
    (hh : history.Pairwise fun a b => a.1 ≤ b.1) (hl : ∀ op ∈ history, op.1 ≤ limit) :
    ((logOf delay history limit).Pairwise fun a b => a.time ≤ b.time) ∧
      (∀ before time key id work later, history = before ++ (time, .trigger key id work) :: later →
        (∀ op ∈ before ++ later, op.2.job? ≠ some id) →
        ((logOf delay history limit).filter fun entry => entry.id = id).Perm
          ((entries key (time + delay) id work later).filter fun entry => entry.time ≤ limit)) ∧
      ∀ keyOf key, Belong keyOf history →
        ((logOf delay history limit).filter fun entry => (keyOf entry.id).same key).Perm
          (logOf delay (history.filter fun op => op.2.recalls key) limit) := by
  obtain ⟨hlog, hperm⟩ := logOf_perm delay hh hl
  refine ⟨hlog, fun before time key id work later he hid => ?_, fun keyOf key hk => ?_⟩
  · obtain ⟨hb, ha⟩ := List.forall_mem_append.1 hid
    rw [← filter_schedule_of_job hb ha, ← he, List.filter_comm]
    exact hperm.filter _
  · have hkey := (logOf_perm delay (hh.filter fun op => op.2.recalls key)
      fun op hm => hl op (List.mem_filter.1 hm).1).2
    rw [← filter_schedule_of_key delay hk key, List.filter_comm] at hkey
    exact (hperm.filter _).trans hkey.symm

/-- A key triggered again while its first job runs, cancelled while the second waits, and triggered
once more before all is closed: the third job starts and runs to its end. -/
theorem log_of_triggered_thrice :
    let history : History :=
      [(0, .trigger ⟨"/a"⟩ 1 1000), (300, .trigger ⟨"/a"⟩ 2 100), (400, .cancel ⟨"/a"⟩),
        (500, .trigger ⟨"/a"⟩ 3 200), (600, .trigger ⟨"/b"⟩ 4 10), (800, .close)]
    ((logOf 250 history 2000).filter fun entry => entry.id = 1).Perm
        [⟨250, 1, false⟩, ⟨1250, 1, true⟩] ∧
      ((logOf 250 history 2000).filter fun entry => entry.id = 2).Perm [] ∧
      ((logOf 250 history 2000).filter fun entry => entry.id = 3).Perm
        [⟨750, 3, false⟩, ⟨950, 3, true⟩] := by
  intro history
  obtain ⟨-, hjob, -⟩ := log_follows_schedule 250 2000 history (by decide) (by decide)
  exact ⟨hjob [] _ _ _ _ _ rfl (by decide), hjob [_] _ _ _ _ _ rfl (by decide),
    hjob [_, _, _] _ _ _ _ _ rfl (by decide)⟩

end Timeline

end EviAssist.Debouncer
