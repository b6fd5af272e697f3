import EviAssist.Proofs.Debouncer
import Mathlib.Algebra.Order.Group.Multiset
import Mathlib.Data.List.Induction
import Mathlib.Tactic.Abel

/-!
# Late aborts

Callers and tasks of a debouncer come in any order, each with one critical section after another.
A trigger draws its generation before it takes the lock, so another one may overtake it; a task
that is asked to stop may have woken up by then, and goes on. A job still starts only if no later
trigger or cancellation of its key took the lock, and no job that has started is asked to stop.

* `Debouncer.Interleaving`: a debouncer, its callers and its tasks.
* `Debouncer.Interleaving.Step`, `Debouncer.Interleaving.step?`, `Debouncer.Interleaving.run?`:
  single steps, and runs.
* `Debouncer.Interleaving.asks`: whom a step asks to stop.
* `Debouncer.Interleaving.IsLatest`: whether a trigger is the last that took the lock for its key.
* `Debouncer.Interleaving.Consistent`, `Debouncer.Interleaving.consistent_of_run?`: how the
  debouncer and its tasks agree with what has been done.
* `Debouncer.Interleaving.starts_only_latest`: what is safe in every run.
-/

namespace EviAssist.Debouncer

/-- A trigger and its task, known by the generation that it drew. -/
structure Task where
  key : Path
  generation : Nat
  deriving DecidableEq, Inhabited, Repr

/-- A debouncer, its callers and its tasks. -/
structure Interleaving where
  debouncer : Debouncer := {}
  /-- Triggers that drew a generation and have not taken the lock. -/
  drawn : Multiset Task := 0
  /-- Tasks whose delay is not over. -/
  asleep : Multiset Task := 0
  /-- Tasks whose delay is over, and that have not taken the lock. -/
  awake : Multiset Task := 0
  /-- Tasks whose jobs run. -/
  running : Multiset Task := 0
  /-- The tasks that were asked to stop. -/
  asked : List Nat := []

namespace Interleaving

/-- What can happen next. -/
inductive Step where
  /-- A trigger draws its generation. -/
  | draw (task : Task)
  /-- A trigger takes the lock, and its task is spawned. -/
  | install (task : Task)
  /-- A key is cancelled. -/
  | cancel (key : Path)
  /-- The debouncer is dropped. -/
  | close
  /-- The delay of a task is over. -/
  | elapse (task : Task)
  /-- A task takes the lock, and its job starts. -/
  | start (task : Task)
  /-- A task takes the lock, and its job does not start. -/
  | lapse (task : Task)
  /-- A job ends, and its task takes the lock. -/
  | finish (task : Task)
  /-- A task that was asked to stop does so. -/
  | stop (task : Task)
  deriving DecidableEq

/-- The tasks that are asked to stop in a step. -/
def asks (s : Interleaving) : Step → List Nat
  | .install task => (s.debouncer.install task.key task.generation).2.toList
  | .cancel key => (s.debouncer.cancel key).2.toList
  | .close => s.debouncer.close.2
  | _ => []

/-- A single step; none when it cannot happen. A task that sleeps while it is asked to stop never
wakes up; one that has woken up stops at any later time, or never. -/
def step? (s : Interleaving) : Step → Option Interleaving
  | .draw task =>
    if task.generation = s.debouncer.draw.1 then
      some { s with debouncer := s.debouncer.draw.2, drawn := task ::ₘ s.drawn }
    else none
  | .install task =>
    if task ∈ s.drawn then
      some
        { s with
          debouncer := (s.debouncer.install task.key task.generation).1
          drawn := s.drawn.erase task
          asleep := task ::ₘ s.asleep
          asked := s.asked ++ s.asks (.install task) }
    else none
  | .cancel key =>
    some
      { s with
        debouncer := (s.debouncer.cancel key).1
        asked := s.asked ++ s.asks (.cancel key) }
  | .close =>
    some { s with debouncer := s.debouncer.close.1, asked := s.asked ++ s.asks .close }
  | .elapse task =>
    if task ∈ s.asleep ∧ task.generation ∉ s.asked then
      some { s with asleep := s.asleep.erase task, awake := task ::ₘ s.awake }
    else none
  | .start task =>
    if task ∈ s.awake then
      (s.debouncer.wake? task.key task.generation).map fun debouncer =>
        { s with debouncer, awake := s.awake.erase task, running := task ::ₘ s.running }
    else none
  | .lapse task =>
    if task ∈ s.awake ∧ s.debouncer.wake? task.key task.generation = none then
      some { s with awake := s.awake.erase task }
    else none
  | .finish task =>
    if task ∈ s.running then
      some
        { s with
          debouncer := s.debouncer.finish task.key task.generation
          running := s.running.erase task }
    else none
  | .stop task =>
    if task.generation ∈ s.asked ∧ task ∈ s.asleep + s.awake + s.running then
      some
        { s with
          asleep := s.asleep.erase task
          awake := s.awake.erase task
          running := s.running.erase task }
    else none

/-- Some steps, one after another; none when one of them cannot happen. -/
def run? (s : Interleaving) : List Step → Option Interleaving
  | [] => some s
  | step :: steps => (s.step? step).bind (run? · steps)

/-! ## What has been done -/

/-- The triggers that drew a generation. -/
def draws (steps : List Step) : List Task :=
  steps.filterMap fun
    | .draw task => some task
    | _ => none

/-- The jobs that started. -/
def starts (steps : List Step) : List Task :=
  steps.filterMap fun
    | .start task => some task
    | _ => none

/-- Whether a step takes the lock to trigger or to cancel a key. -/
def Step.replaces (key : Path) : Step → Bool
  | install task => task.key.same key
  | cancel other => other.same key
  | _ => false

/-- Whether a trigger is the last of its key that took the lock, and its key was not cancelled
after that. -/
def IsLatest (task : Task) (steps : List Step) : Prop :=
  ∃ earlier later, steps = earlier ++ .install task :: later ∧
    ∀ step ∈ later, step.replaces task.key = false

variable {s s' : Interleaving} {steps : List Step} {next : Step} {task other : Task}

theorem mem_draws : task ∈ draws steps ↔ .draw task ∈ steps := by
  rw [draws, List.mem_filterMap]
  constructor
  · rintro ⟨step, hm, h⟩
    cases step <;> cases h
    exact hm
  · exact fun hm => ⟨_, hm, rfl⟩

theorem mem_starts : task ∈ starts steps ↔ .start task ∈ steps := by
  rw [starts, List.mem_filterMap]
  constructor
  · rintro ⟨step, hm, h⟩
    cases step <;> cases h
    exact hm
  · exact fun hm => ⟨_, hm, rfl⟩

theorem draws_append (steps later : List Step) :
    draws (steps ++ later) = draws steps ++ draws later :=
  List.filterMap_append

theorem starts_append (steps later : List Step) :
    starts (steps ++ later) = starts steps ++ starts later :=
  List.filterMap_append

theorem draws_concat (h : draws [next] = []) : draws (steps ++ [next]) = draws steps := by
  rw [draws_append, h, List.append_nil]

theorem starts_concat (h : starts [next] = []) : starts (steps ++ [next]) = starts steps := by
  rw [starts_append, h, List.append_nil]

theorem run?_append (s : Interleaving) (steps later : List Step) :
    s.run? (steps ++ later) = (s.run? steps).bind (run? · later) := by
  induction steps generalizing s with
  | nil => rfl
  | cons step steps ih =>
    rw [List.cons_append, run?, run?]
    cases s.step? step with
    | none => rfl
    | some s' => exact ih s'

theorem Step.replaces_congr {key other : Path} (h : key.same other = true) (step : Step) :
    step.replaces key = step.replaces other := by
  cases step with
  | install _ | cancel _ => exact Path.same_congr_right h
  | _ => rfl

theorem IsLatest.mem (h : IsLatest task steps) : .install task ∈ steps := by
  obtain ⟨earlier, later, rfl, -⟩ := h
  exact List.mem_append_right _ (.head _)

theorem IsLatest.append (h : IsLatest task steps) (hr : next.replaces task.key = false) :
    IsLatest task (steps ++ [next]) := by
  obtain ⟨earlier, later, rfl, hl⟩ := h
  refine ⟨earlier, later ++ [next], by rw [List.append_assoc]; rfl, ?_⟩
  exact List.forall_mem_append.2 ⟨hl, List.forall_mem_singleton.2 hr⟩

theorem isLatest_install (task : Task) (steps : List Step) :
    IsLatest task (steps ++ [.install task]) :=
  ⟨steps, [], rfl, nofun⟩

/-! ## Consistent debouncers -/

/-- Whether a debouncer and its tasks are as they are after some steps. -/
structure Consistent (s : Interleaving) (steps : List Step) : Prop where
  distinct : s.debouncer.slots.Distinct
  numbered : (draws steps).map (·.generation) = List.range' 1 s.debouncer.drawn
  tasks : s.drawn + s.asleep + s.awake + starts steps ≤ draws steps
  installed : ∀ {task}, .install task ∈ steps → .draw task ∈ steps
  latest : ∀ {key n}, s.debouncer.generation? key = some n →
    ∃ task, task.generation = n ∧ task.key.same key = true ∧ IsLatest task steps
  pending : ∀ {key n}, s.debouncer.pending? key = some n → s.debouncer.generation? key = some n
  unstarted : ∀ {key n}, s.debouncer.pending? key = some n →
    ∀ task ∈ starts steps, task.generation ≠ n

theorem Consistent.eq_of_generation (h : s.Consistent steps) (ht : task ∈ draws steps)
    (ho : other ∈ draws steps) (hg : task.generation = other.generation) : task = other := by
  refine List.inj_on_of_nodup_map ?_ ht ho hg
  rw [h.numbered]
  exact List.nodup_range'

theorem Consistent.mem_draws (h : s.Consistent steps)
    (ht : task ∈ s.drawn + s.asleep + s.awake + starts steps) : task ∈ draws steps :=
  Multiset.mem_coe.1 (Multiset.mem_of_le h.tasks ht)

theorem Consistent.isLatest (h : s.Consistent steps) {key : Path} (ht : task ∈ draws steps)
    (hk : s.debouncer.generation? key = some task.generation) :
    task.key.same key = true ∧ IsLatest task steps := by
  obtain ⟨other, hn, hs, hl⟩ := h.latest hk
  have ho : other ∈ draws steps := Interleaving.mem_draws.2 (h.installed hl.mem)
  rw [h.eq_of_generation ht ho hn.symm]
  exact ⟨hs, hl⟩

theorem Consistent.nodup (h : s.Consistent steps) :
    (s.drawn + s.asleep + s.awake + starts steps).Nodup := by
  refine Multiset.nodup_of_le h.tasks (Multiset.coe_nodup.2 (List.Nodup.of_map (·.generation) ?_))
  rw [h.numbered]
  exact List.nodup_range'

theorem Consistent.installed_concat (h : s.Consistent steps) (hn : next ≠ .install task)
    (hi : .install task ∈ steps ++ [next]) : .draw task ∈ steps ++ [next] := by
  obtain hi | hi := List.mem_append.1 hi
  · exact List.mem_append_left _ (h.installed hi)
  · exact absurd (List.mem_singleton.1 hi).symm hn

/-- A step that draws no generation, takes no lock for a trigger and starts no job may only forget
what is known. -/
theorem Consistent.forget (h : s.Consistent steps) (hdraw : draws [next] = [])
    (hstart : starts [next] = []) (hinstall : ∀ task, next ≠ .install task)
    (hdistinct : s'.debouncer.slots.Distinct) (hdrawn : s'.debouncer.drawn = s.debouncer.drawn)
    (htasks : s'.drawn + s'.asleep + s'.awake ≤ s.drawn + s.asleep + s.awake)
    (hgeneration : ∀ {key n}, s'.debouncer.generation? key = some n →
      s.debouncer.generation? key = some n ∧ next.replaces key = false)
    (hpending : ∀ {key n}, s'.debouncer.pending? key = some n →
      s.debouncer.pending? key = some n ∧
        s'.debouncer.generation? key = s.debouncer.generation? key) :
    s'.Consistent (steps ++ [next]) := by
  have hdraws : draws (steps ++ [next]) = draws steps := draws_concat hdraw
  have hstarts : starts (steps ++ [next]) = starts steps := starts_concat hstart
  refine ⟨hdistinct, ?_, ?_, fun {task} hi => ?_, fun hk => ?_, fun hk => ?_, fun hk => ?_⟩
  · rw [hdraws, hdrawn]
    exact h.numbered
  · rw [hdraws, hstarts]
    exact (add_le_add_left htasks _).trans h.tasks
  · exact h.installed_concat (hinstall task) hi
  · obtain ⟨hk, hr⟩ := hgeneration hk
    obtain ⟨task, hn, hs, hl⟩ := h.latest hk
    exact ⟨task, hn, hs, hl.append ((next.replaces_congr hs).trans hr)⟩
  · exact (hpending hk).2.trans (h.pending (hpending hk).1)
  · rw [hstarts]
    exact h.unstarted (hpending hk).1

theorem Consistent.draw (h : s.Consistent steps) (hs : s.step? (.draw task) = some s') :
    s'.Consistent (steps ++ [.draw task]) := by
  have hstarts : starts (steps ++ [.draw task]) = starts steps := starts_concat rfl
  rw [step?] at hs
  split at hs <;> cases hs
  rename_i hg
  have hdraws : draws (steps ++ [.draw task]) = draws steps ++ [task] := draws_append _ _
  refine ⟨h.distinct, ?_, ?_, fun {other} hi => ?_, fun hk => ?_, h.pending, ?_⟩
  · rw [hdraws, List.map_append, h.numbered]
    refine Eq.trans ?_ List.range'_concat.symm
    rw [List.map_singleton, hg, Debouncer.draw, Nat.one_mul, Nat.add_comm 1]
  · rw [hdraws, hstarts, ← Multiset.coe_add, Multiset.cons_add, Multiset.cons_add,
      Multiset.cons_add, ← Multiset.singleton_add, add_comm]
    exact add_le_add_left h.tasks _
  · exact h.installed_concat nofun hi
  · obtain ⟨other, hn, hs, hl⟩ := h.latest hk
    exact ⟨other, hn, hs, hl.append rfl⟩
  · rw [hstarts]
    exact h.unstarted

theorem Consistent.install (h : s.Consistent steps) (hs : s.step? (.install task) = some s') :
    s'.Consistent (steps ++ [.install task]) := by
  have hdraws : draws (steps ++ [.install task]) = draws steps := draws_concat rfl
  have hstarts : starts (steps ++ [.install task]) = starts steps := starts_concat rfl
  rw [step?] at hs
  split at hs <;> cases hs
  rename_i hm
  obtain ⟨rest, hr⟩ := Multiset.exists_cons_of_mem hm
  have hdrawn : task ∈ draws steps := h.mem_draws (by simp [hm])
  refine ⟨distinct_install h.distinct _ _, ?_, ?_, fun {other} hi => ?_, fun {key n} hk => ?_,
    fun {key n} hk => ?_, fun {key n} hk => ?_⟩
  · rw [hdraws]
    exact h.numbered
  · have ht := h.tasks
    rw [hr] at ht
    rw [hdraws, hstarts, hr, Multiset.erase_cons_head, Multiset.add_cons, ← Multiset.cons_add]
    exact ht
  · obtain hi | hi := List.mem_append.1 hi
    · exact List.mem_append_left _ (h.installed hi)
    · cases List.mem_singleton.1 hi
      exact List.mem_append_left _ (Interleaving.mem_draws.1 hdrawn)
  · rw [generation?_install] at hk
    split at hk
    · cases hk
      exact ⟨task, rfl, ‹_›, isLatest_install task steps⟩
    · rename_i hn
      obtain ⟨other, hg, hs, hl⟩ := h.latest hk
      refine ⟨other, hg, hs, hl.append ?_⟩
      rw [Step.replaces, Path.same_congr_right hs]
      exact Bool.eq_false_of_not_eq_true hn
  · rw [pending?_install] at hk
    rw [generation?_install]
    split at hk
    · rw [if_pos ‹_›, hk]
    · rw [if_neg ‹_›]
      exact h.pending hk
  · rw [pending?_install] at hk
    rw [hstarts]
    split at hk
    · -- A trigger that takes the lock has not started.
      cases hk
      intro other ho hg
      rw [h.eq_of_generation (h.mem_draws (by simp [ho])) hdrawn hg] at ho
      have hdisjoint := (Multiset.nodup_add.1 h.nodup).2.2
      exact Multiset.disjoint_left.1 hdisjoint (by simp [hm]) (Multiset.mem_coe.2 ho)
    · exact h.unstarted hk

theorem Consistent.start (h : s.Consistent steps) (hs : s.step? (.start task) = some s') :
    s'.Consistent (steps ++ [.start task]) := by
  have hdraws : draws (steps ++ [.start task]) = draws steps := draws_concat rfl
  have hstarts : starts (steps ++ [.start task]) = starts steps ++ [task] := starts_append _ _
  rw [step?] at hs
  split at hs
  · rename_i hm
    obtain ⟨debouncer, hw, hs⟩ := Option.map_eq_some_iff.1 hs
    cases hs
    obtain ⟨rest, hr⟩ := Multiset.exists_cons_of_mem hm
    have hp : ∀ {key n}, debouncer.pending? key = some n →
        ¬task.key.same key = true ∧ s.debouncer.pending? key = some n := by
      intro key n hk
      rw [pending?_wake hw] at hk
      split at hk
      · cases hk
      · exact ⟨‹_›, hk⟩
    refine ⟨distinct_wake h.distinct hw, ?_, ?_, fun {other} hi => ?_, fun {key n} hk => ?_,
      fun {key n} hk => ?_, fun {key n} hk => ?_⟩
    · rw [hdraws, drawn_wake hw]
      exact h.numbered
    · rw [hdraws, hstarts]
      refine le_trans (le_of_eq ?_) h.tasks
      dsimp only
      rw [hr, Multiset.erase_cons_head, ← Multiset.coe_add, Multiset.coe_singleton,
        ← Multiset.singleton_add]
      abel
    · exact h.installed_concat nofun hi
    · rw [generation?_wake hw] at hk
      obtain ⟨other, hn, hs, hl⟩ := h.latest hk
      exact ⟨other, hn, hs, hl.append rfl⟩
    · rw [generation?_wake hw]
      exact h.pending (hp hk).2
    · rw [hstarts]
      intro other ho hg
      obtain ho | ho := List.mem_append.1 ho
      · exact h.unstarted (hp hk).2 other ho hg
      · rw [← hg, List.mem_singleton.1 ho] at hk
        exact (hp hk).1 (h.isLatest (h.mem_draws (by simp [hm])) (h.pending (hp hk).2)).1
  · cases hs

/-- **What every step preserves.** -/
theorem Consistent.step (h : s.Consistent steps) (hs : s.step? next = some s') :
    s'.Consistent (steps ++ [next]) := by
  cases next with
  | draw task => exact h.draw hs
  | install task => exact h.install hs
  | cancel key =>
    cases hs
    refine h.forget rfl rfl nofun (distinct_cancel h.distinct _) rfl le_rfl
      (fun {other n} hk => ?_) fun {other n} hk => ?_
    · rw [generation?_cancel] at hk
      split at hk
      · cases hk
      · exact ⟨hk, Bool.eq_false_of_not_eq_true ‹_›⟩
    · rw [pending?_cancel] at hk
      rw [generation?_cancel]
      split at hk
      · cases hk
      · exact ⟨hk, if_neg ‹_›⟩
  | close =>
    cases hs
    refine h.forget rfl rfl nofun (distinct_close h.distinct) rfl le_rfl (fun hk => ⟨?_, rfl⟩)
      fun hk => ?_
    · rwa [generation?_close] at hk
    · rw [pending?_close] at hk
      cases hk
  | elapse task =>
    rw [step?] at hs
    split at hs <;> cases hs
    rename_i hm
    obtain ⟨rest, hr⟩ := Multiset.exists_cons_of_mem hm.1
    refine h.forget rfl rfl nofun h.distinct rfl (le_of_eq ?_) (fun hk => ⟨hk, rfl⟩)
      fun hk => ⟨hk, rfl⟩
    dsimp only
    rw [hr, Multiset.erase_cons_head, ← Multiset.singleton_add, ← Multiset.singleton_add]
    abel
  | start task => exact h.start hs
  | lapse task =>
    rw [step?] at hs
    split at hs <;> cases hs
    exact h.forget rfl rfl nofun h.distinct rfl (add_le_add_right (Multiset.erase_le _ _) _)
      (fun hk => ⟨hk, rfl⟩) fun hk => ⟨hk, rfl⟩
  | finish task =>
    rw [step?] at hs
    split at hs <;> cases hs
    refine h.forget rfl rfl nofun (distinct_finish h.distinct _ _) (drawn_finish _ _ _) le_rfl
      (fun hk => ⟨generation?_finish hk, rfl⟩) fun hk => ?_
    rw [pending?_finish] at hk
    exact ⟨hk, generation?_finish_of_pending? hk⟩
  | stop task =>
    rw [step?] at hs
    split at hs <;> cases hs
    exact h.forget rfl rfl nofun h.distinct rfl
      (add_le_add (add_le_add_right (Multiset.erase_le _ _) _) (Multiset.erase_le _ _))
      (fun hk => ⟨hk, rfl⟩) fun hk => ⟨hk, rfl⟩

theorem consistent_nil : Consistent {} [] :=
  ⟨.nil, rfl, le_rfl, nofun, nofun, nofun, nofun⟩

/-- **What every run leads to.** -/
theorem consistent_of_run? (h : run? {} steps = some s) : s.Consistent steps := by
  induction steps using List.reverseRecOn generalizing s with
  | nil =>
    cases h
    exact consistent_nil
  | append_singleton steps next ih =>
    rw [run?_append] at h
    obtain ⟨u, hu, h⟩ := Option.bind_eq_some_iff.1 h
    obtain ⟨s', hs, h⟩ := Option.bind_eq_some_iff.1 h
    cases h
    exact (ih hu).step hs

theorem pending?_of_mem_asks (h : s.Consistent steps) {n : Nat} (hn : n ∈ s.asks next) :
    ∃ key, s.debouncer.pending? key = some n := by
  cases next with
  | install task =>
    rw [asks, install_snd, Option.mem_toList] at hn
    exact ⟨_, hn⟩
  | cancel key =>
    rw [asks, cancel_snd, Option.mem_toList] at hn
    exact ⟨_, hn⟩
  | close => exact (mem_close_snd_iff h.distinct).1 hn
  | _ => cases hn

/-- **What is safe in every run.** A job starts only when its trigger is the last of its key that
took the lock and its key was not cancelled after that; no trigger has its job started twice; and
no task is asked to stop whose job has started. The generations are counted, so they fit into 64
bits as long as there are fewer triggers than that. -/
theorem starts_only_latest (h : run? {} steps = some s) :
    (∀ before task after, steps = before ++ .start task :: after → IsLatest task before) ∧
      (starts steps).Subperm (draws steps) ∧
      (draws steps).map (·.generation) = List.range' 1 (draws steps).length ∧
      ∀ before next after, steps = before ++ next :: after →
        ∃ u, run? {} before = some u ∧
          ∀ n ∈ u.asks next, ∀ task, .start task ∈ before → task.generation ≠ n := by
  have hc := consistent_of_run? h
  refine ⟨fun before task after he => ?_, ?_, ?_, fun before next after he => ?_⟩
  · rw [he, run?_append] at h
    obtain ⟨u, hu, h⟩ := Option.bind_eq_some_iff.1 h
    obtain ⟨u', hs, -⟩ := Option.bind_eq_some_iff.1 h
    rw [step?] at hs
    split at hs
    · rename_i hm
      obtain ⟨debouncer, hw, -⟩ := Option.map_eq_some_iff.1 hs
      have hu := consistent_of_run? hu
      exact (hu.isLatest (hu.mem_draws (by simp [hm]))
        ((isSome_wake? _ _ _).1 (Option.isSome_of_eq_some hw))).2
    · cases hs
  · exact Multiset.coe_le.1 ((Multiset.le_add_left _ _).trans hc.tasks)
  · rw [hc.numbered]
    congr
    have hl := congrArg List.length hc.numbered
    rw [List.length_map, List.length_range'] at hl
    exact hl.symm
  · rw [he, run?_append] at h
    obtain ⟨u, hu, -⟩ := Option.bind_eq_some_iff.1 h
    refine ⟨u, hu, fun n hn task ht => ?_⟩
    obtain ⟨key, hp⟩ := pending?_of_mem_asks (consistent_of_run? hu) hn
    exact (consistent_of_run? hu).unstarted hp task (mem_starts.2 ht)

/-- The second trigger takes the lock first, and its task has woken up when the first trigger asks
it to stop: it goes on, takes the lock, and does nothing. The job of the first trigger starts. -/
theorem isLatest_of_overtaken :
    let first : Task := ⟨⟨"/a"⟩, 1⟩
    let second : Task := ⟨⟨"/a"⟩, 2⟩
    let before : List Step := [.draw first, .draw second, .install second, .elapse second,
      .install first, .lapse second, .elapse first]
    (run? {} (before ++ [.start first, .cancel ⟨"/a"⟩, .finish first])).isSome = true ∧
      IsLatest first before := by
  intro first second before
  have h : (run? {} (before ++ [.start first, .cancel ⟨"/a"⟩, .finish first])).isSome = true := by
    decide
  exact ⟨h, (starts_only_latest (Option.some_get h).symm).1 _ _ _ rfl⟩

end Interleaving

end EviAssist.Debouncer
