import EviAssist.Proofs.Debouncer.Interleaving

/-!
# The table of slots

The slots of a debouncer tell what has been done: a key has a slot as long as one of its jobs waits,
or runs since the key was last cancelled. What has been done is read off the steps alone.

* `Debouncer.Interleaving.IsPending`, `Debouncer.Interleaving.HasPending`,
  `Debouncer.Interleaving.IsUnderWay`: the jobs that wait and that run, by what has been done, with
  one lemma each for one more step.
* `Debouncer.Interleaving.Attended`: how the tasks agree with this.
* `Debouncer.Interleaving.Tabled`: how the slots agree with this.
* `Debouncer.Interleaving.slots_tell_jobs`: what the slots tell in every run.
-/

namespace EviAssist.Debouncer.Interleaving

/-! ## Jobs that wait and run -/

/-- Whether a step cancels a key. -/
def Step.cancels (key : Path) : Step → Bool
  | cancel other => other.same key
  | _ => false

/-- Whether the job of a task waits: its trigger is the last of its key, the key was not cancelled
after that, and the job has not started. -/
def IsPending (task : Task) (steps : List Step) : Prop :=
  IsLatest task steps ∧ .start task ∉ steps

/-- Whether a job of a key waits. -/
def HasPending (key : Path) (steps : List Step) : Prop :=
  ∃ task, task.key.same key = true ∧ IsPending task steps

/-- Whether a job has started since its key was last cancelled, and has not ended. -/
def IsUnderWay (task : Task) (steps : List Step) : Prop :=
  ∃ earlier later, steps = earlier ++ .start task :: later ∧
    ∀ step ∈ later, step ≠ .finish task ∧ step.cancels task.key = false

variable {s s' : Interleaving} {steps : List Step} {next : Step} {task other : Task} {key : Path}
  {n : Nat}

theorem concat_eq_append_cons_iff {step : Step} {earlier later : List Step} :
    steps ++ [next] = earlier ++ step :: later ↔
      (next = step ∧ later = [] ∧ steps = earlier) ∨
        ∃ between, later = between ++ [next] ∧ steps = earlier ++ step :: between := by
  constructor
  · intro h
    obtain rfl | ⟨between, last, rfl⟩ := List.eq_nil_or_concat later
    · obtain ⟨rfl, hs⟩ := List.append_inj' h rfl
      exact .inl ⟨List.singleton_inj.1 hs, rfl, rfl⟩
    · rw [List.concat_eq_append, ← List.cons_append, ← List.append_assoc] at h
      obtain ⟨rfl, hs⟩ := List.append_inj' h rfl
      cases hs
      exact .inr ⟨between, List.concat_eq_append, rfl⟩
  · rintro (⟨rfl, rfl, rfl⟩ | ⟨between, rfl, rfl⟩)
    · rfl
    · rw [List.append_assoc]
      rfl

theorem isLatest_concat_iff :
    IsLatest task (steps ++ [next]) ↔
      next = .install task ∨ IsLatest task steps ∧ next.replaces task.key = false := by
  constructor
  · rintro ⟨earlier, later, he, hl⟩
    obtain ⟨hn, -, -⟩ | ⟨between, rfl, rfl⟩ := concat_eq_append_cons_iff.1 he
    · exact .inl hn
    · obtain ⟨hbetween, hnext⟩ := List.forall_mem_append.1 hl
      exact .inr ⟨⟨earlier, between, rfl, hbetween⟩, hnext next (.head _)⟩
  · rintro (rfl | ⟨hl, hr⟩)
    · exact isLatest_install task steps
    · exact hl.append hr

theorem isPending_concat_iff :
    IsPending task (steps ++ [next]) ↔
      next = .install task ∧ .start task ∉ steps ∨
        IsPending task steps ∧ next.replaces task.key = false ∧ next ≠ .start task := by
  rw [IsPending, IsPending, isLatest_concat_iff, List.mem_append, List.mem_singleton, not_or]
  constructor
  · rintro ⟨rfl | ⟨hl, hr⟩, hs, hn⟩
    · exact .inl ⟨rfl, hs⟩
    · exact .inr ⟨⟨hl, hs⟩, hr, Ne.symm hn⟩
  · rintro (⟨rfl, hs⟩ | ⟨⟨hl, hs⟩, hr, hn⟩)
    · exact ⟨.inl rfl, hs, nofun⟩
    · exact ⟨.inr ⟨hl, hr⟩, hs, Ne.symm hn⟩

theorem isUnderWay_concat_iff :
    IsUnderWay task (steps ++ [next]) ↔
      next = .start task ∨
        IsUnderWay task steps ∧ next ≠ .finish task ∧ next.cancels task.key = false := by
  constructor
  · rintro ⟨earlier, later, he, hl⟩
    obtain ⟨hn, -, -⟩ | ⟨between, rfl, rfl⟩ := concat_eq_append_cons_iff.1 he
    · exact .inl hn
    · obtain ⟨hbetween, hnext⟩ := List.forall_mem_append.1 hl
      exact .inr ⟨⟨earlier, between, rfl, hbetween⟩, hnext next (.head _)⟩
  · rintro (rfl | ⟨⟨earlier, later, rfl, hl⟩, hn⟩)
    · exact ⟨steps, [], rfl, nofun⟩
    · refine ⟨earlier, later ++ [next], by rw [List.append_assoc]; rfl, ?_⟩
      exact List.forall_mem_append.2 ⟨hl, List.forall_mem_singleton.2 hn⟩

theorem IsUnderWay.mem (h : IsUnderWay task steps) : .start task ∈ steps := by
  obtain ⟨earlier, later, rfl, -⟩ := h
  exact List.mem_append_right _ (.head _)

/-! ## What a step does to the tasks -/

theorem mem_drawn_step (hs : s.step? next = some s') (hm : task ∈ s'.drawn) :
    next = .draw task ∨ task ∈ s.drawn := by
  cases next <;> grind [step?, Option.map_eq_some_iff, Multiset.mem_of_mem_erase]

theorem mem_waiting_step (hs : s.step? next = some s') (hm : task ∈ s.asleep + s.awake)
    (hstart : next ≠ .start task) (hlapse : next ≠ .lapse task) (hstop : next ≠ .stop task) :
    task ∈ s'.asleep + s'.awake := by
  cases next <;> grind [step?, Option.map_eq_some_iff, Multiset.mem_erase_of_ne]

theorem mem_running_step (hs : s.step? next = some s') (hm : task ∈ s'.running) :
    next = .start task ∨ task ∈ s.running := by
  cases next <;> grind [step?, Option.map_eq_some_iff, Multiset.mem_of_mem_erase]

theorem mem_running_of_step (hs : s.step? next = some s') (hm : task ∈ s.running)
    (hfinish : next ≠ .finish task) (hstop : next ≠ .stop task) : task ∈ s'.running := by
  cases next <;> grind [step?, Option.map_eq_some_iff, Multiset.mem_erase_of_ne]

theorem asked_step (hs : s.step? next = some s') : s'.asked = s.asked ++ s.asks next := by
  cases next <;> grind [step?, Option.map_eq_some_iff, asks]

theorem mem_drawn_of_step (hs : s.step? (.install task) = some s') : task ∈ s.drawn := by
  grind [step?]

theorem wake?_of_step (hs : s.step? (.start task) = some s') :
    s.debouncer.wake? task.key task.generation = some s'.debouncer := by
  grind [step?, Option.map_eq_some_iff]

theorem mem_asked_of_step (hs : s.step? (.stop task) = some s') :
    task.generation ∈ s.asked := by
  grind [step?]

/-- While a debouncer is there, a task is asked to stop because its key is triggered again or
cancelled. -/
theorem exists_replaces_of_mem_asks (hn : n ∈ s.asks next) (hclose : next ≠ .close) :
    ∃ key, next.replaces key = true ∧ s.debouncer.pending? key = some n := by
  cases next with
  | install task =>
    rw [asks, install_snd, Option.mem_toList] at hn
    exact ⟨task.key, Path.same_self _, hn⟩
  | cancel key =>
    rw [asks, cancel_snd, Option.mem_toList] at hn
    exact ⟨key, Path.same_self _, hn⟩
  | close => exact absurd rfl hclose
  | _ => cases hn

/-! ## What has been done, in the tasks and in the slots -/

/-- How the tasks agree with what has been done: a trigger takes the lock once, the tasks of jobs
that wait and run are there, and those that were asked to stop have jobs that never start. -/
structure Attended (s : Interleaving) (steps : List Step) : Prop where
  once : ∀ {task}, task ∈ s.drawn → .install task ∉ steps
  begun : ∀ {task}, task ∈ s.running → .start task ∈ steps
  waiting : ∀ {task}, IsPending task steps → task ∈ s.asleep + s.awake
  underWay : ∀ {task}, IsUnderWay task steps → task ∈ s.running
  asked : ∀ {n}, n ∈ s.asked →
    ∃ task, task.generation = n ∧ .install task ∈ steps ∧ .start task ∉ steps ∧
      ¬IsPending task steps

/-- How the slots agree with what has been done: they name the jobs that wait and run, and there is
no slot without one. -/
structure Tabled (s : Interleaving) (steps : List Step) : Prop where
  waits : ∀ {task}, IsPending task steps →
    s.debouncer.pending? task.key = some task.generation
  runs : ∀ {key n}, n ∈ s.debouncer.running key ↔
    ∃ task, task.generation = n ∧ task.key.same key = true ∧ IsUnderWay task steps
  nodup : ∀ key, (s.debouncer.running key).Nodup
  busy : ∀ {key}, s.debouncer.slots.contains key = true → s.debouncer.IsBusy key

theorem Consistent.mem_draws_of_install (h : s.Consistent steps) (hi : .install task ∈ steps) :
    task ∈ draws steps :=
  Interleaving.mem_draws.2 (h.installed hi)

theorem Consistent.mem_draws_of_start (h : s.Consistent steps) (hs : .start task ∈ steps) :
    task ∈ draws steps :=
  h.mem_draws (Multiset.mem_add.2 (.inr (Multiset.mem_coe.2 (mem_starts.2 hs))))

theorem Consistent.generation_le (h : s.Consistent steps) (ht : task ∈ draws steps) :
    task.generation ≤ s.debouncer.drawn := by
  have hm := List.mem_map_of_mem (f := Task.generation) ht
  rw [h.numbered, List.mem_range'_1] at hm
  omega

theorem Consistent.exists_isPending (h : s.Consistent steps)
    (hp : s.debouncer.pending? key = some n) :
    ∃ task, task.generation = n ∧ task.key.same key = true ∧ IsPending task steps := by
  obtain ⟨task, rfl, hs, hl⟩ := h.latest (h.pending hp)
  exact ⟨task, rfl, hs, hl, fun hstart => h.unstarted hp task (mem_starts.2 hstart) rfl⟩

theorem Consistent.isPending_of_wake (h : s.Consistent steps) (ht : task ∈ draws steps)
    {d : Debouncer} (hw : s.debouncer.wake? task.key task.generation = some d)
    (hs : .start task ∉ steps) : IsPending task steps :=
  ⟨(h.isLatest ht ((isSome_wake? _ _ _).1 (Option.isSome_of_eq_some hw))).2, hs⟩

/-! ## Tasks -/

theorem Attended.step (h : s.Attended steps) (hc : s.Consistent steps) (ht : s.Tabled steps)
    (hclose : next ≠ .close) (hs : s.step? next = some s') :
    s'.Attended (steps ++ [next]) where
  once {task} hm hmem := by
    obtain hi | hi := List.mem_append.1 hmem
    · obtain rfl | hm := mem_drawn_step hs hm
      · have hle := hc.generation_le (hc.mem_draws_of_install hi)
        have hfresh : task.generation = s.debouncer.drawn + 1 := by grind [step?, Debouncer.draw]
        omega
      · exact h.once hm hi
    · rw [← List.mem_singleton.1 hi] at hs
      have hnodup : s.drawn.Nodup := by
        have hd := hc.nodup
        simp only [Multiset.nodup_add] at hd
        exact hd.1.1.1
      have herase : s'.drawn = s.drawn.erase task := by grind [step?]
      rw [herase, hnodup.mem_erase_iff] at hm
      exact hm.1 rfl
  begun {task} hm := by
    obtain rfl | hm := mem_running_step hs hm
    · exact List.mem_append_right _ (.head _)
    · exact List.mem_append_left _ (h.begun hm)
  waiting {task} hconcat := by
    obtain ⟨rfl, -⟩ | ⟨hp, -, hstart⟩ := isPending_concat_iff.1 hconcat
    · grind [step?]
    · refine mem_waiting_step hs (h.waiting hp) hstart ?_ ?_
      · -- The job of a task that lapses does not wait.
        rintro rfl
        have hsome := (isSome_wake? _ _ _).2 (hc.pending (ht.waits hp))
        grind [step?]
      · rintro rfl
        obtain ⟨other, hg, hi, -, hnot⟩ := h.asked (mem_asked_of_step hs)
        rw [hc.eq_of_generation (hc.mem_draws_of_install hi) (hc.mem_draws_of_install hp.1.mem) hg]
          at hnot
        exact hnot hp
  underWay {task} hconcat := by
    obtain rfl | ⟨hu, hfinish, -⟩ := isUnderWay_concat_iff.1 hconcat
    · grind [step?, Option.map_eq_some_iff]
    · refine mem_running_of_step hs (h.underWay hu) hfinish ?_
      rintro rfl
      obtain ⟨other, hg, hi, hstart, -⟩ := h.asked (mem_asked_of_step hs)
      rw [hc.eq_of_generation (hc.mem_draws_of_install hi) (hc.mem_draws_of_start hu.mem) hg]
        at hstart
      exact hstart hu.mem
  asked {n} hn := by
    rw [asked_step hs, List.mem_append] at hn
    -- In both cases the task has taken the lock before, so this step is not its trigger.
    have hnot {task : Task} (hi : .install task ∈ steps)
        (hr : IsPending task steps → next.replaces task.key = true) :
        ¬IsPending task (steps ++ [next]) := by
      intro hp
      obtain ⟨rfl, -⟩ | ⟨hp, hkeeps, -⟩ := isPending_concat_iff.1 hp
      · exact h.once (mem_drawn_of_step hs) hi
      · rw [hr hp] at hkeeps
        cases hkeeps
    obtain hn | hn := hn
    · obtain ⟨task, hg, hi, hstart, hp⟩ := h.asked hn
      refine ⟨task, hg, List.mem_append_left _ hi, fun hm => ?_, hnot hi fun hp' => absurd hp' hp⟩
      obtain hm | hm := List.mem_append.1 hm
      · exact hstart hm
      · rw [← List.mem_singleton.1 hm] at hs
        exact hp (hc.isPending_of_wake (hc.mem_draws_of_install hi) (wake?_of_step hs) hstart)
    · obtain ⟨key, hr, hpending⟩ := exists_replaces_of_mem_asks hn hclose
      obtain ⟨task, hg, hkey, hp⟩ := hc.exists_isPending hpending
      have hreplaces : next.replaces task.key = true := (next.replaces_congr hkey).trans hr
      refine ⟨task, hg, List.mem_append_left _ hp.1.mem, fun hm => ?_,
        hnot hp.1.mem fun _ => hreplaces⟩
      obtain hm | hm := List.mem_append.1 hm
      · exact hp.2 hm
      · rw [← List.mem_singleton.1 hm] at hr
        cases hr

/-! ## Slots -/

/-- A step that triggers and cancels no key, and starts and ends no job, leaves the slots as they
are. -/
theorem Tabled.of_slots_eq (h : s.Tabled steps) (hslots : s'.debouncer.slots = s.debouncer.slots)
    (hreplaces : ∀ key, next.replaces key = false) (hstart : ∀ task, next ≠ .start task)
    (hfinish : ∀ task, next ≠ .finish task) : s'.Tabled (steps ++ [next]) := by
  have hpending (key : Path) : s'.debouncer.pending? key = s.debouncer.pending? key := by
    rw [pending?, pending?, hslots]
  have hrunning (key : Path) : s'.debouncer.running key = s.debouncer.running key := by
    rw [Debouncer.running, Debouncer.running, hslots]
  have hcancels (key : Path) : next.cancels key = false := by
    cases next with
    | cancel other => exact hreplaces key
    | _ => rfl
  refine ⟨fun {task} hp => ?_, fun {key n} => ?_, fun key => ?_, fun {key} hm => ?_⟩
  · rw [hpending]
    obtain ⟨rfl, -⟩ | ⟨hp, -, -⟩ := isPending_concat_iff.1 hp
    · have hkey := hreplaces task.key
      rw [Step.replaces, Path.same_self] at hkey
      cases hkey
    · exact h.waits hp
  · rw [hrunning, h.runs]
    refine exists_congr fun task => and_congr_right' (and_congr_right' ?_)
    simp [isUnderWay_concat_iff, hstart, hfinish, hcancels]
  · rw [hrunning]
    exact h.nodup key
  · rw [hslots] at hm
    rw [IsBusy, hpending, hrunning]
    exact h.busy hm

theorem Tabled.install (h : s.Tabled steps) (hs : s.step? (.install task) = some s') :
    s'.Tabled (steps ++ [.install task]) := by
  have hd : s'.debouncer = (s.debouncer.install task.key task.generation).1 := by grind [step?]
  refine ⟨fun {other} hp => ?_, fun {key n} => ?_, fun key => ?_, fun {key} hm => ?_⟩
  · rw [hd, pending?_install]
    obtain ⟨heq, -⟩ | ⟨hp, hr, -⟩ := isPending_concat_iff.1 hp
    · cases heq
      rw [if_pos (Path.same_self _)]
    · have hne : ¬task.key.same other.key = true := Bool.eq_false_iff.1 hr
      rw [if_neg hne]
      exact h.waits hp
  · rw [hd, running_install, h.runs]
    simp [isUnderWay_concat_iff, Step.cancels]
  · rw [hd, running_install]
    exact h.nodup key
  · rw [hd] at hm ⊢
    obtain hb | ⟨hn, hm⟩ := contains_install hm
    · exact hb
    · rw [IsBusy, pending?_install, if_neg hn, running_install]
      exact h.busy hm

theorem Tabled.cancel (h : s.Tabled steps) (hs : s.step? (.cancel key) = some s') :
    s'.Tabled (steps ++ [.cancel key]) := by
  have hd : s'.debouncer = (s.debouncer.cancel key).1 := by grind [step?]
  refine ⟨fun {task} hp => ?_, fun {other n} => ?_, fun other => ?_, fun {other} hm => ?_⟩
  · rw [hd, pending?_cancel]
    obtain ⟨heq, -⟩ | ⟨hp, hr, -⟩ := isPending_concat_iff.1 hp
    · cases heq
    · have hne : ¬key.same task.key = true := Bool.eq_false_iff.1 hr
      rw [if_neg hne]
      exact h.waits hp
  · rw [hd, running_cancel]
    by_cases hk : key.same other = true
    · rw [if_pos hk]
      refine iff_of_false List.not_mem_nil ?_
      rintro ⟨task, -, hs, hu⟩
      obtain heq | ⟨-, -, hc⟩ := isUnderWay_concat_iff.1 hu
      · cases heq
      · rw [Step.cancels, Path.same_congr_right hs, hk] at hc
        cases hc
    · rw [if_neg hk, h.runs]
      refine exists_congr fun task => and_congr_right' (and_congr_right fun hs => ?_)
      simp [isUnderWay_concat_iff, Step.cancels, Path.same_congr_right hs, hk]
  · rw [hd, running_cancel]
    split
    · exact .nil
    · exact h.nodup other
  · rw [hd] at hm ⊢
    obtain ⟨hn, hm⟩ := contains_cancel hm
    rw [IsBusy, pending?_cancel, if_neg hn, running_cancel, if_neg hn]
    exact h.busy hm

theorem Tabled.start (h : s.Tabled steps) (hc : s.Consistent steps)
    (hs : s.step? (.start task) = some s') : s'.Tabled (steps ++ [.start task]) := by
  have hw := wake?_of_step hs
  have hawake : task ∈ s.awake := by grind [step?]
  have hdrawn : task ∈ draws steps := hc.mem_draws (by simp [hawake])
  refine ⟨fun {other} hp => ?_, fun {key n} => ?_, fun key => ?_, fun {key} hm => ?_⟩
  · obtain ⟨heq, -⟩ | ⟨hp, -, hn⟩ := isPending_concat_iff.1 hp
    · cases heq
    · -- Of one key, only the job that the slot has waiting may start.
      have hother := h.waits hp
      have hne : ¬task.key.same other.key = true := by
        intro hk
        have hg := (isSome_wake? _ _ _).1 (Option.isSome_of_eq_some hw)
        rw [generation?_congr _ hk, hc.pending hother] at hg
        exact hn (congrArg _ (hc.eq_of_generation hdrawn (hc.mem_draws_of_install hp.1.mem)
          (Option.some.inj hg).symm))
      rw [pending?_wake hw, if_neg hne]
      exact hother
  · rw [running_wake hw]
    have hiff (other : Task) : IsUnderWay other (steps ++ [.start task]) ↔
        other = task ∨ IsUnderWay other steps := by
      simp [isUnderWay_concat_iff, Step.cancels, eq_comm]
    by_cases hk : task.key.same key = true
    · rw [if_pos hk, List.mem_append, List.mem_singleton, h.runs]
      constructor
      · rintro (⟨other, hg, hs, hu⟩ | rfl)
        · exact ⟨other, hg, hs, (hiff other).2 (.inr hu)⟩
        · exact ⟨task, rfl, hk, (hiff task).2 (.inl rfl)⟩
      · rintro ⟨other, hg, hs, hu⟩
        obtain rfl | hu := (hiff other).1 hu
        · exact .inr hg.symm
        · exact .inl ⟨other, hg, hs, hu⟩
    · rw [if_neg hk, h.runs]
      refine exists_congr fun other => and_congr_right' (and_congr_right fun hsame => ?_)
      rw [hiff]
      refine (or_iff_right ?_).symm
      rintro rfl
      exact hk hsame
  · rw [running_wake hw]
    split
    · refine List.Nodup.append (h.nodup key) (List.nodup_singleton _) ?_
      rw [List.disjoint_singleton, h.runs]
      rintro ⟨other, hg, -, hu⟩
      rw [hc.eq_of_generation (hc.mem_draws_of_start hu.mem) hdrawn hg] at hu
      have hdisjoint := (Multiset.nodup_add.1 hc.nodup).2.2
      exact Multiset.disjoint_left.1 hdisjoint (by simp [hawake])
        (Multiset.mem_coe.2 (mem_starts.2 hu.mem))
    · exact h.nodup key
  · obtain hb | ⟨hn, hm⟩ := contains_wake hw hm
    · exact hb
    · rw [IsBusy, pending?_wake hw, if_neg hn, running_wake hw, if_neg hn]
      exact h.busy hm

theorem Tabled.finish (h : s.Tabled steps) (hc : s.Consistent steps) (ha : s.Attended steps)
    (hs : s.step? (.finish task) = some s') : s'.Tabled (steps ++ [.finish task]) := by
  have hd : s'.debouncer = s.debouncer.finish task.key task.generation := by grind [step?]
  have hdrawn : task ∈ draws steps := hc.mem_draws_of_start (ha.begun (by grind [step?]))
  refine ⟨fun {other} hp => ?_, fun {key n} => ?_, fun key => ?_, fun {key} hm => ?_⟩
  · rw [hd, pending?_finish]
    obtain ⟨heq, -⟩ | ⟨hp, -, -⟩ := isPending_concat_iff.1 hp
    · cases heq
    · exact h.waits hp
  · have hiff (other : Task) : IsUnderWay other (steps ++ [.finish task]) ↔
        other ≠ task ∧ IsUnderWay other steps := by
      simp [isUnderWay_concat_iff, Step.cancels, eq_comm, and_comm]
    rw [hd, running_finish]
    by_cases hk : task.key.same key = true
    · rw [if_pos hk, List.mem_filter, h.runs, decide_eq_true_eq]
      constructor
      · rintro ⟨⟨other, hg, hs, hu⟩, hn⟩
        refine ⟨other, hg, hs, (hiff other).2 ⟨?_, hu⟩⟩
        rintro rfl
        exact hn hg.symm
      · rintro ⟨other, rfl, hs, hu⟩
        obtain ⟨hne, hu⟩ := (hiff other).1 hu
        refine ⟨⟨other, rfl, hs, hu⟩, fun hg => hne ?_⟩
        exact hc.eq_of_generation (hc.mem_draws_of_start hu.mem) hdrawn hg
    · rw [if_neg hk, h.runs]
      refine exists_congr fun other => and_congr_right' (and_congr_right fun hsame => ?_)
      rw [hiff]
      refine (and_iff_right ?_).symm
      rintro rfl
      exact hk hsame
  · rw [hd, running_finish]
    split
    · exact (h.nodup key).filter _
    · exact h.nodup key
  · rw [hd] at hm ⊢
    obtain hb | ⟨hn, hm⟩ := contains_finish hm
    · exact hb
    · rw [IsBusy, pending?_finish, running_finish, if_neg hn]
      exact h.busy hm

theorem Tabled.step (h : s.Tabled steps) (hc : s.Consistent steps) (ha : s.Attended steps)
    (hclose : next ≠ .close) (hs : s.step? next = some s') : s'.Tabled (steps ++ [next]) := by
  cases next with
  | install task => exact h.install hs
  | cancel key => exact h.cancel hs
  | start task => exact h.start hc hs
  | finish task => exact h.finish hc ha hs
  | close => exact absurd rfl hclose
  | draw task | elapse task | lapse task | stop task =>
    have hslots : s'.debouncer.slots = s.debouncer.slots := by grind [step?, Debouncer.draw]
    exact h.of_slots_eq hslots (fun _ => rfl) (by simp) (by simp)

theorem attended_nil : Attended {} [] :=
  ⟨nofun, nofun, fun hp => absurd hp.1.mem List.not_mem_nil,
    fun hu => absurd hu.mem List.not_mem_nil, nofun⟩

theorem tabled_nil : Tabled {} [] :=
  ⟨fun hp => absurd hp.1.mem List.not_mem_nil,
    iff_of_false List.not_mem_nil fun ⟨_, _, _, hu⟩ => absurd hu.mem List.not_mem_nil,
    fun _ => .nil, nofun⟩

/-- **What every run leads to** while the debouncer is there. -/
theorem tabled_of_run? (h : run? {} steps = some s) (hclose : .close ∉ steps) :
    s.Tabled steps ∧ s.Attended steps := by
  induction steps using List.reverseRecOn generalizing s with
  | nil =>
    cases h
    exact ⟨tabled_nil, attended_nil⟩
  | append_singleton steps next ih =>
    rw [run?_append] at h
    obtain ⟨u, hu, h⟩ := Option.bind_eq_some_iff.1 h
    obtain ⟨s', hs, h⟩ := Option.bind_eq_some_iff.1 h
    cases h
    obtain ⟨hearlier, hnext⟩ := not_or.1 (mt List.mem_append.2 hclose)
    have hne : next ≠ .close := fun heq => hnext (List.mem_singleton.2 heq.symm)
    have hc := consistent_of_run? hu
    obtain ⟨ht, ha⟩ := ih hu hearlier
    exact ⟨ht.step hc ha hne hs, ha.step hc ht hne hs⟩

theorem Tabled.isSome_pending?_iff (h : s.Tabled steps) (hc : s.Consistent steps) :
    (s.debouncer.pending? key).isSome = true ↔ HasPending key steps := by
  constructor
  · intro hp
    obtain ⟨n, hn⟩ := Option.isSome_iff_exists.1 hp
    obtain ⟨task, -, hs, hp⟩ := hc.exists_isPending hn
    exact ⟨task, hs, hp⟩
  · rintro ⟨task, hs, hp⟩
    rw [← pending?_congr _ hs, h.waits hp]
    rfl

/-- **What the slots tell.** As long as the debouncer is there, a key has a slot if and only if a
job of it waits or its slot has a job that runs. The jobs that run, as far as a slot tells, are
those that have started since the key was last cancelled and have not ended, each once. A key is
scheduled when a job of it waits, else running when its slot has a job that runs, and else idle. The
tasks of all these jobs are there, so when no job runs and none waits no slot is left, and neither
when no task is left. -/
theorem slots_tell_jobs (h : run? {} steps = some s) (hclose : .close ∉ steps) :
    (∀ key, s.debouncer.slots.contains key = true ↔
        HasPending key steps ∨ s.debouncer.running key ≠ []) ∧
      (∀ key, (s.debouncer.running key).Nodup ∧ ∀ n, n ∈ s.debouncer.running key ↔
        ∃ task, task.generation = n ∧ task.key.same key = true ∧ IsUnderWay task steps) ∧
      (∀ key, (s.debouncer.state key = .scheduled ↔ HasPending key steps) ∧
        (s.debouncer.state key = .running ↔
          ¬HasPending key steps ∧ s.debouncer.running key ≠ []) ∧
        (s.debouncer.state key = .idle ↔
          ¬HasPending key steps ∧ s.debouncer.running key = [])) ∧
      ((∀ key, ¬HasPending key steps) → s.running = 0 → s.debouncer.slots.entries = []) ∧
      (s.asleep = 0 → s.awake = 0 → s.running = 0 → s.debouncer.slots.entries = []) := by
  obtain ⟨ht, ha⟩ := tabled_of_run? h hclose
  have hpending {key : Path} : (s.debouncer.pending? key).isSome = true ↔ HasPending key steps :=
    ht.isSome_pending?_iff (consistent_of_run? h)
  have hcontains (key : Path) : s.debouncer.slots.contains key = true ↔
      HasPending key steps ∨ s.debouncer.running key ≠ [] := by
    rw [← hpending]
    exact ⟨ht.busy, IsBusy.contains⟩
  have hempty (hnone : ∀ key, ¬HasPending key steps) (hrun : s.running = 0) :
      s.debouncer.slots.entries = [] := by
    refine List.eq_nil_iff_forall_not_mem.2 fun entry hm => ?_
    have hslot : s.debouncer.slots.contains entry.1 = true :=
      List.any_eq_true.2 ⟨entry, hm, Path.same_self _⟩
    obtain hp | hr := (hcontains entry.1).1 hslot
    · exact hnone entry.1 hp
    · obtain ⟨n, hn⟩ := List.exists_mem_of_ne_nil _ hr
      obtain ⟨task, -, -, hu⟩ := ht.runs.1 hn
      have hmem := ha.underWay hu
      rw [hrun] at hmem
      exact Multiset.notMem_zero task hmem
  refine ⟨hcontains, fun key => ⟨ht.nodup key, fun n => ht.runs⟩, fun key => ?_, hempty,
    fun hasleep hawake hrun => hempty ?_ hrun⟩
  · rw [state_eq, ← hpending]
    cases (s.debouncer.pending? key).isSome <;> cases s.debouncer.running key <;> simp
  · rintro key ⟨task, -, hp⟩
    have hmem := ha.waiting hp
    rw [hasleep, hawake] at hmem
    exact Multiset.notMem_zero task hmem

/-- A key is cancelled and triggered again while its first job runs: two jobs run, and the slot
tells of the second one. -/
theorem slot_forgets_cancelled_job :
    let first : Task := ⟨⟨"/a"⟩, 1⟩
    let second : Task := ⟨⟨"/a"⟩, 2⟩
    let steps : List Step := [.draw first, .install first, .elapse first, .start first,
      .cancel ⟨"/a"⟩, .draw second, .install second, .elapse second, .start second]
    .close ∉ steps ∧ ∃ s, run? {} steps = some s ∧ s.running = {second, first} ∧
      s.debouncer.running ⟨"/a"⟩ = [2] ∧ s.debouncer.state ⟨"/a"⟩ = .running ∧
      ¬IsUnderWay first steps ∧ ¬HasPending ⟨"/a"⟩ steps := by
  intro first second steps
  have hclose : .close ∉ steps := by decide
  have hview : (run? {} steps).map
      (fun s => (s.running, s.debouncer.running ⟨"/a"⟩, s.debouncer.state ⟨"/a"⟩)) =
        some ({second, first}, [2], .running) := by
    decide
  obtain ⟨s, h, hs⟩ := Option.map_eq_some_iff.1 hview
  obtain ⟨htasks, hrunning, hstate⟩ : s.running = {second, first} ∧
      s.debouncer.running ⟨"/a"⟩ = [2] ∧ s.debouncer.state ⟨"/a"⟩ = .running := by
    simpa only [Prod.mk.injEq] using hs
  obtain ⟨-, hruns, hstates, -⟩ := slots_tell_jobs h hclose
  refine ⟨hclose, s, h, htasks, hrunning, hstate, fun hu => ?_, ((hstates _).2.1.1 hstate).1⟩
  have hmem := ((hruns ⟨"/a"⟩).2 1).2 ⟨first, rfl, Path.same_self _, hu⟩
  rw [hrunning] at hmem
  exact absurd hmem (by decide)

end EviAssist.Debouncer.Interleaving
