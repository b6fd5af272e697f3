import EviAssist.Proofs.Background.Flow
import EviAssist.Proofs.Background.Reopened
import EviAssist.Proofs.Validator.Replay

/-!
# Periods without checking

While checking is paused or disabled no new text is given a check. What was on its way when such a
period began is not held back, though: a check that was to come still starts, and one that was in
hand still publishes what it finds.

* `Background.Throughout`, `Background.Occurs`: periods in which a property holds, and what can
  happen in them.
* `Background.IsStopped`, `Background.IsDisabled`: whether checking is paused or disabled.
* `Background.occurs_stopped_iff`: what can happen in such a period.
-/

namespace EviAssist.Background

/-! ## Periods -/

section

variable (P : Background → Prop) (Q : Background → Step → Prop)

/-- Whether a property holds all the time in some steps. -/
def Throughout : Background → List Step → Prop
  | b, [] => P b
  | b, s :: steps => P b ∧ Throughout (b.step s).1 steps

/-- Whether a step of some kind can take place in a period with a property. -/
def Occurs (b : Background) : Prop :=
  ∃ steps s, Throughout P b steps ∧ Q (b.run steps) s

end

variable {P : Background → Prop} {Q : Background → Step → Prop} {b : Background} {s : Step}

theorem Occurs.now (hp : P b) (hq : Q b s) : Occurs P Q b :=
  ⟨[], s, hp, hq⟩

theorem Occurs.later (hp : P b) (s : Step) (h : Occurs P Q (b.step s).1) : Occurs P Q b := by
  obtain ⟨steps, last, ht, hq⟩ := h
  exact ⟨s :: steps, last, ⟨hp, ht⟩, hq⟩

theorem Throughout.mono {P' : Background → Prop} (h : ∀ b, P b → P' b) {steps : List Step}
    (ht : Throughout P b steps) : Throughout P' b steps := by
  induction steps generalizing b with
  | nil => exact h b ht
  | cons s steps ih => exact ⟨h b ht.1, ih ht.2⟩

theorem Occurs.mono {P' : Background → Prop} (h : ∀ b, P b → P' b) (ho : Occurs P Q b) :
    Occurs P' Q b := by
  obtain ⟨steps, s, ht, hq⟩ := ho
  exact ⟨steps, s, ht.mono h, hq⟩

theorem not_occurs_of_invariant {I : Background → Prop}
    (hstep : ∀ b s, P b → I b → ¬Q b s ∧ I (b.step s).1) (hi : I b) : ¬Occurs P Q b := by
  rintro ⟨steps, s, ht, hq⟩
  induction steps generalizing b with
  | nil => exact (hstep b s ht hi).1 hq
  | cons first steps ih => exact ih (hstep b first ht.1 hi).2 ht.2 hq

/-! ## Stopped periods -/

/-- Whether checking is paused or disabled. -/
def IsStopped (b : Background) : Prop :=
  b.validator.schedules = false

/-- Whether checking is disabled. -/
def IsDisabled (b : Background) : Prop :=
  b.validator.settings.enabled = false

/-- Whether a check starts in a step. -/
def Starts (b : Background) (s : Step) : Prop :=
  b.starts s ≠ 0

/-- Whether a step publishes something, or gives a file without diagnostics some. -/
def Shows (b : Background) (s : Step) : Prop :=
  Publishes b s ∨ ∃ file, b.validator.collection.get file = [] ∧
    (b.step s).1.validator.collection.get file ≠ []

theorem IsDisabled.isStopped (h : IsDisabled b) : IsStopped b := by
  rw [IsStopped, Validator.schedules, h, Bool.false_and]

theorem IsStopped.entering_eq_zero (h : IsStopped b) (s : Step) : b.entering s = 0 := by
  cases s with
  | accept document =>
    rw [entering, Validator.accept_snd, show b.validator.schedules = false from h, Bool.and_false]
    rfl
  | _ => rfl

/-- **What starts in a stopped period** was to come when the period began. -/
theorem started_add_coming_le {steps : List Step} (ht : Throughout IsStopped b steps) :
    (b.started steps).map (·.document) + (b.run steps).coming ≤ b.coming := by
  induction steps generalizing b with
  | nil =>
    rw [started, Multiset.map_zero, zero_add]
    exact le_rfl
  | cons s steps ih =>
    have hs := starts_add_coming_le b s
    rw [ht.1.entering_eq_zero, zero_add] at hs
    calc (b.started (s :: steps)).map (·.document) + (b.run (s :: steps)).coming
        = (b.starts s).map (·.document) +
            (((b.step s).1.started steps).map (·.document) +
              ((b.step s).1.run steps).coming) := by
          rw [started, run, Multiset.map_add, add_assoc]
      _ ≤ (b.starts s).map (·.document) + (b.step s).1.coming := by
          exact add_le_add_right (ih ht.2) _
      _ ≤ b.coming := hs

/-! ## What was on its way -/

section

variable (hP : ∀ b s, P b → b.section? s = none → P (b.step s).1)
  (hwake : ∀ b job, P b → job ∈ b.waiting → b.isDue job = true → Occurs P Q b)

include hP hwake

theorem occurs_of_mem_drawn (job : Job) (hp : P b) (hj : job ∈ b.drawn) : Occurs P Q b := by
  apply Occurs.later hp (.install job true)
  have hm : (b.step (.install job true)).1 = b.move (.install job true) := rfl
  apply hwake _ job (hP b _ hp rfl)
  · rw [hm]
    simp only [move, if_pos hj]
    exact Multiset.mem_cons_self _ _
  · rw [hm, isDue_iff]
    simp only [move, if_pos hj]
    rw [Debouncer.generation?_install, if_pos (Path.same_self _)]

theorem occurs_of_mem_accepted {document : Document} (hp : P b) (hd : document ∈ b.accepted) :
    Occurs P Q b := by
  apply Occurs.later hp (.draw document)
  apply occurs_of_mem_drawn hP hwake ⟨b.debouncer.draw.1, document⟩ (hP b _ hp rfl)
  show _ ∈ (b.move (.draw document)).drawn
  simp only [move, if_pos hd]
  exact Multiset.mem_cons_self _ _

theorem occurs_of_not_isIdle (hp : P b) (hi : ¬b.IsIdle) : Occurs P Q b := by
  by_contra hn
  apply hi
  refine ⟨?_, ?_, ?_⟩
  · rw [Multiset.eq_zero_iff_forall_notMem]
    intro document hd
    exact hn (occurs_of_mem_accepted hP hwake hp hd)
  · rw [Multiset.eq_zero_iff_forall_notMem]
    intro job hj
    exact hn (occurs_of_mem_drawn hP hwake job hp hj)
  · intro job hj
    rw [← Bool.not_eq_true]
    intro hd
    exact hn (hwake b job hp hj hd)

end

theorem IsStopped.step_of_section?_eq_none (hb : IsStopped b) (hs : b.section? s = none) :
    IsStopped (b.step s).1 := by
  rw [IsStopped, Background.step_of_section?_eq_none hs, (b.move_eq s).2]
  exact hb

theorem occurs_starts_iff (hb : IsStopped b) : Occurs IsStopped Starts b ↔ ¬b.IsIdle := by
  constructor
  · intro ho hi
    refine not_occurs_of_invariant ?_ hi ho
    intro b s hp hi
    exact ⟨fun h => h (hi.starts_eq_zero s), hi.step (hp.entering_eq_zero s)⟩
  · intro hi
    refine occurs_of_not_isIdle (fun b s hp hs => hp.step_of_section?_eq_none hs) ?_ hb hi
    intro b job hp hm hd
    apply Occurs.now hp (s := .wake job)
    rw [Starts, starts, if_pos ⟨hm, hd⟩]
    exact Multiset.singleton_ne_zero _

/-! ## What becomes visible -/

/-- A section of another kind than the end of a check publishes nothing and gives no file
diagnostics. -/
theorem not_shows_of_section {sec : Validator.Section} (hs : b.section? s = some sec)
    (hc : ∀ document answer, sec ≠ .conclude document answer) : ¬Shows b s := by
  rw [Shows, Publishes, step_of_section?_eq_some hs]
  rintro (⟨document, files, hm⟩ | ⟨file, he, hn⟩)
  · obtain ⟨checked, answer, -, rfl, -⟩ := Validator.mem_run_published hm
    exact hc checked answer rfl
  · apply hn
    cases sec with
    | accept document =>
      simp only [Validator.Section.run, Validator.accept]
      split <;> exact he
    | close path =>
      by_cases ho : b.validator.documents.contains path = true
      · rw [Validator.Section.run, Validator.get_close _ ho, he, ite_self]
      · simp only [Validator.Section.run, Validator.close, if_neg ho]
        exact he
    | reload settings executableChanged => rfl
    | conclude document answer => exact absurd rfl (hc document answer)

theorem not_shows_of_running_eq_zero (h : b.running = 0) (s : Step) : ¬Shows b s := by
  cases hs : b.section? s with
  | none =>
    rw [Shows, Publishes, Background.step_of_section?_eq_none hs, (b.move_eq s).2]
    rintro (⟨_, _, hm⟩ | ⟨file, he, hn⟩)
    · cases hm
    · exact hn he
  | some sec =>
    apply not_shows_of_section hs
    rintro document answer rfl
    cases s with
    | conclude check answer =>
      simp only [section?, h, Multiset.notMem_zero, if_false] at hs
      cases hs
    | reload change =>
      simp only [section?] at hs
      split at hs <;> cases hs
    | _ => cases hs

/-- Whether checking is disabled and only texts in Evi are on their way. -/
def IsDisabledForEvi (b : Background) : Prop :=
  IsDisabled b ∧ b.OnlyEvi

theorem IsDisabledForEvi.step_of_section?_eq_none (hb : IsDisabledForEvi b)
    (hs : b.section? s = none) : IsDisabledForEvi (b.step s).1 := by
  refine ⟨?_, hb.2.step s⟩
  rw [IsDisabled, Background.step_of_section?_eq_none hs, (b.move_eq s).2]
  exact hb.1

theorem occurs_shows_of_mem_running (check : Check) (hb : IsDisabledForEvi b)
    (hc : check ∈ b.running) : Occurs IsDisabledForEvi Shows b := by
  have he : check.job.document.isEvi = true := by
    apply hb.2
    refine Multiset.mem_add.2 (.inr (Multiset.mem_add.2 (.inr ?_)))
    exact Multiset.mem_map_of_mem (fun check : Check => check.job.document) hc
  -- The document may be closed by now, but it can be opened again.
  apply Occurs.later hb (.accept check.job.document)
  have hd : IsDisabledForEvi (b.step (.accept check.job.document)).1 := by
    refine ⟨?_, hb.2.step _⟩
    rw [IsDisabled, step_of_section?_eq_some rfl]
    simp only [Validator.Section.run, Validator.accept, he, if_true]
    exact hb.1
  apply Occurs.now hd (s := .conclude check (.ok (.diagnostics [])))
  refine .inl ((publishes_conclude_iff ?_ _).2 ?_)
  · rw [step_eq_move]
    simp only [move]
    split <;> exact hc
  · rw [contains_step]
    simp [Step.opens?, Validator.Section.opens?, he, Path.same_self]

theorem occurs_shows_of_mem_begun (job : Job) (hb : IsDisabledForEvi b) (hj : job ∈ b.begun) :
    Occurs IsDisabledForEvi Shows b := by
  apply Occurs.later hb (.ask job)
  apply occurs_shows_of_mem_running ⟨job, b.tools.executable⟩ (hb.step_of_section?_eq_none rfl)
  show _ ∈ (b.move (.ask job)).running
  simp only [move, if_pos hj]
  exact Multiset.mem_cons_self _ _

theorem occurs_shows_of_isDue (job : Job) (hb : IsDisabledForEvi b) (hj : job ∈ b.waiting)
    (hd : b.isDue job = true) : Occurs IsDisabledForEvi Shows b := by
  apply Occurs.later hb (.wake job)
  apply occurs_shows_of_mem_begun job (hb.step_of_section?_eq_none rfl)
  show _ ∈ (b.move (.wake job)).begun
  obtain ⟨-, -, debouncer, -, hw⟩ | ⟨hn, -⟩ := wake_cases hj
  · rw [hw]
    exact Multiset.mem_cons_self _ _
  · rw [hd] at hn
    cases hn

/-- Something can become visible in a disabled period unless all was idle and nothing in hand when
it began. -/
theorem occurs_shows_iff (hb : IsDisabled b) (he : b.OnlyEvi) :
    Occurs IsDisabled Shows b ↔ ¬(b.IsIdle ∧ b.inHand = 0) := by
  constructor
  · intro ho hi
    refine not_occurs_of_invariant (I := fun b => b.IsIdle ∧ b.inHand = 0) ?_ hi ho
    rintro b s hp ⟨hi, hh⟩
    refine ⟨?_, hi.step (hp.isStopped.entering_eq_zero s), ?_⟩
    · apply not_shows_of_running_eq_zero
      have hle : b.running.map (·.job.document) ≤ b.inHand := Multiset.le_add_left _ _
      rw [hh, Multiset.le_zero, Multiset.map_eq_zero] at hle
      exact hle
    · have hle := inHand_le b s
      rw [hi.starts_eq_zero, hh] at hle
      exact Multiset.le_zero.1 hle
  · intro hi
    suffices ho : Occurs IsDisabledForEvi Shows b from ho.mono fun _ h => h.1
    by_cases hidle : b.IsIdle
    · have hh : b.inHand ≠ 0 := fun hh => hi ⟨hidle, hh⟩
      obtain ⟨document, hd⟩ := Multiset.exists_mem_of_ne_zero hh
      obtain hd | hd := Multiset.mem_add.1 hd
      · obtain ⟨job, hj, -⟩ := Multiset.mem_map.1 hd
        exact occurs_shows_of_mem_begun job ⟨hb, he⟩ hj
      · obtain ⟨check, hc, -⟩ := Multiset.mem_map.1 hd
        exact occurs_shows_of_mem_running check ⟨hb, he⟩ hc
    · exact occurs_of_not_isIdle (fun b s hp hs => hp.step_of_section?_eq_none hs)
        (fun b job hp hm hd => occurs_shows_of_isDue job hp hm hd) ⟨hb, he⟩ hidle

/-- **What can happen while checking is stopped.** From any moment at which checking is paused or
disabled, and as long as it is, only checks start that were to come at that moment, each at most
once; and one can start unless all was idle then. As long as checking is disabled, something can
become visible unless all was idle and nothing in hand. -/
theorem occurs_stopped_iff (hr : b.IsReachable) (hb : IsStopped b) :
    (∀ steps, Throughout IsStopped b steps →
        (b.started steps).map (·.document) + (b.run steps).coming ≤ b.coming) ∧
      (Occurs IsStopped Starts b ↔ ¬b.IsIdle) ∧
      (IsDisabled b → (Occurs IsDisabled Shows b ↔ ¬(b.IsIdle ∧ b.inHand = 0))) :=
  ⟨fun _ ht => started_add_coming_le ht, occurs_starts_iff hb,
    fun hd => occurs_shows_iff hd hr.onlyEvi⟩

/-- A check that waits while another one finds no program starts although checking is paused. -/
theorem starts_while_paused :
    let first : Job := ⟨1, ⟨⟨"/a.evi"⟩, "", "evi"⟩⟩
    let second : Job := ⟨2, ⟨⟨"/b.evi"⟩, "", "evi"⟩⟩
    let b := (start (some ⟨"/"⟩) {} {}).run
      [.accept first.document, .draw first.document, .install first true, .wake first, .ask first,
        .accept second.document, .draw second.document, .install second true,
        .conclude ⟨first, none⟩ (.error (.toolNotFound none))]
    b.IsReachable ∧ b.validator.isPaused = true ∧ IsStopped b ∧ Occurs IsStopped Starts b := by
  intro first second b
  have hr : b.IsReachable := isReachable_run _ _ _ _
  have hb : IsStopped b := by
    show b.validator.schedules = false
    decide
  have hi : ¬b.IsIdle := not_isIdle_of_isDue second (by decide) (by decide)
  exact ⟨hr, by decide, hb, (occurs_stopped_iff hr hb).2.1.2 hi⟩

end EviAssist.Background
