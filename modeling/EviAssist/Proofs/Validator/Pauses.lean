import EviAssist.Proofs.Validator.History
import Mathlib.Data.List.Chain

/-!
# What is announced of pauses

A pause is announced once, right after a message that says why, and its end is announced once. So
whoever reads the announcements knows at every moment whether checking is paused.

* `Validator.Tells`: announcements that lead from paused checking, or from checking that goes on,
  to one of the two.
* `Validator.tells_run`, `Validator.tells_announced`: those of a section and of a history.
* `Validator.turns`, `Validator.TellsPauses`: the beginnings and ends of pauses among
  announcements, and what a reader makes of them.
* `Validator.Tells.tellsPauses`: the announcements of any history are read so.
* `Validator.paused_mem_run_iff`, `Validator.resumed_mem_run_iff`: the sections in which a pause
  begins or ends.
-/

namespace EviAssist.Validator

/-! ## Announcements in order -/

/-- Announcements that lead from paused checking (`true`), or from checking that goes on (`false`),
to one of the two: a pause begins with a message that offers to open the settings, and there are
no other messages. -/
inductive Tells : Bool → List ValidationEvent → Bool → Prop where
  | nil (p : Bool) : Tells p [] p
  | published {p q : Bool} {events : List ValidationEvent} (document : Path) (files : Report)
      (h : Tells p events q) : Tells p (.published document files :: events) q
  | cleared {p q : Bool} {events : List ValidationEvent} (files : List Path)
      (h : Tells p events q) : Tells p (.cleared files :: events) q
  | pause {q : Bool} {events : List ValidationEvent} (text : String) (h : Tells true events q) :
      Tells false (.message text true :: .paused :: events) q
  | resume {q : Bool} {events : List ValidationEvent} (h : Tells false events q) :
      Tells true (.resumed :: events) q

variable {p q r : Bool} {events later : List ValidationEvent}

theorem Tells.append (h : Tells p events q) (h' : Tells q later r) :
    Tells p (events ++ later) r := by
  induction h with
  | nil _ => exact h'
  | published document files _ ih => exact .published document files (ih h')
  | cleared files _ ih => exact .cleared files (ih h')
  | pause text _ ih => exact .pause text (ih h')
  | resume _ ih => exact .resume (ih h')

/-! ## Sections and histories -/

variable {directory : Option Path}

theorem tells_reload (v : Validator) (settings : ValidationSettings) (executableChanged : Bool) :
    Tells v.isPaused (v.reload settings executableChanged).2
      (v.reload settings executableChanged).1.isPaused := by
  have hr : Tells v.isPaused (if v.isPaused && executableChanged then [.resumed] else [])
      (v.isPaused && !executableChanged) := by
    cases v.isPaused with
    | false => exact .nil _
    | true =>
      cases executableChanged with
      | false => exact .nil _
      | true => exact .resume (.nil _)
  refine hr.append ?_
  split
  · exact .nil _
  · exact .cleared _ (.nil _)

theorem tells_pause (v : Validator) (e : LintError) :
    Tells v.isPaused (v.pause e).2 (v.pause e).1.isPaused := by
  unfold pause
  split
  · exact .nil _
  · rename_i hp
    rw [Bool.not_eq_true] at hp
    rw [hp]
    exact .pause _ (.nil _)

/-- **A section tells of the pause that begins or ends in it.** -/
theorem tells_run (v : Validator) (s : Section) :
    Tells v.isPaused (s.run directory v).2 (s.run directory v).1.isPaused := by
  cases s with
  | accept document =>
    simp only [Section.run, accept]
    split <;> exact .nil _
  | close path =>
    simp only [Section.run, close]
    split
    · exact .cleared _ (.nil _)
    · exact .nil _
  | reload settings executableChanged => exact tells_reload v settings executableChanged
  | conclude document answer =>
    simp only [Section.run, conclude]
    split
    · split
      · exact .published _ _ (.nil _)
      · split
        · exact tells_pause v _
        · exact .nil _
    · exact .nil _

/-- **A history tells of all pauses.** -/
theorem tells_announced (directory : Option Path) (settings : ValidationSettings)
    (earlier later : List Section) :
    Tells (after directory settings earlier).isPaused
      (announced directory settings earlier later)
      (after directory settings (later ++ earlier)).isPaused := by
  induction later with
  | nil => exact .nil _
  | cons s later ih => exact ih.append (tells_run _ s)

/-! ## Reading announcements -/

/-- Whether an announcement is that of a pause or of the end of one, if it is either. -/
def turn? : ValidationEvent → Option Bool
  | .paused => some true
  | .resumed => some false
  | _ => none

/-- The beginnings and ends of pauses among announcements. -/
def turns (events : List ValidationEvent) : List Bool :=
  events.filterMap turn?

/-- What is known of pauses from all announcements since the beginning. -/
structure TellsPauses (events : List ValidationEvent) (isPaused : Bool) : Prop where
  /-- Checking is paused when a pause is what was announced last. -/
  isPaused_iff : isPaused = true ↔ (turns events).getLast? = some true
  /-- Pauses begin and end by turns, and what is announced first is a beginning. -/
  alternates : (false :: turns events).IsChain (· ≠ ·)
  /-- A pause is announced right after a message that offers to open the settings, and such a
  message only right before a pause. -/
  paused_iff : ∀ i, events[i]? = some .paused ↔
    ∃ j text, j + 1 = i ∧ events[j]? = some (.message text true)
  /-- There are no other messages. -/
  offers : ∀ text openSettings, .message text openSettings ∈ events → openSettings = true

theorem Tells.getLast_turns (h : Tells p events q) :
    (p :: turns events).getLast (List.cons_ne_nil _ _) = q := by
  induction h with
  | nil _ => rfl
  | published _ _ _ ih => exact ih
  | cleared _ _ ih => exact ih
  | pause _ _ ih => exact ih
  | resume _ ih => exact ih

theorem Tells.isChain_turns (h : Tells p events q) :
    (p :: turns events).IsChain (· ≠ ·) := by
  induction h with
  | nil _ => exact .singleton _
  | published _ _ _ ih => exact ih
  | cleared _ _ ih => exact ih
  | pause _ _ ih => exact .cons_cons Bool.false_ne_true ih
  | resume _ ih => exact .cons_cons Bool.false_ne_true.symm ih

theorem paused_iff_cons {event : ValidationEvent} (hp : event ≠ .paused)
    (hm : ∀ text openSettings, event ≠ .message text openSettings)
    (h : ∀ i, events[i]? = some .paused ↔
      ∃ j text, j + 1 = i ∧ events[j]? = some (.message text true)) (i : Nat) :
    (event :: events)[i]? = some .paused ↔
      ∃ j text, j + 1 = i ∧ (event :: events)[j]? = some (.message text true) := by
  cases i with
  | zero => simp [hp]
  | succ i =>
    rw [List.getElem?_cons_succ, h]
    constructor
    · rintro ⟨j, text, rfl, he⟩
      exact ⟨j + 1, text, rfl, he⟩
    · rintro ⟨j, text, hj, he⟩
      cases j with
      | zero => exact absurd (Option.some.inj he) (hm text true)
      | succ j => exact ⟨j, text, Nat.succ.inj hj, he⟩

theorem Tells.paused_iff (h : Tells p events q) (i : Nat) :
    events[i]? = some .paused ↔
      ∃ j text, j + 1 = i ∧ events[j]? = some (.message text true) := by
  induction h generalizing i with
  | nil _ => simp
  | published document files _ ih => exact paused_iff_cons (by simp) (by simp) ih i
  | cleared files _ ih => exact paused_iff_cons (by simp) (by simp) ih i
  | resume _ ih => exact paused_iff_cons (by simp) (by simp) ih i
  | pause text _ ih =>
    -- The message, the pause, and what comes after them.
    match i with
    | 0 => simp
    | 1 => simp
    | i + 2 =>
      rw [List.getElem?_cons_succ, List.getElem?_cons_succ, ih]
      constructor
      · rintro ⟨j, text, rfl, he⟩
        exact ⟨j + 2, text, rfl, he⟩
      · rintro ⟨j, text, hj, he⟩
        match j with
        | 1 => cases he
        | j + 2 => exact ⟨j, text, by omega, he⟩

theorem Tells.offers (h : Tells p events q) {text : String} {openSettings : Bool}
    (hm : .message text openSettings ∈ events) : openSettings = true := by
  induction h with
  | nil _ => cases hm
  | published _ _ _ ih | cleared _ _ ih | resume _ ih =>
    obtain _ | ⟨_, hm⟩ := hm
    exact ih hm
  | pause _ _ ih =>
    obtain _ | ⟨_, _ | ⟨_, hm⟩⟩ := hm
    · rfl
    · exact ih hm

/-- **The announcements since the beginning tell all of pauses.** -/
theorem Tells.tellsPauses (h : Tells false events q) : TellsPauses events q := by
  refine ⟨?_, h.isChain_turns, h.paused_iff, fun _ _ => h.offers⟩
  have hl := h.getLast_turns
  cases ht : turns events with
  | nil =>
    simp only [ht, List.getLast_singleton] at hl
    simp [← hl]
  | cons first rest =>
    simp only [ht, List.getLast_cons_cons] at hl
    rw [List.getLast?_cons, ← hl, List.getLast_eq_getLastD]
    simp

/-! ## Beginnings and ends -/

theorem pausesValidation_iff {e : LintError} :
    e.pausesValidation = true ↔
      (∃ program, e = .toolNotFound program) ∨ ∃ program cause, e = .spawn program cause := by
  cases e <;> simp [LintError.pausesValidation]

/-- **When a pause is announced**: at the end of a check of an open document, for an error that
will not go away by itself, and not twice. -/
theorem paused_mem_run_iff {v : Validator} {s : Section} :
    .paused ∈ (s.run directory v).2 ↔
      ∃ document e, s = .conclude document (.error e) ∧ e.pausesValidation = true ∧
        v.documents.contains document.path = true ∧ v.isPaused = false := by
  constructor
  · intro hm
    cases s with
    | accept document => cases hm
    | close path =>
      simp only [Section.run, close] at hm
      split at hm <;> simp at hm
    | reload settings executableChanged =>
      simp only [Section.run, reload] at hm
      split at hm <;> split at hm <;> simp at hm
    | conclude document answer =>
      simp only [Section.run, conclude] at hm
      split at hm
      · rename_i ho
        cases answer with
        | ok result => simp [Feature.reportOf, Except.map, publish] at hm
        | error e =>
          simp only [Feature.reportOf, Except.map, pause] at hm
          split at hm
          · rename_i he
            split at hm
            · cases hm
            · rename_i hp
              exact ⟨document, e, rfl, he, ho, Bool.eq_false_iff.2 hp⟩
          · cases hm
      · cases hm
  · rintro ⟨document, e, rfl, he, ho, hp⟩
    simp [Section.run, conclude, Feature.reportOf, Except.map, ho, he, pause, hp]

/-- **When the end of a pause is announced**: when checking is paused and another program comes
into use. -/
theorem resumed_mem_run_iff {v : Validator} {s : Section} :
    .resumed ∈ (s.run directory v).2 ↔
      ∃ settings, s = .reload settings true ∧ v.isPaused = true := by
  constructor
  · intro hm
    cases s with
    | accept document => cases hm
    | close path =>
      simp only [Section.run, close] at hm
      split at hm <;> simp at hm
    | reload settings executableChanged =>
      simp only [Section.run, reload] at hm
      split at hm
      · rename_i hr
        obtain ⟨hp, rfl⟩ := Bool.and_eq_true_iff.1 hr
        exact ⟨settings, rfl, hp⟩
      · split at hm <;> simp at hm
    | conclude document answer =>
      simp only [Section.run, conclude] at hm
      split at hm
      · split at hm
        · simp [publish] at hm
        · simp only [pause] at hm
          split at hm
          · split at hm <;> simp at hm
          · cases hm
      · cases hm
  · rintro ⟨settings, rfl, hp⟩
    simp [Section.run, reload, hp]

end EviAssist.Validator
