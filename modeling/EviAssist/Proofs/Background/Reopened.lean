import EviAssist.Proofs.Background

/-!
# Closed and opened again

A check that is still on its way when its document closes has lost its reader. What is looked at
when it ends is only whether the document is open then, so its answer is dropped unless the
document was opened again meanwhile; in that case the answer to the old text counts for the new
one.

* `Background.Reopens`: whether a path is opened in some steps and not closed after that.
* `Background.contains_run_iff`: the open documents after some steps.
* `Background.conclude_silent_iff_not_reopens`: when an old check has no effect.
-/

namespace EviAssist.Background

/-! ## Open documents -/

/-- Whether a step opens or closes a path, if it does either. -/
def Step.opens? (p : Path) : Step → Option Bool
  | .accept document => (Validator.Section.accept document).opens? p
  | .close path => (Validator.Section.close path).opens? p
  | _ => none

/-- Whether a path is never closed in some steps. -/
def NeverCloses (p : Path) (steps : List Step) : Prop :=
  ∀ q, .close q ∈ steps → q.same p = false

/-- Whether a path is opened in some steps and not closed after that. -/
def Reopens (p : Path) (steps : List Step) : Prop :=
  ∃ before document later, steps = before ++ .accept document :: later ∧
    document.isEvi = true ∧ document.path.same p = true ∧ NeverCloses p later

variable {p : Path} {s : Step} {steps : List Step}

theorem neverCloses_cons :
    NeverCloses p (s :: steps) ↔ s.opens? p ≠ some false ∧ NeverCloses p steps := by
  constructor
  · intro h
    refine ⟨?_, fun q hq => h q (.tail _ hq)⟩
    intro hs
    cases s with
    | close path =>
      have hp := h path (.head _)
      simp [Step.opens?, Validator.Section.opens?, hp] at hs
    | accept document =>
      simp only [Step.opens?, Validator.Section.opens?] at hs
      split at hs <;> cases hs
    | _ => cases hs
  · rintro ⟨hs, hn⟩ q hq
    cases hq with
    | head =>
      rw [← Bool.not_eq_true]
      intro hp
      exact hs (by simp [Step.opens?, Validator.Section.opens?, hp])
    | tail _ hq => exact hn q hq

theorem reopens_cons :
    Reopens p (s :: steps) ↔
      Reopens p steps ∨ s.opens? p = some true ∧ NeverCloses p steps := by
  constructor
  · rintro ⟨before, document, later, hs, he, hp, hn⟩
    cases before with
    | nil =>
      cases hs
      exact .inr ⟨by simp [Step.opens?, Validator.Section.opens?, he, hp], hn⟩
    | cons first before =>
      cases hs
      exact .inl ⟨before, document, later, rfl, he, hp, hn⟩
  · rintro (⟨before, document, later, rfl, h⟩ | ⟨hs, hn⟩)
    · exact ⟨s :: before, document, later, rfl, h⟩
    · cases s with
      | accept document =>
        simp only [Step.opens?, Validator.Section.opens?] at hs
        split at hs
        · rename_i h
          rw [Bool.and_eq_true] at h
          exact ⟨[], document, steps, rfl, h.1, h.2, hn⟩
        · cases hs
      | close path =>
        simp only [Step.opens?, Validator.Section.opens?] at hs
        split at hs <;> cases hs
      | _ => cases hs

theorem opens?_section? (b : Background) (s : Step) (p : Path) :
    (b.section? s).bind (·.opens? p) = s.opens? p := by
  cases s with
  | reload _ => simp only [section?]; split <;> rfl
  | conclude _ _ => simp only [section?]; split <;> rfl
  | _ => rfl

theorem contains_step (b : Background) (s : Step) (p : Path) :
    (b.step s).1.validator.documents.contains p =
      (s.opens? p).getD (b.validator.documents.contains p) := by
  rw [← opens?_section? b]
  cases h : b.section? s with
  | none =>
    rw [step_of_section?_eq_none h, (b.move_eq s).2]
    rfl
  | some sec =>
    rw [step_of_section?_eq_some h]
    exact sec.contains_run _ _ _

/-- **The open documents after some steps**: those that are opened in them and those that were open
before, unless they are closed after that. -/
theorem contains_run_iff (b : Background) :
    (b.run steps).validator.documents.contains p = true ↔
      Reopens p steps ∨
        b.validator.documents.contains p = true ∧ NeverCloses p steps := by
  induction steps generalizing b with
  | nil =>
    constructor
    · intro h
      exact .inr ⟨h, fun _ hq => nomatch hq⟩
    · rintro (⟨before, _, _, h, -⟩ | h)
      · cases before <;> cases h
      · exact h.1
  | cons s steps ih =>
    rw [run, ih, contains_step, reopens_cons, neverCloses_cons]
    cases s.opens? p with
    | none => simp
    | some o =>
      cases o with
      | false => simp
      | true =>
        simp only [Option.getD_some, true_and, ne_eq, Option.some.injEq, Bool.true_eq_false,
          not_false_eq_true]
        exact ⟨.inl, fun h => h.elim id fun h => .inr h.2⟩

/-! ## An old check -/

/-- Whether a step leaves the validator alone and announces nothing. -/
def IsSilent (b : Background) (s : Step) : Prop :=
  (b.step s).1.validator = b.validator ∧ (b.step s).2 = []

variable {b : Background} {check : Check}

theorem step_conclude (hc : check ∈ b.running) (answer : Except LintError LintResult) :
    (b.step (.conclude check answer)).1.validator =
        (b.validator.conclude check.job.document.path
          (Feature.reportOf b.directory check.job.document answer)).1 ∧
      (b.step (.conclude check answer)).2 =
        (b.validator.conclude check.job.document.path
          (Feature.reportOf b.directory check.job.document answer)).2 := by
  have hs : b.section? (.conclude check answer) =
      some (.conclude check.job.document answer) := if_pos hc
  rw [step_of_section?_eq_some hs]
  exact ⟨rfl, rfl⟩

theorem publishes_conclude_iff (hc : check ∈ b.running) (result : LintResult) :
    Publishes b (.conclude check (.ok result)) ↔
      b.validator.documents.contains check.job.document.path = true := by
  rw [Publishes, (step_conclude hc _).2]
  simp only [Validator.conclude]
  split
  · rename_i h
    exact iff_of_true ⟨_, _, .head _⟩ h
  · rename_i h
    refine iff_of_false ?_ h
    rintro ⟨_, _, hm⟩
    cases hm

theorem isPaused_conclude_iff (hc : check ∈ b.running) {e : LintError}
    (he : e.pausesValidation = true) :
    (b.step (.conclude check (.error e))).1.validator.isPaused = true ↔
      b.validator.isPaused = true ∨
        b.validator.documents.contains check.job.document.path = true := by
  rw [(step_conclude hc _).1]
  simp only [Validator.conclude]
  split
  · rename_i h
    refine iff_of_true ?_ (.inr h)
    simp only [Feature.reportOf, Except.map, he, if_true, Validator.pause]
    split
    · assumption
    · rfl
  · rename_i h
    exact ⟨.inl, fun hp => hp.resolve_right h⟩

theorem isSilent_conclude_iff (hc : check ∈ b.running) :
    (∀ answer, IsSilent b (.conclude check answer)) ↔
      ¬b.validator.documents.contains check.job.document.path = true := by
  constructor
  · intro hs ho
    obtain ⟨_, _, hm⟩ := (publishes_conclude_iff hc (.diagnostics [])).2 ho
    rw [(hs _).2] at hm
    cases hm
  · intro ho answer
    rw [IsSilent, (step_conclude hc _).1, (step_conclude hc _).2]
    simp only [Validator.conclude, if_neg ho, and_self]

/-- **When an old check is without effect.** A check of a path that is closed is without effect,
whatever its answer is, unless the path is opened again before the check ends and stays open. Then
a result of the old check is published, and an error that will not go away by itself pauses
checking. -/
theorem conclude_silent_iff_not_reopens (b : Background) (p : Path) (steps : List Step)
    (check : Check) (hp : check.job.document.path.same p = true)
    (hc : check ∈ ((b.step (.close p)).1.run steps).running) :
    ((∀ answer, IsSilent ((b.step (.close p)).1.run steps) (.conclude check answer)) ↔
        ¬Reopens p steps) ∧
      (∀ result, Publishes ((b.step (.close p)).1.run steps) (.conclude check (.ok result)) ↔
        Reopens p steps) ∧
      ∀ e : LintError, e.pausesValidation = true →
        ((((b.step (.close p)).1.run steps).step
            (.conclude check (.error e))).1.validator.isPaused = true ↔
          ((b.step (.close p)).1.run steps).validator.isPaused = true ∨ Reopens p steps) := by
  have ho : ((b.step (.close p)).1.run steps).validator.documents.contains
      check.job.document.path = true ↔ Reopens p steps := by
    rw [PathMap.contains_congr _ hp, contains_run_iff, contains_step]
    simp [Step.opens?, Validator.Section.opens?, Path.same_self]
  rw [← ho]
  refine ⟨isSilent_conclude_iff hc, publishes_conclude_iff hc, ?_⟩
  intro e he
  exact isPaused_conclude_iff hc he

/-- The answer to an old text counts for the new one when a document is closed and opened again
while the old text is checked. -/
theorem not_silent_of_reopened :
    let old : Job := ⟨1, ⟨⟨"/a.evi"⟩, "old text", "evi"⟩⟩
    let b := (start (some ⟨"/"⟩) { executable := some ⟨"/bin/evi"⟩ } {}).run
      [.accept old.document, .draw old.document, .install old true, .wake old, .ask old]
    let new : Step := .accept ⟨⟨"/a.evi"⟩, "new text", "evi"⟩
    ⟨old, some ⟨"/bin/evi"⟩⟩ ∈ b.running ∧
      ¬∀ answer, IsSilent ((b.step (.close ⟨"/a.evi"⟩)).1.run [new])
        (.conclude ⟨old, some ⟨"/bin/evi"⟩⟩ answer) := by
  refine ⟨by decide, ?_⟩
  rw [(conclude_silent_iff_not_reopens _ _ _ _ (by decide) (by decide)).1, not_not]
  exact ⟨[], _, [], rfl, by decide, by decide, fun _ h => nomatch h⟩

end EviAssist.Background
