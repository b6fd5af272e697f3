import EviAssist.Proofs.Background.Pending

/-!
# The text that is checked

The text of an open document is kept with the open documents, and once more with its check that
waits. A new text replaces both, unless checking is stopped when it comes; then the check that
waits keeps the old one. Operations come one after another here.

* `Background.latestText?`, `Background.textWhenOn?`: the newest text of a path in a history, and
  the one that was the newest when checking was last on.
* `Background.KeepsLatest`, `Background.keepsLatest_after`: which texts are kept.
* `Background.starts_with_latest_text_unless_stopped`: with which text a check starts.
-/

namespace EviAssist.Background

variable {b : Background} {p : Path} {operation : Operation} {earlier history : List Operation}

/-! ## Texts of a history -/

/-- The text that a path gets in an operation, if it gets one. -/
def Operation.text? (p : Path) : Operation → Option Document
  | .edit document => if document.isEvi && document.path.same p then some document else none
  | _ => none

/-- The newest text of a path. -/
def latestText? (p : Path) (history : List Operation) : Option Document :=
  history.findSome? (·.text? p)

/-- The text of a path that was the newest one when checking was last on. -/
def textWhenOn? (b : Background) (p : Path) : List Operation → Option Document
  | [] => none
  | operation :: earlier =>
    if (b.after (operation :: earlier)).validator.schedules then
      latestText? p (operation :: earlier)
    else b.textWhenOn? p earlier

theorem Operation.text?_eq_some_iff {document : Document} :
    operation.text? p = some document ↔
      operation = .edit document ∧ document.isEvi = true ∧ document.path.same p = true := by
  constructor
  · intro ht
    cases operation with
    | edit other =>
      simp only [Operation.text?] at ht
      split at ht
      · rename_i hs
        cases ht
        exact ⟨rfl, Bool.and_eq_true_iff.1 hs⟩
      · cases ht
    | _ => cases ht
  · rintro ⟨rfl, he, hs⟩
    exact if_pos (Bool.and_eq_true_iff.2 ⟨he, hs⟩)

theorem latestText?_of_text?_eq_none (h : operation.text? p = none) :
    latestText? p (operation :: earlier) = latestText? p earlier := by
  rw [latestText?, List.findSome?_cons, h]
  rfl

theorem latestText?_edit (document : Document) :
    latestText? p (.edit document :: earlier) =
      if document.isEvi && document.path.same p then some document else latestText? p earlier := by
  split
  · rename_i ht
    rw [latestText?, List.findSome?_cons, Operation.text?, if_pos ht]
  · rename_i ht
    exact latestText?_of_text?_eq_none (if_neg ht)

theorem textWhenOn?_of_schedules (h : (b.after history).validator.schedules = true) :
    b.textWhenOn? p history = latestText? p history := by
  cases history with
  | nil => rfl
  | cons operation earlier => rw [textWhenOn?, if_pos h]

theorem textWhenOn?_cons
    (h : (b.after (operation :: earlier)).validator.schedules = true →
      (b.after earlier).validator.schedules = true ∧ operation.text? p = none) :
    b.textWhenOn? p (operation :: earlier) = b.textWhenOn? p earlier := by
  rw [textWhenOn?]
  split
  · rename_i hon
    obtain ⟨hs, ht⟩ := h hon
    rw [latestText?_of_text?_eq_none ht, textWhenOn?_of_schedules hs]
  · rfl

/-! ## The texts that are kept -/

/-- Whether every open document has its newest text, and every pending check that of an open
document which was the newest when checking was last on. -/
structure KeepsLatest (b : Background) (history : List Operation) : Prop where
  latest : ∀ {p document}, (b.after history).validator.documents.find? p = some document →
    latestText? p history = some document
  isOpen : ∀ {job}, (b.after history).IsPending job →
    (b.after history).validator.documents.contains job.document.path = true
  whenOn : ∀ {job}, (b.after history).IsPending job →
    b.textWhenOn? job.document.path history = some job.document

/-- While checking is on, a pending check has the text of the open document. -/
theorem KeepsLatest.find?_of_isPending {job : Job} (h : b.KeepsLatest history)
    (hp : (b.after history).IsPending job)
    (hon : (b.after history).validator.schedules = true) :
    (b.after history).validator.documents.find? job.document.path = some job.document := by
  have ho := h.isOpen hp
  rw [PathMap.contains_eq_isSome_find?, Option.isSome_iff_exists] at ho
  obtain ⟨newest, hf⟩ := ho
  have hw := h.whenOn hp
  rw [textWhenOn?_of_schedules hon, h.latest hf] at hw
  rw [hf, hw]

theorem KeepsLatest.of_bringsNothing (h : b.KeepsLatest earlier)
    (ho : (b.after earlier).BringsNothing operation) (ht : ∀ p, operation.text? p = none) :
    b.KeepsLatest (operation :: earlier) := by
  refine ⟨fun {p document} hf => ?_, fun hp => ?_, fun hp => ?_⟩
  · rw [after, ho.documents] at hf
    rw [latestText?_of_text?_eq_none (ht p)]
    exact h.latest hf
  · rw [after, ho.documents]
    exact h.isOpen (ho.isPending hp)
  · rw [textWhenOn?_cons fun hon => ⟨ho.schedules hon, ht _⟩]
    exact h.whenOn (ho.isPending hp)

theorem KeepsLatest.edit (h : b.KeepsLatest earlier) (hf : (b.after earlier).IsFresh)
    (document : Document) : b.KeepsLatest (.edit document :: earlier) := by
  have hv : (b.after (.edit document :: earlier)).validator =
      ((b.after earlier).validator.accept document).1 :=
    validator_editSteps _ _
  have hs : (b.after (.edit document :: earlier)).validator.schedules =
      (b.after earlier).validator.schedules := by
    rw [hv, Validator.schedules_accept]
  refine ⟨fun {p found} hd => ?_, fun {job} hp => ?_, fun {job} hp => ?_⟩
  · rw [hv, Validator.find?_accept] at hd
    rw [latestText?_edit]
    split
    · rename_i ht
      rwa [if_pos ht] at hd
    · rename_i ht
      rw [if_neg ht] at hd
      exact h.latest hd
  · rw [hv, PathMap.contains_eq_isSome_find?, Validator.find?_accept]
    obtain ⟨ha, rfl⟩ | ⟨hp, -⟩ := isPending_editSteps hf hp
    · rw [Validator.accept_snd, Bool.and_eq_true] at ha
      rw [ha.1, Path.same_self]
      rfl
    · split
      · rfl
      · rw [← PathMap.contains_eq_isSome_find?]
        exact h.isOpen hp
  · obtain ⟨ha, rfl⟩ | ⟨hp, hn⟩ := isPending_editSteps hf hp
    · rw [Validator.accept_snd, Bool.and_eq_true] at ha
      rw [textWhenOn?_of_schedules (hs.trans ha.2), latestText?_edit, ha.1, Path.same_self]
      rfl
    · -- The check that waited is still there, so while checking is on the new text is not its own.
      rw [textWhenOn?_cons, h.whenOn hp]
      intro hon
      rw [hs] at hon
      refine ⟨hon, if_neg ?_⟩
      rw [Bool.and_eq_true]
      rintro ⟨he, hsame⟩
      refine hn ?_ hsame
      rw [Validator.accept_snd, he, hon]
      rfl

theorem KeepsLatest.close (h : b.KeepsLatest earlier) (path : Path) :
    b.KeepsLatest (.close path :: earlier) := by
  have hv : (b.after (.close path :: earlier)).validator =
      ((b.after earlier).validator.close path).1 := by
    rw [after, ((b.after earlier).perform_close path).1]
  refine ⟨fun {p document} hf => ?_, fun {job} hp => ?_, fun {job} hp => ?_⟩
  · rw [hv, Validator.find?_close] at hf
    split at hf
    · cases hf
    · rw [latestText?_of_text?_eq_none rfl]
      exact h.latest hf
  · obtain ⟨hp, hs⟩ := isPending_close hp
    rw [hv, PathMap.contains_eq_isSome_find?, Validator.find?_close, if_neg hs,
      ← PathMap.contains_eq_isSome_find?]
    exact h.isOpen hp
  · rw [textWhenOn?_cons, h.whenOn (isPending_close hp).1]
    intro hon
    rw [hv, Validator.schedules_close] at hon
    exact ⟨hon, rfl⟩

theorem KeepsLatest.reload (h : b.KeepsLatest earlier) (hr : (b.after earlier).IsReachable)
    (validation : ValidationSettings) (tools : ToolSettings) :
    b.KeepsLatest (.reload validation tools :: earlier) := by
  have hfind := find?_reload hr.keepsTexts validation tools
  refine ⟨fun {p document} hf => ?_, fun {job} hp => ?_, fun {job} hp => ?_⟩
  · rw [after, hfind] at hf
    rw [latestText?_of_text?_eq_none rfl]
    exact h.latest hf
  · rw [after, PathMap.contains_eq_isSome_find?, hfind]
    obtain ⟨-, hf⟩ | ⟨hp, -⟩ := isPending_reload hr.isFresh hr.keepsTexts validation tools hp
    · rw [hf]
      rfl
    · rw [← PathMap.contains_eq_isSome_find?]
      exact h.isOpen hp
  · obtain ⟨hon, hf⟩ | ⟨hp, hn⟩ := isPending_reload hr.isFresh hr.keepsTexts validation tools hp
    · have hon : (b.after (.reload validation tools :: earlier)).validator.schedules = true := hon
      rw [textWhenOn?_of_schedules hon, latestText?_of_text?_eq_none rfl]
      exact h.latest hf
    · -- While checking is on every open path has its check anew, and no older one is left.
      rw [textWhenOn?_cons, h.whenOn hp]
      intro hon
      have hclosed := hn hon
      rw [h.isOpen hp] at hclosed
      cases hclosed

/-- **Which texts are kept** in a history of operations. -/
theorem keepsLatest_after (directory : Option Path) (tools : ToolSettings)
    (settings : ValidationSettings) (history : List Operation) :
    (start directory tools settings).KeepsLatest history := by
  induction history with
  | nil =>
    have hn : ∀ {job}, ¬((start directory tools settings).after []).IsPending job :=
      fun hp => Multiset.notMem_zero _ hp.1
    exact ⟨nofun, fun hp => absurd hp hn, fun hp => absurd hp hn⟩
  | cons operation earlier ih =>
    have hr := isReachable_after directory tools settings earlier
    cases operation with
    | edit document => exact ih.edit hr.isFresh document
    | close path => exact ih.close path
    | reload validation tools => exact ih.reload hr validation tools
    | reconfigure tools =>
      exact ih.of_bringsNothing (bringsNothing_reconfigure _ tools) fun _ => rfl
    | fire job =>
      exact ih.of_bringsNothing (bringsNothing_fire _ job) fun _ => rfl
    | conclude check answer =>
      exact ih.of_bringsNothing (bringsNothing_conclude _ check answer) fun _ => rfl

/-! ## An old text -/

/-- The text that was the newest when checking was last on is still the newest, unless a newer one
came after checking was stopped. -/
theorem eq_or_exists_edit {checked newest : Document}
    (hw : b.textWhenOn? p history = some checked) (hn : latestText? p history = some newest) :
    checked = newest ∨ ∃ later earlier, history = later ++ .edit newest :: earlier ∧
      ∀ recent, recent <:+ later → IsStopped (b.after (recent ++ .edit newest :: earlier)) := by
  induction history with
  | nil => cases hw
  | cons operation earlier ih =>
    by_cases hon : (b.after (operation :: earlier)).validator.schedules = true
    · rw [textWhenOn?_of_schedules hon, hn] at hw
      exact .inl (Option.some.inj hw).symm
    · have hoff : IsStopped (b.after (operation :: earlier)) := Bool.eq_false_iff.2 hon
      rw [textWhenOn?, if_neg hon] at hw
      cases ht : operation.text? p with
      | none =>
        rw [latestText?_of_text?_eq_none ht] at hn
        obtain heq | ⟨later, before, rfl, hs⟩ := ih hw hn
        · exact .inl heq
        · refine .inr ⟨operation :: later, before, rfl, ?_⟩
          intro recent hrecent
          obtain rfl | hrecent := List.suffix_cons_iff.1 hrecent
          · exact hoff
          · exact hs recent hrecent
      | some document =>
        rw [latestText?, List.findSome?_cons, ht] at hn
        cases hn
        obtain ⟨rfl, -⟩ := Operation.text?_eq_some_iff.1 ht
        refine .inr ⟨[], earlier, rfl, ?_⟩
        intro recent hrecent
        rw [List.suffix_nil.1 hrecent]
        exact hoff

/-- **With which text a check starts.** In any history of whole operations, the path of a check that
starts is open with its newest text, and evi is handed the text that was the newest when checking
was last on. While checking is on this is the newest text, too. Else it is, unless the newest text
came when checking was stopped, and checking has been stopped since. -/
theorem starts_with_latest_text_unless_stopped (directory : Option Path) (tools : ToolSettings)
    (settings : ValidationSettings) (history : List Operation) (job : Job)
    (hs : Starts ((start directory tools settings).after history) (.wake job)) :
    let first := start directory tools settings
    let b := first.after history
    (b.perform (.fire job)).running = ⟨job, b.tools.executable⟩ ::ₘ b.running ∧
      first.textWhenOn? job.document.path history = some job.document ∧
      ∃ newest, latestText? job.document.path history = some newest ∧
        b.validator.documents.find? job.document.path = some newest ∧
        (b.validator.schedules = true → job.document = newest) ∧
        (job.document = newest ∨ ∃ later earlier, history = later ++ .edit newest :: earlier ∧
          ∀ recent, recent <:+ later →
            IsStopped (first.after (recent ++ .edit newest :: earlier))) := by
  intro first b
  have hk : first.KeepsLatest history := keepsLatest_after directory tools settings history
  have hp : b.IsPending job := starts_wake_iff.1 hs
  have hw : first.textWhenOn? job.document.path history = some job.document := hk.whenOn hp
  have ho := hk.isOpen hp
  rw [PathMap.contains_eq_isSome_find?, Option.isSome_iff_exists] at ho
  obtain ⟨newest, hf⟩ := ho
  have hn : latestText? job.document.path history = some newest := hk.latest hf
  refine ⟨hp.running_perform_fire, hw, newest, hn, hf, fun hon => ?_, eq_or_exists_edit hw hn⟩
  exact Option.some.inj ((hk.find?_of_isPending hp hon).symm.trans hf)

/-- A text that comes while checking is disabled does not replace the one that waits for its
check. -/
theorem starts_with_old_text :
    let old : Document := ⟨⟨"/a.evi"⟩, "old text", "evi"⟩
    let new : Document := ⟨⟨"/a.evi"⟩, "new text", "evi"⟩
    let tools : ToolSettings := { executable := some ⟨"/bin/evi"⟩ }
    let history : List Operation := [.edit new, .reload { enabled := false } tools, .edit old]
    let b := (start (some ⟨"/"⟩) tools {}).after history
    Starts b (.wake ⟨1, old⟩) ∧
      (b.perform (.fire ⟨1, old⟩)).running = ⟨⟨1, old⟩, b.tools.executable⟩ ::ₘ b.running ∧
      b.validator.documents.find? old.path = some new ∧
      latestText? old.path history = some new ∧ old.text ≠ new.text := by
  intro old new tools history b
  have hs : Starts b (.wake ⟨1, old⟩) := starts_wake_iff.2 ⟨by decide, by decide⟩
  have hl : latestText? old.path history = some new := by decide
  have hb : (start (some ⟨"/"⟩) tools {}).after history = b := rfl
  obtain ⟨hr, -, newest, hn, hf, -⟩ :=
    starts_with_latest_text_unless_stopped (some ⟨"/"⟩) tools {} history ⟨1, old⟩ hs
  rw [hb] at hr hf
  -- From here on the operations need not be performed any more.
  clear_value b
  obtain rfl : new = newest := Option.some.inj (hl.symm.trans hn)
  exact ⟨hs, hr, hf, hl, by decide⟩

end EviAssist.Background
