import EviAssist.Proofs.Background.LatestText

/-!
# Checks after a change of settings

When operations come one after another, a check that is replaced or cancelled is stopped in time.
So the checks that wait are those that the debouncer knows of, one for a path, and after a change
of settings they are new ones of all open documents.

* `Background.IsTidy`, `Background.isTidy_after`: whether the checks that wait are those that the
  debouncer knows of; they always are.
* `Background.waiting_editAllSteps`: the checks that wait after several new texts.
* `Background.waiting_reload`: those that wait after a change of settings.
* `Background.reload_renews_checks`: all that a change of settings leaves.
-/

namespace EviAssist.Background

variable {b : Background} {document : Document} {job other : Job}

/-! ## What the debouncer knows of -/

/-- Whether the checks that wait are those that the debouncer knows of, one for a path. -/
structure IsTidy (b : Background) : Prop where
  nodup : (b.waiting.map (·.generation)).Nodup
  pending : ∀ {job}, job ∈ b.waiting →
    b.debouncer.pending? job.document.path = some job.generation
  isDue : ∀ {job}, job ∈ b.waiting → b.isDue job = true
  waits : ∀ {p n}, b.debouncer.pending? p = some n →
    ∃ job ∈ b.waiting, job.generation = n ∧ job.document.path.same p = true

theorem IsTidy.eq_of_same (h : b.IsTidy) (hj : job ∈ b.waiting) (ho : other ∈ b.waiting)
    (hs : job.document.path.same other.document.path = true) : job = other := by
  have hp : some job.generation = some other.generation := by
    rw [← h.pending hj, ← h.pending ho, Debouncer.pending?_congr _ hs]
  exact Multiset.inj_on_of_nodup_map h.nodup _ hj _ ho (Option.some.inj hp)

/-- The checks of other paths than `p`. -/
def waitingBeside (b : Background) (p : Path) : Multiset Job :=
  b.waiting.filter fun job => ¬p.same job.document.path = true

theorem mem_waitingBeside {p : Path} :
    job ∈ b.waitingBeside p ↔ job ∈ b.waiting ∧ ¬p.same job.document.path = true :=
  Multiset.mem_filter

theorem IsTidy.stop_eq (h : b.IsTidy) (p : Path) :
    stop true b.waiting (b.debouncer.pending? p) = b.waitingBeside p := by
  refine Multiset.filter_congr fun job hj => not_congr ⟨fun hg => ?_, fun hs => ?_⟩
  · obtain ⟨found, hf, hn, hs⟩ := h.waits hg.symm
    rw [← Multiset.inj_on_of_nodup_map h.nodup _ hf _ hj hn]
    exact Path.same_symm hs
  · rw [Debouncer.pending?_congr _ hs, h.pending hj]

theorem IsTidy.nodup_waitingBeside (h : b.IsTidy) (p : Path) :
    ((b.waitingBeside p).map (·.generation)).Nodup :=
  Multiset.nodup_of_le (Multiset.map_le_map (Multiset.filter_le _ _)) h.nodup

theorem IsTidy.install (h : b.IsTidy) (hf : b.IsFresh) (document : Document)
    {b' : Background}
    (hd : b'.debouncer =
      (b.debouncer.draw.2.install document.path b.debouncer.draw.1).1)
    (hw : b'.waiting = ⟨b.debouncer.draw.1, document⟩ ::ₘ b.waitingBeside document.path) :
    b'.IsTidy := by
  refine ⟨?_, fun {job} hj => ?_, fun {job} hj => ?_, fun {p n} hp => ?_⟩
  · rw [hw, Multiset.map_cons, Multiset.nodup_cons]
    refine ⟨fun hm => ?_, h.nodup_waitingBeside _⟩
    obtain ⟨job, hj, hg⟩ := Multiset.mem_map.1 hm
    have hle := hf job (Multiset.mem_add.2 (.inr (mem_waitingBeside.1 hj).1))
    -- What waited was drawn before.
    have heq : job.generation = b.debouncer.drawn + 1 := hg
    omega
  · rw [hd, Debouncer.pending?_install]
    rw [hw] at hj
    obtain rfl | hj := Multiset.mem_cons.1 hj
    · exact if_pos (Path.same_self _)
    · obtain ⟨hj, hs⟩ := mem_waitingBeside.1 hj
      rw [if_neg hs]
      exact h.pending hj
  · rw [isDue_iff, hd, Debouncer.generation?_install]
    rw [hw] at hj
    obtain rfl | hj := Multiset.mem_cons.1 hj
    · exact if_pos (Path.same_self _)
    · obtain ⟨hj, hs⟩ := mem_waitingBeside.1 hj
      rw [if_neg hs]
      exact (isDue_iff b job).1 (h.isDue hj)
  · rw [hd, Debouncer.pending?_install] at hp
    rw [hw]
    split at hp
    · rename_i hs
      cases hp
      exact ⟨_, Multiset.mem_cons_self _ _, rfl, hs⟩
    · rename_i hs
      obtain ⟨job, hj, hn, hsame⟩ := h.waits hp
      refine ⟨job, Multiset.mem_cons_of_mem (mem_waitingBeside.2 ⟨hj, fun hc => ?_⟩), hn, hsame⟩
      exact hs (Path.same_trans hc hsame)

/-! ## Operations -/

/-- The background when new settings apply, before the open documents are checked again. -/
def withSettings (b : Background) (validation : ValidationSettings) (tools : ToolSettings) :
    Background :=
  { b with
    tools
    validator := (b.validator.reload validation !b.tools.sameExecutable tools).1 }

theorem perform_reload_eq (b : Background) (validation : ValidationSettings)
    (tools : ToolSettings) :
    b.perform (.reload validation tools) =
      (b.withSettings validation tools).run
        ((b.withSettings validation tools).editAllSteps b.validator.documents.values) :=
  (b.perform_reload validation tools).1

theorem IsTidy.of_eq (h : b.IsTidy) {b' : Background} (hd : b'.debouncer = b.debouncer)
    (hw : b'.waiting = b.waiting) : b'.IsTidy := by
  refine ⟨hw ▸ h.nodup, fun hj => ?_, fun hj => ?_, fun hp => ?_⟩
  · rw [hd]
    exact h.pending (hw ▸ hj)
  · rw [isDue_iff, hd]
    exact (isDue_iff b _).1 (h.isDue (hw ▸ hj))
  · rw [hd] at hp
    rw [hw]
    exact h.waits hp

theorem waiting_editSteps (h : b.IsTidy) (ha : (b.validator.accept document).2 = true) :
    (b.run (b.editSteps document)).waiting =
      ⟨b.debouncer.draw.1, document⟩ ::ₘ b.waitingBeside document.path := by
  rw [run_editSteps_of_accepted ha, Debouncer.install_snd]
  exact congrArg (Multiset.cons _) (h.stop_eq document.path)

theorem IsTidy.editSteps (h : b.IsTidy) (hf : b.IsFresh) (document : Document) :
    (b.run (b.editSteps document)).IsTidy := by
  by_cases ha : (b.validator.accept document).2 = true
  · refine h.install hf document ?_ (waiting_editSteps h ha)
    rw [run_editSteps_of_accepted ha]
  · refine h.of_eq ?_ ?_ <;> rw [run_editSteps_of_not_accepted ha]

theorem IsTidy.editAllSteps (h : b.IsTidy) (hf : b.IsFresh) (documents : List Document) :
    (b.run (b.editAllSteps documents)).IsTidy := by
  induction documents generalizing b with
  | nil => exact h
  | cons document documents ih =>
    rw [Background.editAllSteps, run_append]
    exact ih (h.editSteps hf document) (hf.run _)

theorem IsTidy.close (h : b.IsTidy) (path : Path) : (b.perform (.close path)).IsTidy := by
  rw [(b.perform_close path).1, Debouncer.cancel_snd, h.stop_eq]
  refine ⟨h.nodup_waitingBeside path, fun {job} hj => ?_, fun {job} hj => ?_, fun {p n} hp => ?_⟩
  · obtain ⟨hj, hs⟩ := mem_waitingBeside.1 hj
    rw [Debouncer.pending?_cancel, if_neg hs]
    exact h.pending hj
  · obtain ⟨hj, hs⟩ := mem_waitingBeside.1 hj
    rw [isDue_iff, Debouncer.generation?_cancel, if_neg hs]
    exact (isDue_iff b job).1 (h.isDue hj)
  · rw [Debouncer.pending?_cancel] at hp
    split at hp
    · cases hp
    · rename_i hs
      obtain ⟨job, hj, hn, hsame⟩ := h.waits hp
      refine ⟨job, mem_waitingBeside.2 ⟨hj, fun hc => ?_⟩, hn, hsame⟩
      exact hs (Path.same_trans hc hsame)

theorem IsTidy.reload (h : b.IsTidy) (hf : b.IsFresh) (validation : ValidationSettings)
    (tools : ToolSettings) : (b.perform (.reload validation tools)).IsTidy := by
  have ht : (b.withSettings validation tools).IsTidy := h.of_eq rfl rfl
  have hf : (b.withSettings validation tools).IsFresh := hf
  rw [perform_reload_eq]
  exact ht.editAllSteps hf _

theorem IsTidy.fire (h : b.IsTidy) (job : Job) : (b.perform (.fire job)).IsTidy := by
  by_cases hm : job ∈ b.waiting
  · obtain ⟨rest, hw⟩ := Multiset.exists_cons_of_mem hm
    obtain ⟨debouncer, hn⟩ := Option.isSome_iff_exists.1 (h.isDue hm)
    have hnodup : ((job ::ₘ rest).map (·.generation)).Nodup := hw ▸ h.nodup
    rw [Multiset.map_cons, Multiset.nodup_cons] at hnodup
    -- The others are of other paths, since the debouncer knows of one check for a path.
    have hrest : ∀ {later}, later ∈ rest → later ∈ b.waiting ∧
        ¬job.document.path.same later.document.path = true := by
      intro later hl
      have hlw : later ∈ b.waiting := hw ▸ Multiset.mem_cons_of_mem hl
      refine ⟨hlw, fun hs => hnodup.1 ?_⟩
      rw [h.eq_of_same hm hlw hs]
      exact Multiset.mem_map_of_mem _ hl
    rw [perform_fire_of_some hw hn]
    refine ⟨hnodup.2, fun {later} hl => ?_, fun {later} hl => ?_, fun {p n} hp => ?_⟩
    · obtain ⟨hl, hs⟩ := hrest hl
      rw [Debouncer.pending?_wake hn, if_neg hs]
      exact h.pending hl
    · rw [isDue_iff, Debouncer.generation?_wake hn]
      exact (isDue_iff b later).1 (h.isDue (hrest hl).1)
    · rw [Debouncer.pending?_wake hn] at hp
      split at hp
      · cases hp
      · rename_i hs
        obtain ⟨found, hf, hg, hsame⟩ := h.waits hp
        rw [hw] at hf
        obtain rfl | hf := Multiset.mem_cons.1 hf
        · exact absurd hsame hs
        · exact ⟨found, hf, hg, hsame⟩
  · rw [perform_fire_of_notMem hm]
    exact h

theorem IsTidy.conclude (h : b.IsTidy) (check : Check) (answer : Except LintError LintResult) :
    (b.perform (.conclude check answer)).IsTidy := by
  by_cases hm : check ∈ b.running
  · obtain ⟨rest, hr⟩ := Multiset.exists_cons_of_mem hm
    rw [(perform_conclude hr answer).1]
    refine ⟨h.nodup, fun {job} hj => ?_, fun {job} hj => ?_, fun {p n} hp => ?_⟩
    · rw [Debouncer.pending?_finish]
      exact h.pending hj
    · rw [isDue_iff, Debouncer.generation?_finish_of_pending? (h.pending hj)]
      exact (isDue_iff b job).1 (h.isDue hj)
    · rw [Debouncer.pending?_finish] at hp
      exact h.waits hp
  · rw [perform_conclude_of_notMem hm]
    exact h

/-- **The checks that wait are those that the debouncer knows of**, whatever is done, one operation
after another. -/
theorem isTidy_after (directory : Option Path) (tools : ToolSettings)
    (settings : ValidationSettings) (history : List Operation) :
    ((start directory tools settings).after history).IsTidy := by
  induction history with
  | nil =>
    exact ⟨Multiset.nodup_zero, fun hj => absurd hj (Multiset.notMem_zero _),
      fun hj => absurd hj (Multiset.notMem_zero _), nofun⟩
  | cons operation earlier ih =>
    have hf := (isReachable_after directory tools settings earlier).isFresh
    cases operation with
    | edit document => exact ih.editSteps hf document
    | close path => exact ih.close path
    | reconfigure tools => exact ih.of_eq rfl rfl
    | reload validation tools => exact ih.reload hf validation tools
    | fire job => exact ih.fire job
    | conclude check answer => exact ih.conclude check answer

/-! ## New texts of several documents -/

/-- **The checks that wait after several new texts**: one for each text, beside those of other
paths. -/
theorem waiting_editAllSteps (documents : List Document) (h : b.IsTidy) (hf : b.IsFresh)
    (hon : b.validator.schedules = true) (he : ∀ document ∈ documents, document.isEvi = true)
    (hd : documents.Pairwise fun document later => ¬document.path.same later.path = true) :
    (b.run (b.editAllSteps documents)).waiting.map (·.document) =
      ↑documents + (b.waiting.filter fun job =>
        ∀ document ∈ documents, ¬document.path.same job.document.path = true).map
          (·.document) := by
  induction documents generalizing b with
  | nil =>
    rw [editAllSteps, run,
      Multiset.filter_eq_self.2 fun _ _ _ hm => absurd hm List.not_mem_nil]
    exact (zero_add _).symm
  | cons document documents ih =>
    have ha : (b.validator.accept document).2 = true := by
      rw [Validator.accept_snd, he document (.head _), hon]
      rfl
    obtain ⟨hfirst, hd⟩ := List.pairwise_cons.1 hd
    have hnew : ∀ later ∈ documents, ¬later.path.same document.path = true :=
      fun later hl hs => hfirst later hl (Path.same_symm hs)
    have hs : (b.run (b.editSteps document)).validator.schedules = true := by
      rw [validator_editSteps, Validator.schedules_accept]
      exact hon
    rw [editAllSteps, run_append,
      ih (h.editSteps hf document) (hf.run _) hs (fun d hm => he d (.tail _ hm)) hd,
      waiting_editSteps h ha, Multiset.filter_cons_of_pos _ hnew, Multiset.map_cons, waitingBeside,
      Multiset.filter_filter, Multiset.add_cons, ← Multiset.cons_add, Multiset.cons_coe]
    congr 2
    refine Multiset.filter_congr fun job _ => ?_
    rw [List.forall_mem_cons, and_comm]

theorem findings_editAllSteps (b : Background) (documents : List Document) :
    (b.run (b.editAllSteps documents)).validator.collection = b.validator.collection ∧
      (b.run (b.editAllSteps documents)).validator.published = b.validator.published := by
  induction documents generalizing b with
  | nil => exact ⟨rfl, rfl⟩
  | cons document documents ih =>
    rw [editAllSteps, run_append, (ih _).1, (ih _).2, validator_editSteps, Validator.accept]
    split <;> exact ⟨rfl, rfl⟩

/-! ## Changes of settings -/

/-- When the checks that wait are those of the open documents, these are what the debouncer knows
of. -/
theorem IsTidy.pending?_eq_some_iff {v : Validator} (h : b.IsTidy) (hk : v.KeepsTexts)
    (hw : b.waiting.map (·.document) = ↑v.documents.values) (p : Path) (n : Nat) :
    b.debouncer.pending? p = some n ↔
      ∃ document, v.documents.find? p = some document ∧ ⟨n, document⟩ ∈ b.waiting := by
  constructor
  · intro hp
    obtain ⟨job, hj, rfl, hs⟩ := h.waits hp
    have hm := Multiset.mem_map_of_mem (fun job : Job => job.document) hj
    rw [hw] at hm
    have hf := (hk.of_mem_values (Multiset.mem_coe.1 hm)).2
    exact ⟨job.document, (PathMap.find?_congr _ hs).symm.trans hf, hj⟩
  · rintro ⟨document, hf, hj⟩
    have hp := h.pending hj
    rwa [Debouncer.pending?_congr _ (hk.own hf).2] at hp

theorem IsTidy.isSome_pending? {v : Validator} (h : b.IsTidy) (hk : v.KeepsTexts)
    (hw : b.waiting.map (·.document) = ↑v.documents.values) (p : Path) :
    (b.debouncer.pending? p).isSome = v.documents.contains p := by
  rw [Bool.eq_iff_iff, PathMap.contains_eq_isSome_find?, Option.isSome_iff_exists,
    Option.isSome_iff_exists]
  constructor
  · rintro ⟨n, hp⟩
    obtain ⟨document, hf, -⟩ := (h.pending?_eq_some_iff hk hw p n).1 hp
    exact ⟨document, hf⟩
  · rintro ⟨document, hf⟩
    have hm : document ∈ b.waiting.map (·.document) := by
      rw [hw]
      exact PathMap.mem_values_of_find? hf
    obtain ⟨⟨n, _⟩, hj, rfl⟩ := Multiset.mem_map.1 hm
    exact ⟨n, (h.pending?_eq_some_iff hk hw p n).2 ⟨_, hf, hj⟩⟩

theorem pairwise_values {v : Validator} (hk : v.KeepsTexts) :
    v.documents.values.Pairwise fun document later =>
      ¬document.path.same later.path = true := by
  refine List.pairwise_map.2 (hk.distinct.imp_of_mem fun {entry later} he hl hn hs => hn ?_)
  have hentry := (hk.own (PathMap.find?_eq_some_of_mem hk.distinct he)).2
  have hlater := (hk.own (PathMap.find?_eq_some_of_mem hk.distinct hl)).2
  exact Path.same_trans (Path.same_symm hentry) (Path.same_trans hs hlater)

theorem findings_reload (b : Background) (validation : ValidationSettings)
    (tools : ToolSettings) :
    (b.perform (.reload validation tools)).validator.collection = {} ∧
      (b.perform (.reload validation tools)).validator.published = {} := by
  rw [perform_reload_eq]
  exact findings_editAllSteps _ _

/-- **The checks that wait after a change of settings** are those of the open documents, when each
check that waited before was of one of them. -/
theorem waiting_reload (h : b.IsTidy) (hr : b.IsReachable)
    (ho : ∀ job ∈ b.waiting, b.validator.documents.contains job.document.path = true)
    {validation : ValidationSettings} {tools : ToolSettings}
    (hon : (b.perform (.reload validation tools)).validator.schedules = true) :
    (b.perform (.reload validation tools)).waiting.map (·.document) =
      ↑b.validator.documents.values := by
  have hk := hr.keepsTexts
  have ht : (b.withSettings validation tools).IsTidy := h.of_eq rfl rfl
  have hf : (b.withSettings validation tools).IsFresh := hr.isFresh
  rw [perform_reload_eq, schedules_editAllSteps] at hon
  rw [perform_reload_eq, waiting_editAllSteps _ ht hf hon
    (fun document hm => (hk.of_mem_values hm).1) (pairwise_values hk)]
  have hn : (b.withSettings validation tools).waiting.filter (fun job =>
      ∀ document ∈ b.validator.documents.values,
        ¬document.path.same job.document.path = true) = 0 := by
    refine Multiset.filter_eq_nil.2 fun job hj hall => ?_
    have hopen := ho job hj
    rw [PathMap.contains_eq_isSome_find?, Option.isSome_iff_exists] at hopen
    obtain ⟨document, hf⟩ := hopen
    exact hall document (PathMap.mem_values_of_find? hf) (hk.own hf).2
  rw [hn, Multiset.map_zero, add_zero]

/-- **All that a change of settings leaves.** When checking is on after a change of settings, in any
history of whole operations, nothing is known of earlier findings, the open documents are those
before, and the checks that wait are one for each of them, with its newest text; each of them
starts when its moment comes. -/
theorem reload_renews_checks (directory : Option Path) (tools : ToolSettings)
    (settings : ValidationSettings) (history : List Operation) (validation : ValidationSettings)
    (newTools : ToolSettings)
    (hon : ((start directory tools settings).after
      (.reload validation newTools :: history)).validator.schedules = true) :
    let b := (start directory tools settings).after history
    let reloaded := (start directory tools settings).after (.reload validation newTools :: history)
    reloaded.validator.collection.isEmpty = true ∧ reloaded.validator.published.isEmpty = true ∧
      (∀ p, reloaded.validator.documents.find? p = b.validator.documents.find? p) ∧
      reloaded.waiting.map (·.document) = ↑b.validator.documents.values ∧
      (∀ job ∈ reloaded.waiting, reloaded.IsPending job) ∧
      (∀ p n, reloaded.debouncer.pending? p = some n ↔
        ∃ document, b.validator.documents.find? p = some document ∧
          ⟨n, document⟩ ∈ reloaded.waiting) ∧
      (∀ p, (reloaded.debouncer.pending? p).isSome = b.validator.documents.contains p) ∧
      ∀ p document, b.validator.documents.find? p = some document →
        latestText? p history = some document := by
  intro b reloaded
  have hr : b.IsReachable := isReachable_after directory tools settings history
  have hk := hr.keepsTexts
  have ht : b.IsTidy := isTidy_after directory tools settings history
  have hnew : reloaded.IsTidy := isTidy_after directory tools settings _
  have hlatest : (start directory tools settings).KeepsLatest history :=
    keepsLatest_after directory tools settings history
  have hw : reloaded.waiting.map (·.document) = ↑b.validator.documents.values :=
    waiting_reload ht hr (fun job hj => hlatest.isOpen ⟨hj, ht.isDue hj⟩) hon
  have hp : reloaded = b.perform (.reload validation newTools) := rfl
  have hl : ∀ p document, b.validator.documents.find? p = some document →
      latestText? p history = some document := fun p document => hlatest.latest
  -- The rest needs no more of the operations before.
  clear_value b reloaded
  refine ⟨?_, ?_, ?_, hw, ?_, ?_, ?_, hl⟩
  · rw [hp, (b.findings_reload validation newTools).1]
    rfl
  · rw [hp, (b.findings_reload validation newTools).2]
    rfl
  · rw [hp]
    exact find?_reload hk validation newTools
  · intro job hj
    exact ⟨hj, hnew.isDue hj⟩
  · exact hnew.pending?_eq_some_iff hk hw
  · exact hnew.isSome_pending? hk hw

/-- A text that came while checking was disabled has its check when checking is enabled again, in
place of the older one that waited; what was closed meanwhile has none. -/
theorem renews_check_of_newest_text :
    let old : Document := ⟨⟨"/a.evi"⟩, "old text", "evi"⟩
    let new : Document := ⟨⟨"/a.evi"⟩, "new text", "evi"⟩
    let closed : Document := ⟨⟨"/b.evi"⟩, "text", "evi"⟩
    let tools : ToolSettings := { executable := some ⟨"/bin/evi"⟩ }
    let history : List Operation :=
      [.edit new, .close closed.path, .reload { enabled := false } tools, .edit closed, .edit old]
    let b := (start (some ⟨"/"⟩) tools {}).after history
    let reloaded := (start (some ⟨"/"⟩) tools {}).after (.reload {} tools :: history)
    reloaded.validator.schedules = true ∧ reloaded.waiting.map (·.document) = {new} ∧
      (reloaded.debouncer.pending? new.path).isSome = true ∧
      (reloaded.debouncer.pending? closed.path).isSome = false ∧
      b.waiting.map (·.document) = {old} ∧ latestText? new.path history = some new := by
  intro old new closed tools history b reloaded
  have hon : reloaded.validator.schedules = true := by decide
  have hv : b.validator.documents.values = [new] := by decide
  have hn : b.validator.documents.contains new.path = true := by decide
  have hc : b.validator.documents.contains closed.path = false := by decide
  have hf : b.validator.documents.find? new.path = some new := by decide
  have hold : b.waiting.map (·.document) = {old} := by decide
  have hb : (start (some ⟨"/"⟩) tools {}).after history = b := rfl
  have hr : (start (some ⟨"/"⟩) tools {}).after (.reload {} tools :: history) = reloaded := rfl
  obtain ⟨-, -, -, hw, -, -, hp, hl⟩ :=
    reload_renews_checks (some ⟨"/"⟩) tools {} history {} tools hon
  rw [hb, hr] at hw
  rw [hb, hr] at hp
  rw [hb] at hl
  -- From here on the operations need not be performed any more.
  clear_value b reloaded
  exact ⟨hon, hw.trans (congrArg _ hv), (hp _).trans hn, (hp _).trans hc, hold, hl _ _ hf⟩

end EviAssist.Background
