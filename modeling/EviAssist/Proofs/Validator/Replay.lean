import EviAssist.Proofs.Validator.History

/-!
# Replaying announcements

Who keeps a copy of the collection and applies to it all that is announced has the collection of
the validator at every moment.

* `ValidationEvent.applyTo`, `Validator.replay`: what an announcement does to a copy.
* `Validator.replay_run`: one section.
* `Validator.mem_run_published`: what a section announces as published.
* `Validator.replay_announced`: all the sections that follow a history.
-/

namespace EviAssist

/-- What an announcement does to a copy of the collection: published files are set one by one, and
cleared ones removed. -/
def ValidationEvent.applyTo (copy : DiagnosticCollection) :
    ValidationEvent → DiagnosticCollection
  | published _ files => files.foldl (fun copy group => copy.set group.1 group.2) copy
  | cleared files => files.foldl (fun copy file => copy.delete file) copy
  | message _ _ => copy
  | paused => copy
  | resumed => copy

namespace Validator

/-- A copy of the collection after some announcements. -/
def replay (copy : DiagnosticCollection) (events : List ValidationEvent) : DiagnosticCollection :=
  events.foldl ValidationEvent.applyTo copy

theorem replay_append (copy : DiagnosticCollection) (events later : List ValidationEvent) :
    replay copy (events ++ later) = replay (replay copy events) later :=
  List.foldl_append

variable {directory : Option Path} {settings : ValidationSettings}

/-! ## One section -/

theorem replay_close (v : Validator) (path : Path) :
    replay v.collection (v.close path).2 = (v.close path).1.collection := by
  unfold close
  split <;> rfl

theorem replay_reload (v : Validator) (settings : ValidationSettings) (executableChanged : Bool) :
    replay v.collection (v.reload settings executableChanged).2 =
      (v.reload settings executableChanged).1.collection := by
  have hr : replay v.collection (if v.isPaused && executableChanged then [.resumed] else []) =
      v.collection := by
    split <;> rfl
  simp only [reload]
  rw [replay_append, hr]
  split
  · rename_i he
    have hn : v.collection.entries.entries = [] := List.map_eq_nil_iff.1 (List.isEmpty_iff.1 he)
    exact congrArg (fun entries => DiagnosticCollection.mk ⟨entries⟩) hn
  · exact DiagnosticCollection.deleteAll_files v.collection

/-- **A copy follows every section.** -/
theorem replay_run (v : Validator) (s : Section) :
    replay v.collection (s.run directory v).2 = (s.run directory v).1.collection := by
  cases s with
  | accept document =>
    simp only [Section.run, accept]
    split <;> rfl
  | close path => exact replay_close v path
  | reload settings executableChanged => exact replay_reload v settings executableChanged
  | conclude document answer =>
    cases h : (Section.conclude document answer).published? directory v with
    | some found =>
      rw [(Section.run_of_published? h).2]
      rfl
    | none =>
      obtain hr | ⟨text, hr⟩ := Section.run_conclude_of_published?_eq_none h <;> rw [hr] <;> rfl

/-- **What is announced as published** are the groups of a report of the checked document. -/
theorem mem_run_published {v : Validator} {s : Section} {document : Path} {files : Report}
    (h : .published document files ∈ (s.run directory v).2) :
    ∃ checked answer report, s = .conclude checked answer ∧ checked.path = document ∧
      s.published? directory v = some (document, report) ∧
      files = v.groupsOf document report := by
  cases s with
  | accept d => cases h
  | close path =>
    simp only [Section.run, close] at h
    split at h <;> simp at h
  | reload settings executableChanged =>
    simp only [Section.run, reload] at h
    split at h <;> split at h <;> simp at h
  | conclude checked answer =>
    cases hp : (Section.conclude checked answer).published? directory v with
    | some found =>
      obtain ⟨d, report⟩ := found
      rw [(Section.run_of_published? hp).2] at h
      obtain ⟨checked', answer', hs, -, -, hd⟩ := Section.published?_eq_some_iff.1 hp
      cases hs
      cases List.mem_singleton.1 h
      exact ⟨checked, answer, report, rfl, hd, rfl, rfl⟩
    | none =>
      obtain hr | ⟨text, hr⟩ := Section.run_conclude_of_published?_eq_none hp <;>
        rw [hr] at h <;> simp at h

/-! ## Histories -/

/-- **A copy follows every history**, and every report that is announced has each file once, and
the checked document among them. -/
theorem replay_announced (directory : Option Path) (settings : ValidationSettings)
    (earlier later : List Section) :
    replay (after directory settings earlier).collection
        (announced directory settings earlier later) =
      (after directory settings (later ++ earlier)).collection ∧
    ∀ document files, .published document files ∈ announced directory settings earlier later →
      files.Distinct ∧ files.mentions document = true ∧
      ∃ checked answer, .conclude checked answer ∈ later ∧ checked.path = document := by
  induction later with
  | nil => exact ⟨rfl, fun _ _ h => nomatch h⟩
  | cons s later ih =>
    obtain ⟨hc, hp⟩ := ih
    refine ⟨?_, fun document files h => ?_⟩
    · rw [announced, replay_append, hc, replay_run]
      rfl
    · rw [announced, List.mem_append] at h
      obtain h | h := h
      · obtain ⟨hd, hm, checked, answer, hmem, hpath⟩ := hp document files h
        exact ⟨hd, hm, checked, answer, List.mem_cons_of_mem _ hmem, hpath⟩
      · obtain ⟨checked, answer, report, rfl, hpath, hs, rfl⟩ := mem_run_published h
        refine ⟨distinct_groupsOf _ _ (Section.distinct_of_published? hs), ?_, checked, answer,
          List.mem_cons_self, hpath⟩
        rw [mentions_groupsOf, blanks, Path.same_self, Bool.true_or, Bool.or_true]

end Validator

end EviAssist
