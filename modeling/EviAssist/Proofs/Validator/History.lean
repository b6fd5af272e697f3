import EviAssist.Feature
import EviAssist.Proofs.Validator.Publish

/-!
# Histories of the validator

A history is a list of critical sections, the newest first: texts that are accepted, documents
that are closed, settings that change, and checks that end with any answer. Sections may follow
each other in any order.

* `Validator.Section`, `Section.run`: a section and what it does.
* `Validator.after`, `Validator.announced`: where a history leads and what is announced in it.
* `Section.published?`: the report that a section publishes.
* `Validator.lastReport?`: the last report of a document.
* `Validator.contains_of_lastReport?`, `Validator.lists_of_lastReport?`: a document with a last
  report is open, and what that report mentions is listed.
-/

namespace EviAssist.Validator

/-! ## Sections -/

theorem accept_snd (v : Validator) (document : Document) :
    (v.accept document).2 = (document.isEvi && v.schedules) := by
  rw [accept]
  split
  · rename_i he
    rw [he, Bool.true_and]
  · rename_i he
    rw [Bool.not_eq_true] at he
    rw [he, Bool.false_and]

/-- A critical section of the validator. -/
inductive Section where
  /-- A document is open with a new text. -/
  | accept (document : Document)
  /-- A document is closed. -/
  | close (path : Path)
  /-- New settings apply. -/
  | reload (settings : ValidationSettings) (executableChanged : Bool)
  /-- A check of a document ends with an answer. -/
  | conclude (document : Document) (answer : Except LintError LintResult)

namespace Section

/-- What a section does to the validator, and what it announces. -/
def run (directory : Option Path) (v : Validator) : Section → Validator × List ValidationEvent
  | accept document => ((v.accept document).1, [])
  | close path => v.close path
  | reload settings executableChanged => v.reload settings executableChanged
  | conclude document answer =>
    v.conclude document.path (Feature.reportOf directory document answer)

/-- The document and the report that a section publishes: that of a check which succeeded, of a
document that is open. -/
def published? (directory : Option Path) (v : Validator) : Section → Option (Path × Report)
  | conclude document answer =>
    if v.documents.contains document.path then
      (Feature.reportOf directory document answer).toOption.map fun report =>
        (document.path, report)
    else none
  | _ => none

variable {directory : Option Path} {v : Validator} {s : Section} {document : Path} {report : Report}

/-- **A section publishes the report of a check that succeeded, of a document that is open.** -/
theorem published?_eq_some_iff :
    s.published? directory v = some (document, report) ↔
      ∃ d answer, s = conclude d answer ∧ v.documents.contains d.path = true ∧
        Feature.reportOf directory d answer = .ok report ∧ d.path = document := by
  constructor
  · intro h
    cases s with
    | accept _ => cases h
    | close _ => cases h
    | reload _ _ => cases h
    | conclude d answer =>
      simp only [published?] at h
      split at h
      · rename_i ho
        cases ha : Feature.reportOf directory d answer with
        | ok r =>
          rw [ha] at h
          cases h
          exact ⟨d, answer, rfl, ho, ha, rfl⟩
        | error e =>
          rw [ha] at h
          cases h
      · cases h
  · rintro ⟨d, answer, rfl, ho, ha, rfl⟩
    simp [published?, ho, ha, Except.toOption]

theorem run_of_published? (h : s.published? directory v = some (document, report)) :
    v.documents.contains document = true ∧ s.run directory v = v.publish document report := by
  obtain ⟨d, answer, rfl, ho, ha, rfl⟩ := published?_eq_some_iff.1 h
  refine ⟨ho, ?_⟩
  simp only [run, Validator.conclude, ho, ha, if_true]

theorem run_conclude_of_published?_eq_none {d : Document} {answer : Except LintError LintResult}
    (h : (conclude d answer).published? directory v = none) :
    (conclude d answer).run directory v = (v, []) ∨
      ∃ text, (conclude d answer).run directory v =
        ({ v with isPaused := true }, [.message text true, .paused]) := by
  simp only [run, Validator.conclude]
  split
  · rename_i ho
    cases ha : Feature.reportOf directory d answer with
    | ok r => simp [published?, ho, ha, Except.toOption] at h
    | error e =>
      dsimp only
      split
      · unfold pause
        split
        · exact .inl rfl
        · exact .inr ⟨_, rfl⟩
      · exact .inl rfl
  · exact .inl rfl

theorem exists_byFile_of_published? (h : s.published? directory v = some (document, report)) :
    ∃ d ds, report = Report.byFile directory d ds := by
  obtain ⟨d, answer, -, -, ha, -⟩ := published?_eq_some_iff.1 h
  cases answer with
  | error e => cases ha
  | ok result =>
    cases ha
    exact ⟨d, result.diagnosticList, rfl⟩

theorem distinct_of_published? (h : s.published? directory v = some (document, report)) :
    report.Distinct := by
  obtain ⟨d, ds, rfl⟩ := exists_byFile_of_published? h
  exact Report.distinct_byFile directory d ds

/-- Whether a section opens or closes a path, if it does either. -/
def opens? (p : Path) : Section → Option Bool
  | accept document => if document.isEvi && document.path.same p then some true else none
  | close path => if path.same p then some false else none
  | _ => none

/-- **The open documents after a section.** -/
theorem contains_run (directory : Option Path) (v : Validator) (s : Section) (p : Path) :
    (s.run directory v).1.documents.contains p =
      (s.opens? p).getD (v.documents.contains p) := by
  cases s with
  | accept d =>
    simp only [run, Validator.accept, opens?]
    by_cases he : d.isEvi
    · by_cases hs : d.path.same p <;> simp [he, hs, PathMap.contains_insert]
    · simp [he]
  | close path =>
    simp only [run, Validator.close, opens?]
    by_cases hs : path.same p
    · split
      · simp [hs, PathMap.contains_erase]
      · rename_i ho
        simpa [hs, PathMap.contains_congr _ hs] using ho
    · split <;> simp [hs, PathMap.contains_erase]
  | reload _ _ => rfl
  | conclude d answer =>
    cases h : (conclude d answer).published? directory v with
    | some found =>
      rw [(run_of_published? h).2]
      rfl
    | none =>
      obtain hr | ⟨text, hr⟩ := run_conclude_of_published?_eq_none h <;> rw [hr] <;> rfl

end Section

/-! ## Histories -/

section History

variable (directory : Option Path) (settings : ValidationSettings)

/-- The validator after a history, the newest section of which comes first. -/
def after : List Section → Validator
  | [] => { settings }
  | s :: earlier => (s.run directory (after earlier)).1

/-- What is announced in the sections `later` that follow a history, in its order. -/
def announced (earlier : List Section) : List Section → List ValidationEvent
  | [] => []
  | s :: later =>
    announced earlier later ++ (s.run directory (after directory settings (later ++ earlier))).2

/-- The last report of a document since it was opened and since the last change of settings. -/
def lastReport? : List Section → Path → Option Report
  | [], _ => none
  | s :: earlier, d =>
    match s with
    | .reload _ _ => none
    | .close path => if path.same d then none else lastReport? earlier d
    | _ =>
      match s.published? directory (after directory settings earlier) with
      | some (document, report) =>
        if document.same d then some report else lastReport? earlier d
      | none => lastReport? earlier d

variable {directory settings}

theorem announced_append (earlier middle later : List Section) :
    announced directory settings earlier (later ++ middle) =
      announced directory settings earlier middle ++
        announced directory settings (middle ++ earlier) later := by
  induction later with
  | nil => rw [List.nil_append, announced, List.append_nil]
  | cons s later ih => simp only [List.cons_append, announced, ih, List.append_assoc]

/-- **A document with a last report is open.** -/
theorem contains_of_lastReport? {h : List Section} {d : Path} {report : Report}
    (hr : lastReport? directory settings h d = some report) :
    (after directory settings h).documents.contains d = true := by
  induction h with
  | nil => cases hr
  | cons s earlier ih =>
    rw [after, Section.contains_run]
    cases s with
    | accept document =>
      simp only [Section.opens?]
      split
      · rfl
      · exact ih hr
    | close path =>
      simp only [lastReport?] at hr
      split at hr
      · cases hr
      · rename_i hs
        simpa [Section.opens?, hs] using ih hr
    | reload _ _ => cases hr
    | conclude document answer =>
      simp only [lastReport?] at hr
      split at hr
      · rename_i hp
        split at hr
        · rename_i hs
          rw [← PathMap.contains_congr _ hs]
          exact (Section.run_of_published? hp).1
        · exact ih hr
      · exact ih hr

/-- **What the last report of a document mentions is listed.** -/
theorem lists_of_lastReport? {h : List Section} {d f : Path} {report : Report}
    (hr : lastReport? directory settings h d = some report) (hm : report.mentions f = true) :
    (after directory settings h).lists d f = true := by
  induction h with
  | nil => cases hr
  | cons s earlier ih =>
    rw [after]
    cases s with
    | accept document =>
      have hl := ih hr
      simp only [Section.run, accept]
      split <;> exact hl
    | close path =>
      simp only [lastReport?] at hr
      split at hr
      · cases hr
      · rename_i hs
        have hl := ih hr
        simp only [Section.run, close]
        split
        · rw [lists, PathMap.find?_erase, if_neg hs]
          exact hl
        · exact hl
    | reload _ _ => cases hr
    | conclude document answer =>
      simp only [lastReport?] at hr
      split at hr
      · rename_i hp
        rw [(Section.run_of_published? hp).2, lists_publish]
        split at hr
        · rename_i hs
          cases hr
          rw [if_pos hs, hm, Bool.true_or]
        · rename_i hs
          rw [if_neg hs]
          exact ih hr
      · rename_i hp
        have hl := ih hr
        obtain hc | ⟨text, hc⟩ := Section.run_conclude_of_published?_eq_none hp <;>
          rw [hc] <;> exact hl

end History

end EviAssist.Validator
