import EviAssist.Proofs.Validator.Orphans

/-!
# What a check and a closing touch

A check that succeeds has a say in its own document, in the files that its report is about, and in
those that only the last report of the document was about. A closing has a say in the first and
the last of these. All other entries of the collection stay, and a check that fails or comes too
late leaves everything but the pause.

* `Validator.entryOf?`: the entry of a file in the collection.
* `Validator.BelongsTo`, `Validator.blanks_iff`: whether a file is left to a document alone.
* `Validator.entryOf?_publish`, `Validator.entryOf?_close`: every entry after a report and after a
  closing.
* `Validator.own_of_conclude_ok`, `Validator.own_of_close`: what each of them may change.
* `Validator.touches_own_files`: what stays, in all histories.
-/

namespace EviAssist.Validator

/-- The entry of a file in the collection, if it has one. -/
def entryOf? (v : Validator) (file : Path) : Option (List Diagnostic) :=
  v.collection.entries.find? file

/-- Whether a file is left to a document alone: it is listed for the document, it is not open, and
no other document lists it. -/
def BelongsTo (v : Validator) (document file : Path) : Prop :=
  v.lists document file = true ∧ v.documents.contains file = false ∧
    ∀ other, document.same other = false → v.lists other file = false

variable {v : Validator} {document path file : Path} {report : Report}

/-- **What goes with the last report of a document**: the document itself, and what belongs to
it. -/
theorem blanks_iff (hd : v.published.Distinct) :
    v.blanks document file = true ↔ document.same file = true ∨ v.BelongsTo document file := by
  rw [blanks, Bool.or_eq_true, Bool.and_eq_true, Bool.not_eq_true', ← Bool.not_eq_true,
    isClaimedBeside_iff hd, not_or, BelongsTo, Bool.not_eq_true]
  refine or_congr_right (and_congr_right fun _ => and_congr_right fun _ => ?_)
  rw [not_exists]
  refine forall_congr' fun other => ?_
  rw [not_and, Bool.not_eq_true, Bool.not_eq_true]

/-! ## Entries -/

theorem entryOf?_eq_iff (hp : v.collection.Proper) (ds : List Diagnostic) :
    v.collection.get file = ds ↔ v.entryOf? file = if ds = [] then none else some ds := by
  rw [entryOf?, DiagnosticCollection.get]
  cases he : v.collection.entries.find? file with
  | none =>
    rw [Option.getD_none]
    by_cases hds : ds = []
    · simp [hds]
    · simp [hds, Ne.symm hds]
  | some found =>
    have hfound := hp file found he
    rw [Option.getD_some]
    by_cases hds : ds = []
    · simp [hds, hfound]
    · simp [hds]

/-- **Every entry after a report**: the group of the file, else none for what goes with the last
report, else the one before. -/
theorem entryOf?_publish (hv : v.NoOrphans) (hd : report.Distinct)
    (hne : ∀ group ∈ report, group.2 ≠ []) (document file : Path) :
    (v.publish document report).1.entryOf? file =
      (report.group? file).or (if v.blanks document file then none else v.entryOf? file) := by
  have hp : (v.publish document report).1.collection.Proper := hv.proper.setAll _
  have hget := get_publish v document hd file
  cases hg : report.group? file with
  | some ds =>
    obtain ⟨group, hf, rfl⟩ := Option.map_eq_some_iff.1 hg
    rw [hg, Option.getD_some] at hget
    rw [(entryOf?_eq_iff hp _).1 hget, if_neg (hne group (List.mem_of_find?_eq_some hf)),
      Option.some_or]
  | none =>
    rw [hg, Option.getD_none] at hget
    rw [Option.none_or]
    by_cases hb : v.blanks document file = true
    · rw [if_pos hb] at hget
      rw [if_pos hb, (entryOf?_eq_iff hp _).1 hget, if_pos rfl]
    · rw [if_neg hb] at hget
      rw [if_neg hb, (entryOf?_eq_iff hp _).1 hget, ← (entryOf?_eq_iff hv.proper _).1 rfl]

/-- **Every entry after a closing**: none for what goes with the document, else the one before. -/
theorem entryOf?_close (hv : v.NoOrphans) (ho : v.documents.contains path = true) (file : Path) :
    (v.close path).1.entryOf? file = if v.blanks path file then none else v.entryOf? file := by
  have hget := get_close v ho file
  rw [(entryOf?_eq_iff (hv.close path).proper _).1 hget]
  by_cases hb : v.blanks path file = true
  · rw [if_pos hb, if_pos hb, if_pos rfl]
  · rw [if_neg hb, if_neg hb, ← (entryOf?_eq_iff hv.proper _).1 rfl]

/-! ## Checks -/

variable (hv : v.NoOrphans) (directory : Option Path) (document : Document) (result : LintResult)

include hv

/-- **Every entry after a check that succeeds**, of a document that is open or not. -/
theorem entryOf?_conclude_ok (file : Path) :
    ((Section.conclude document (.ok result)).run directory v).1.entryOf? file =
      if v.documents.contains document.path then
        ((Report.byFile directory document result.diagnosticList).group? file).or
          (if v.blanks document.path file then none else v.entryOf? file)
      else v.entryOf? file := by
  change (v.conclude document.path (.ok (.byFile directory document _))).1.entryOf? file = _
  rw [conclude]
  split
  · exact entryOf?_publish hv (Report.distinct_byFile directory document _)
      (Report.ne_nil_of_mem_byFile directory document _) _ file
  · rfl

/-- What a check that succeeds changes is its own. -/
theorem own_of_conclude_ok
    (hf : ((Section.conclude document (.ok result)).run directory v).1.entryOf? file ≠
      v.entryOf? file) :
    document.path.same file = true ∨
      (Report.byFile directory document result.diagnosticList).mentions file = true ∨
      v.BelongsTo document.path file := by
  rw [entryOf?_conclude_ok hv] at hf
  rw [Report.mentions_eq_isSome_group?]
  split at hf
  · cases hg : Report.group? _ file with
    | some ds => exact .inr (.inl rfl)
    | none =>
      rw [hg, Option.none_or] at hf
      split at hf
      · exact ((blanks_iff hv.distinct).1 ‹_›).imp_right .inr
      · exact absurd rfl hf
  · exact absurd rfl hf

theorem entryOf?_conclude_ok_ne_none (hs : document.path.same file = false)
    (hc : v.documents.contains file = true ∨
      ∃ other, document.path.same other = false ∧ v.lists other file = true)
    (hf : v.entryOf? file ≠ none) :
    ((Section.conclude document (.ok result)).run directory v).1.entryOf? file ≠ none := by
  have hb : ¬v.blanks document.path file = true := by
    rw [blanks_iff hv.distinct]
    rintro (hself | ⟨-, hclosed, hother⟩)
    · rw [hs] at hself
      cases hself
    · obtain ho | ⟨other, hne, hl⟩ := hc
      · rw [hclosed] at ho
        cases ho
      · rw [hother other hne] at hl
        cases hl
  rw [entryOf?_conclude_ok hv, if_neg hb]
  split
  · rw [Ne, Option.or_eq_none_iff, not_and]
    exact fun _ => hf
  · exact hf

/-- What a closing changes is its own. -/
theorem own_of_close (hf : (v.close path).1.entryOf? file ≠ v.entryOf? file) :
    path.same file = true ∨ v.BelongsTo path file := by
  by_cases ho : v.documents.contains path = true
  · rw [entryOf?_close hv ho] at hf
    split at hf
    · exact (blanks_iff hv.distinct).1 ‹_›
    · exact absurd rfl hf
  · rw [close, if_neg ho] at hf
    exact absurd rfl hf

omit hv

theorem run_conclude_eq (directory : Option Path) (v : Validator) {document : Document}
    {answer : Except LintError LintResult}
    (h : (∃ e, answer = .error e) ∨ v.documents.contains document.path = false) :
    ∃ isPaused,
      ((Section.conclude document answer).run directory v).1 = { v with isPaused } := by
  have hp : (Section.conclude document answer).published? directory v = none := by
    rw [Option.eq_none_iff_forall_ne_some]
    rintro ⟨checked, report⟩ hs
    obtain ⟨d, a, he, ho, ha, -⟩ := Section.published?_eq_some_iff.1 hs
    cases he
    obtain ⟨e, rfl⟩ | hc := h
    · cases ha
    · rw [hc] at ho
      cases ho
  obtain hr | ⟨text, hr⟩ := Section.run_conclude_of_published?_eq_none hp
  · exact ⟨v.isPaused, by rw [hr]⟩
  · exact ⟨true, by rw [hr]⟩

/-- **A check and a closing touch only what is their own.** In every history a check that succeeds
changes the entry of a file only if the file is its document, or its report is about the file, or
the file belongs to the document, and it removes no other file's entry that is open or listed by
another document. A closing changes the entry of a file only if the file is the document or
belongs to it. A check that fails, or whose document has been closed, leaves the settings, the
documents, the lists and the collection as they were. -/
theorem touches_own_files (directory : Option Path) (settings : ValidationSettings)
    (h : List Section) :
    let v := after directory settings h
    (∀ (document : Document) (result : LintResult) (file : Path),
      let w := ((Section.conclude document (.ok result)).run directory v).1
      (w.entryOf? file ≠ v.entryOf? file →
        document.path.same file = true ∨
          (Report.byFile directory document result.diagnosticList).mentions file = true ∨
          v.BelongsTo document.path file) ∧
      (document.path.same file = false →
        (v.documents.contains file = true ∨
          ∃ other, document.path.same other = false ∧ v.lists other file = true) →
        v.entryOf? file ≠ none → w.entryOf? file ≠ none)) ∧
      (∀ path file : Path, (v.close path).1.entryOf? file ≠ v.entryOf? file →
        path.same file = true ∨ v.BelongsTo path file) ∧
      ∀ (document : Document) (answer : Except LintError LintResult),
        (∃ e, answer = .error e) ∨ v.documents.contains document.path = false →
        let w := ((Section.conclude document answer).run directory v).1
        w.settings = v.settings ∧ w.documents = v.documents ∧ w.published = v.published ∧
          w.collection = v.collection := by
  intro v
  have hv : v.NoOrphans := noOrphans_after directory settings h
  refine ⟨fun document result file => ⟨?_, ?_⟩, fun path file => own_of_close hv,
    fun document answer ha => ?_⟩
  · exact own_of_conclude_ok hv directory document result
  · exact entryOf?_conclude_ok_ne_none hv directory document result
  · obtain ⟨isPaused, hw⟩ := run_conclude_eq directory v ha
    dsimp only
    rw [hw]
    exact ⟨rfl, rfl, rfl, rfl⟩

end EviAssist.Validator
