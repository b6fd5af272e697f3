import EviAssist.Report
import EviAssist.Proofs.PathMap

/-!
# Laws of reports

* `Report.group?`: the diagnostics that a report has for a file.
* `Report.Distinct`: every file has one group at most.
* `Report.distinct_byFile`, `Report.ne_nil_of_mem_byFile`: diagnostics sorted by file are such a
  report, and no group of it is empty.
* `Report.Finds`: whether a report has diagnostics for a file.
-/

namespace EviAssist.Report

/-- The diagnostics that a report has for a file, if it has a group for it. -/
def group? (report : Report) (file : Path) : Option (List Diagnostic) :=
  (report.find? fun group => group.1.same file).map (·.2)

/-- Every file has one group at most. -/
def Distinct (report : Report) : Prop :=
  report.Pairwise fun group later => ¬group.1.same later.1 = true

@[simp] theorem group?_nil (file : Path) : group? [] file = none :=
  rfl

@[simp] theorem mentions_nil (file : Path) : mentions [] file = false :=
  rfl

theorem group?_cons (group : Path × List Diagnostic) (report : Report) (file : Path) :
    group? (group :: report) file =
      if group.1.same file then some group.2 else report.group? file := by
  unfold group?
  rw [List.find?_cons]
  by_cases h : group.1.same file <;> simp [h]

theorem mentions_cons (group : Path × List Diagnostic) (report : Report) (file : Path) :
    mentions (group :: report) file = (group.1.same file || report.mentions file) :=
  rfl

theorem group?_append (report other : Report) (file : Path) :
    group? (report ++ other) file = (report.group? file).or (other.group? file) := by
  simp only [group?, List.find?_append]
  cases report.find? fun group => group.1.same file <;> rfl

theorem mentions_eq_isSome_group? (report : Report) (file : Path) :
    report.mentions file = (report.group? file).isSome := by
  rw [Bool.eq_iff_iff]
  simp [mentions, group?, List.find?_isSome]

theorem group?_eq_none_iff {report : Report} {file : Path} :
    report.group? file = none ↔ ¬report.mentions file = true := by
  rw [mentions_eq_isSome_group?]
  simp

theorem mentions_congr (report : Report) {p q : Path} (h : p.same q = true) :
    report.mentions p = report.mentions q := by
  simp only [mentions, Path.same_congr_right h]

theorem any_same_map_fst (report : Report) (file : Path) :
    (report.map (·.1)).any (·.same file) = report.mentions file := by
  rw [List.any_map]
  rfl

/-! ## Distinct files -/

theorem distinct_cons {group : Path × List Diagnostic} {report : Report} :
    Distinct (group :: report) ↔ ¬report.mentions group.1 = true ∧ report.Distinct := by
  simp only [Distinct, List.pairwise_cons, mentions, List.any_eq_true, not_exists, not_and]
  refine and_congr_left fun _ => forall_congr' fun later => forall_congr' fun _ => ?_
  rw [Path.same_comm]

theorem distinct_append_singleton {report : Report} (hd : report.Distinct) {file : Path}
    (h : ¬report.mentions file = true) (ds : List Diagnostic) :
    Distinct (report ++ [(file, ds)]) := by
  refine List.pairwise_append.2 ⟨hd, List.pairwise_singleton _ _, ?_⟩
  intro group hg later hl hs
  rw [List.mem_singleton.1 hl] at hs
  exact h (List.any_eq_true.2 ⟨group, hg, hs⟩)

/-! ## Sorting by file -/

theorem mentions_add (file : Path) (d : Diagnostic) (report : Report) (f : Path) :
    (report.add file d).mentions f = (file.same f || report.mentions f) := by
  induction report with
  | nil => rfl
  | cons group rest ih =>
    unfold add
    split
    · rename_i h
      rw [mentions_cons, mentions_cons, Path.same_congr h, ← Bool.or_assoc, Bool.or_self]
    · rw [mentions_cons, mentions_cons, ih, Bool.or_left_comm]

theorem distinct_add {report : Report} (h : report.Distinct) (file : Path) (d : Diagnostic) :
    (report.add file d).Distinct := by
  induction report with
  | nil => exact List.pairwise_singleton _ _
  | cons group rest ih =>
    obtain ⟨hm, hd⟩ := distinct_cons.1 h
    unfold add
    split
    · exact distinct_cons.2 ⟨hm, hd⟩
    · rename_i hs
      refine distinct_cons.2 ⟨?_, ih hd⟩
      rw [mentions_add, Bool.or_eq_true, not_or, Path.same_comm]
      exact ⟨hs, hm⟩

theorem ne_nil_of_mem_add {report : Report} (h : ∀ group ∈ report, group.2 ≠ []) (file : Path)
    (d : Diagnostic) : ∀ group ∈ report.add file d, group.2 ≠ [] := by
  induction report with
  | nil => simp [add]
  | cons first rest ih =>
    obtain ⟨hf, hr⟩ := List.forall_mem_cons.1 h
    unfold add
    split
    · exact List.forall_mem_cons.2 ⟨by simp, hr⟩
    · exact List.forall_mem_cons.2 ⟨hf, ih hr⟩

theorem byFile_induction {P : Report → Prop} (directory : Option Path) (document : Document)
    (h0 : P []) (hadd : ∀ report file d, P report → P (report.add file d))
    (ds : List LintDiagnostic) : P (byFile directory document ds) := by
  have h : ∀ report, P report → P (ds.foldl (fun report d =>
      report.add d.position.file (.ofLint directory document d)) report) := by
    induction ds with
    | nil => exact fun _ hr => hr
    | cons d rest ih => exact fun report hr => ih _ (hadd report _ _ hr)
  exact h [] h0

/-- **Diagnostics sorted by file have one group for each file.** -/
theorem distinct_byFile (directory : Option Path) (document : Document) (ds : List LintDiagnostic) :
    (byFile directory document ds).Distinct :=
  byFile_induction directory document List.Pairwise.nil
    (fun _ file d h => distinct_add h file d) ds

/-- **No group of diagnostics sorted by file is empty.** -/
theorem ne_nil_of_mem_byFile (directory : Option Path) (document : Document)
    (ds : List LintDiagnostic) : ∀ group ∈ byFile directory document ds, group.2 ≠ [] :=
  byFile_induction (P := fun report => ∀ group ∈ report, group.2 ≠ []) directory document
    (by simp) (fun _ file d h => ne_nil_of_mem_add h file d) ds

/-! ## Files with diagnostics -/

/-- Whether a report has at least one diagnostic for a file. -/
def Finds (report : Report) (file : Path) : Prop :=
  ∃ d ds, report.group? file = some (d :: ds)

theorem finds_iff_mentions {report : Report} (h : ∀ group ∈ report, group.2 ≠ [])
    (file : Path) : report.Finds file ↔ report.mentions file = true := by
  rw [mentions_eq_isSome_group?, Finds]
  cases hg : report.group? file with
  | none => simp
  | some ds =>
    obtain ⟨group, hf, rfl⟩ := Option.map_eq_some_iff.1 hg
    obtain ⟨d, ds, hd⟩ := List.exists_cons_of_ne_nil (h group (List.mem_of_find?_eq_some hf))
    exact iff_of_true ⟨d, ds, by rw [hd]⟩ rfl

end EviAssist.Report
