import EviAssist.Editor.Encode
import EviAssist.Proofs.Json.Members
import EviAssist.Proofs.Path
import EviAssist.Proofs.Report
import EviAssist.Proofs.Uri
import Mathlib.Data.List.Forall2
import Mathlib.Data.List.Induction

/-!
# Groups of diagnostics

Diagnostics are sorted by file one after the other. Each is put at the end of the group of its file,
or in a new last group when there is none; so the files stand in the order in which they are first
written, and a group has the diagnostics of its file in the order in which they came.

* `Report.isFirstSeen_byFile`, `Report.getD_group?_byFile`, `Report.flatMap_byFile_perm`: the files
  of a report, the group of a file, and all groups together.
* `Range.IsWithinLine`, `RelatedNote.IsShownAs`: what is shown of a diagnostic.
* `Report.byFile_partitions`: diagnostics sorted by file are the same diagnostics.
-/

namespace EviAssist

/-! ## Sorting by file -/

namespace Report

variable {report : Report}

theorem files_add (file : Path) (d : Diagnostic) (report : Report) :
    (report.add file d).map (·.1) =
      if report.mentions file then report.map (·.1) else report.map (·.1) ++ [file] := by
  induction report with
  | nil => rfl
  | cons group rest ih =>
    unfold add
    rw [mentions_cons]
    by_cases h : group.1.same file = true
    · simp [h]
    · rw [if_neg h, Bool.eq_false_iff.2 h, Bool.false_or, List.map_cons, List.map_cons, ih]
      split <;> rfl

theorem getD_group?_add (file : Path) (d : Diagnostic) (report : Report) (f : Path) :
    ((report.add file d).group? f).getD [] =
      (report.group? f).getD [] ++ if file.same f then [d] else [] := by
  induction report with
  | nil =>
    rw [add, group?_cons]
    split <;> rfl
  | cons group rest ih =>
    unfold add
    rw [group?_cons]
    by_cases h : group.1.same file = true
    · rw [if_pos h, group?_cons, Path.same_congr h]
      by_cases hf : file.same f = true
      · simp [hf]
      · simp [hf]
    · rw [if_neg h, group?_cons]
      by_cases hf : group.1.same f = true
      · have hne : ¬file.same f = true := fun hs =>
          h (Path.same_trans hf (Path.same_comm file f ▸ hs))
        simp [hf, hne]
      · rw [if_neg hf, if_neg hf, ih]

theorem flatMap_add_perm (file : Path) (d : Diagnostic) (report : Report) :
    ((report.add file d).flatMap (·.2)).Perm (report.flatMap (·.2) ++ [d]) := by
  induction report with
  | nil => exact .refl _
  | cons group rest ih =>
    unfold add
    split
    · simp only [List.flatMap_cons, List.append_assoc]
      exact List.perm_append_comm.append_left _
    · simp only [List.flatMap_cons, List.append_assoc]
      exact ih.append_left _

theorem group?_of_mem (hd : report.Distinct) {group : Path × List Diagnostic}
    (hg : group ∈ report) : report.group? group.1 = some group.2 := by
  induction report with
  | nil => cases hg
  | cons first rest ih =>
    obtain ⟨hm, hr⟩ := distinct_cons.1 hd
    rw [group?_cons]
    obtain rfl | hg := List.mem_cons.1 hg
    · rw [if_pos (Path.same_self _)]
    · have hne : ¬first.1.same group.1 = true := fun hs =>
        hm (List.any_eq_true.2 ⟨group, hg, Path.same_comm first.1 group.1 ▸ hs⟩)
      rw [if_neg hne, ih hr hg]

variable (directory : Option Path) (document : Document) (ds : List LintDiagnostic)

theorem byFile_concat (d : LintDiagnostic) :
    byFile directory document (ds ++ [d]) =
      (byFile directory document ds).add d.position.file (.ofLint directory document d) :=
  List.foldl_concat _ _ _ _

/-- **The files of a report** are those of the diagnostics, as they are first seen. -/
theorem isFirstSeen_byFile :
    Path.IsFirstSeen (ds.map (·.position.file)) ((byFile directory document ds).map (·.1)) := by
  induction ds using List.reverseRecOn with
  | nil => exact ⟨nofun, nofun, List.Pairwise.nil⟩
  | append_singleton ds d ih =>
    rw [byFile_concat, files_add, List.map_append, List.map_singleton]
    have hm := any_same_map_fst (byFile directory document ds) d.position.file
    split
    · rename_i h
      exact ih.concat_of_mem (List.any_eq_true.1 (hm.trans h))
    · rename_i h
      exact ih.concat_of_notMem fun he => h (hm.symm.trans (List.any_eq_true.2 he))

/-- **The group of a file**, in any spelling: its diagnostics, in order. -/
theorem getD_group?_byFile (file : Path) :
    ((byFile directory document ds).group? file).getD [] =
      (ds.filter (·.position.file.same file)).map (.ofLint directory document) := by
  induction ds using List.reverseRecOn with
  | nil => rfl
  | append_singleton ds d ih =>
    rw [byFile_concat, getD_group?_add, ih, List.filter_append, List.map_append]
    by_cases h : d.position.file.same file = true <;> simp [h]

/-- **All groups together** are all diagnostics. -/
theorem flatMap_byFile_perm :
    ((byFile directory document ds).flatMap (·.2)).Perm
      (ds.map (.ofLint directory document)) := by
  induction ds using List.reverseRecOn with
  | nil => exact .refl _
  | append_singleton ds d ih =>
    rw [byFile_concat, List.map_append]
    exact (flatMap_add_perm _ _ _).trans (ih.append_right _)

end Report

/-! ## What is shown of a diagnostic -/

/-- Whether a range stays within one line and does not stop before it starts. -/
structure Range.IsWithinLine (r : Range) : Prop where
  line : r.start.line = r.stop.line
  character : r.start.character ≤ r.stop.character

theorem SourcePosition.isWithinLine_range (p : SourcePosition) : p.range.IsWithinLine where
  line := rfl
  character := by
    show p.column ≤ Count.add p.column p.length
    have h : p.column.toNat < UInt32.size := p.column.toNat_lt
    rw [UInt32.le_iff_toNat_le, Count.toNat_add]
    omega

theorem SourcePosition.isWithinLine_rangeIn (p : SourcePosition) (text : String) :
    (p.rangeIn text).IsWithinLine := by
  have hmax (n : UInt32) : p.column ≤ max n p.column := by
    show p.column ≤ if n ≤ p.column then p.column else n
    split
    · exact UInt32.le_refl _
    · exact UInt32.le_of_lt (UInt32.not_le.1 ‹_›)
  unfold rangeIn
  split
  · exact p.isWithinLine_range
  · exact ⟨rfl, hmax _⟩

/-- The range shown for a place is within its line, whatever its column, its length and the text
are. -/
theorem SourcePosition.isWithinLine_rangeFor (p : SourcePosition) (document : Document) :
    (p.rangeFor document).IsWithinLine := by
  unfold rangeFor
  split
  · exact p.isWithinLine_rangeIn _
  · exact p.isWithinLine_range

theorem SourcePosition.start_rangeFor (p : SourcePosition) (document : Document) :
    (p.rangeFor document).start = p.start := by
  unfold rangeFor rangeIn
  split_ifs <;> rfl

/-- Whether a note that goes with a diagnostic is shown as it is, with a link to its file. -/
structure RelatedNote.IsShownAs (directory : Option Path) (note : RelatedNote)
    (shown : RelatedInformation) : Prop where
  message : shown.message = note.message
  range : shown.location.range = note.position.range
  uri : Uri.ofPath? directory note.position.file = some shown.location.uri

/-- Whether the file of a note can be told: it is absolute, or the directory is known. -/
def RelatedNote.isLocated (directory : Option Path) (note : RelatedNote) : Bool :=
  note.position.file.isAbsolute || directory.isSome

/-- **The notes of a diagnostic are shown one by one, in order**, where their files can be told. -/
theorem Diagnostic.forall₂_related_ofLint (directory : Option Path) (document : Document)
    (d : LintDiagnostic) :
    List.Forall₂ (RelatedNote.IsShownAs directory) (d.related.filter (·.isLocated directory))
      (ofLint directory document d).related := by
  unfold ofLint
  induction d.related with
  | nil => exact .nil
  | cons note notes ih =>
    have hlocated : (Uri.ofPath? directory note.position.file).isSome =
        note.isLocated directory := by
      rw [Bool.eq_iff_iff, Uri.isSome_ofPath?_iff, RelatedNote.isLocated, Bool.or_eq_true]
    rw [List.filterMap_cons, List.filter_cons, Location.ofSource?, ← hlocated]
    cases hu : Uri.ofPath? directory note.position.file with
    | none => exact ih
    | some uri => exact .cons ⟨rfl, rfl, hu⟩ ih

theorem Diagnostic.member?_relatedInformation (d : Diagnostic) :
    d.toJson.member? "relatedInformation" =
      if d.related = [] then none else some (.array (d.related.map (·.toJson))) := by
  simp only [← List.isEmpty_iff]
  exact Json.member?_ofOptions (by simp) (by simp)

/-! ## Reports -/

/-- **A report has the diagnostics that it is made of.** Its files are pairwise different, and they
are the files of the diagnostics in the spelling and in the order in which these first name them.
No group is empty, and the group of a file is what is shown of the diagnostics of this file, in
order; so all groups together are all diagnostics, each as often as it was found. What is shown of a
diagnostic stays within the line that it starts in. Its notes are shown one by one and in order, but
for those in a relative file while the current directory is not known; if there are no such notes,
the member for them is left out when there are none at all. -/
theorem Report.byFile_partitions (directory : Option Path) (document : Document)
    (ds : List LintDiagnostic) :
    let report := Report.byFile directory document ds
    report.Distinct ∧
      Path.IsFirstSeen (ds.map (·.position.file)) (report.map (·.1)) ∧
      (∀ group ∈ report, group.2 ≠ [] ∧
        group.2 =
          (ds.filter (·.position.file.same group.1)).map (.ofLint directory document)) ∧
      (report.flatMap (·.2)).Perm (ds.map (.ofLint directory document)) ∧
      ∀ d, let shown := Diagnostic.ofLint directory document d
        shown.range.IsWithinLine ∧ shown.range.start = d.position.start ∧
          List.Forall₂ (RelatedNote.IsShownAs directory)
            (d.related.filter (·.isLocated directory)) shown.related ∧
          ((∀ note ∈ d.related, note.isLocated directory = true) →
            List.Forall₂ (RelatedNote.IsShownAs directory) d.related shown.related ∧
              shown.toJson.member? "relatedInformation" =
                if d.related = [] then none else some (.array (shown.related.map (·.toJson)))) := by
  intro report
  have hdistinct : report.Distinct := Report.distinct_byFile directory document ds
  have hgroup : ∀ group ∈ report,
      group.2 = (ds.filter (·.position.file.same group.1)).map (.ofLint directory document) := by
    intro group hg
    rw [← Report.getD_group?_byFile, Report.group?_of_mem hdistinct hg]
    rfl
  refine ⟨hdistinct, Report.isFirstSeen_byFile directory document ds,
    fun group hg => ⟨Report.ne_nil_of_mem_byFile directory document ds group hg, hgroup group hg⟩,
    Report.flatMap_byFile_perm directory document ds, fun d => ?_⟩
  have hshown := Diagnostic.forall₂_related_ofLint directory document d
  refine ⟨d.position.isWithinLine_rangeFor document, d.position.start_rangeFor document, hshown,
    fun hlocated => ?_⟩
  have hnotes : List.Forall₂ (RelatedNote.IsShownAs directory) d.related
      (Diagnostic.ofLint directory document d).related := by
    rwa [List.filter_eq_self.2 hlocated] at hshown
  refine ⟨hnotes, ?_⟩
  rw [Diagnostic.member?_relatedInformation]
  refine if_congr ?_ rfl rfl
  rw [← List.length_eq_zero_iff, ← hnotes.length_eq, List.length_eq_zero_iff]

/-- Two notes of which one has a relative file, with a directory and without one. -/
theorem shows_notes_of_told_files :
    let note (file : String) : RelatedNote := ⟨⟨⟨file⟩, 0, 1, 2⟩, file⟩
    let document : Document := ⟨⟨"/a"⟩, "x", "evi"⟩
    let d : LintDiagnostic := ⟨⟨⟨"/a"⟩, 0, 0, 1⟩, "m", .error, [note "b", note "/c"]⟩
    let known := Diagnostic.ofLint (some ⟨"/d"⟩) document d
    (∀ note ∈ d.related, note.isLocated (some ⟨"/d"⟩) = true) ∧
      known.related.map (·.location.uri.text) = ["file:///d/b", "file:///c"] ∧
      List.Forall₂ (RelatedNote.IsShownAs (some ⟨"/d"⟩)) d.related known.related ∧
      known.toJson.member? "relatedInformation" =
        some (.array (known.related.map (·.toJson))) ∧
      (Diagnostic.ofLint none document d).related.map (·.location.uri.text) = ["file:///c"] := by
  intro note document d known
  have hlocated : ∀ note ∈ d.related, note.isLocated (some ⟨"/d"⟩) = true := fun note _ =>
    Bool.or_true _
  obtain ⟨-, -, -, -, hall⟩ := Report.byFile_partitions (some ⟨"/d"⟩) document [d]
  obtain ⟨-, -, -, hnotes⟩ := hall d
  obtain ⟨hshown, hmember⟩ := hnotes hlocated
  exact ⟨hlocated, by decide +kernel, hshown, hmember.trans (if_neg nofun), by decide +kernel⟩

/-- A file is written as it was first. -/
example :
    let found (file : String) : LintDiagnostic := ⟨⟨⟨file⟩, 0, 0, 1⟩, "", .error, []⟩
    ((Report.byFile (some ⟨"/"⟩) ⟨⟨"/b"⟩, "", "evi"⟩ [found "/b", found "/a", found "//b/."]).map
      fun group => (group.1.text, group.2.length)) = [("/b", 2), ("/a", 1)] := by
  decide

end EviAssist
