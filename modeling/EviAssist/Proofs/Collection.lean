import EviAssist.Validator
import EviAssist.Proofs.Report

/-!
# Laws of the diagnostic collection

What the collection has for a file after each of its changes.

* `DiagnosticCollection.get_set`, `get_delete`, `get_deleteAll`: after a change of some files.
* `DiagnosticCollection.get_setAll`: after a report with distinct files.
* `DiagnosticCollection.deleteAll_files`: nothing is left when all files with an entry go.
* `DiagnosticCollection.Proper`: every file with an entry has diagnostics.
-/

namespace EviAssist.DiagnosticCollection

theorem get_delete (c : DiagnosticCollection) (file f : Path) :
    (c.delete file).get f = if file.same f then [] else c.get f := by
  rw [get, delete, PathMap.find?_erase]
  split <;> rfl

theorem get_set (c : DiagnosticCollection) (file : Path) (ds : List Diagnostic) (f : Path) :
    (c.set file ds).get f = if file.same f then ds else c.get f := by
  unfold set
  split
  · rename_i h
    rw [List.isEmpty_iff.1 h]
    exact get_delete c file f
  · rw [get, PathMap.find?_insert]
    split <;> rfl

theorem get_deleteAll (c : DiagnosticCollection) (files : List Path) (f : Path) :
    (c.deleteAll files).get f = if files.any (·.same f) then [] else c.get f := by
  induction files generalizing c with
  | nil => rfl
  | cons file rest ih =>
    rw [deleteAll, List.foldl_cons, ← deleteAll, ih, get_delete, List.any_cons]
    by_cases h : file.same f <;> simp [h]

/-- **After a report every file has its group, and a file without a group what it had.** -/
theorem get_setAll {report : Report} (hd : report.Distinct) (c : DiagnosticCollection) (f : Path) :
    (c.setAll report).get f = (report.group? f).getD (c.get f) := by
  induction report generalizing c with
  | nil => rfl
  | cons group rest ih =>
    obtain ⟨hm, hr⟩ := Report.distinct_cons.1 hd
    rw [setAll, List.foldl_cons, ← setAll, ih hr, get_set, Report.group?_cons]
    split
    · rename_i hs
      rw [Report.mentions_congr _ hs] at hm
      rw [Report.group?_eq_none_iff.2 hm]
      rfl
    · rfl

theorem entries_deleteAll (c : DiagnosticCollection) (files : List Path) :
    (c.deleteAll files).entries.entries =
      c.entries.entries.filter fun entry => !files.any (·.same entry.1) := by
  induction files generalizing c with
  | nil => exact (List.filter_eq_self.2 fun _ _ => rfl).symm
  | cons file rest ih =>
    rw [deleteAll, List.foldl_cons, ← deleteAll, ih, delete, PathMap.erase, List.filter_filter]
    refine List.filter_congr fun entry _ => ?_
    rw [List.any_cons, Bool.not_or, Path.same_comm, Bool.and_comm]

/-- **Nothing is left when all files that have an entry go.** -/
theorem deleteAll_files (c : DiagnosticCollection) : c.deleteAll c.files = {} := by
  have h : (c.deleteAll c.files).entries.entries = [] := by
    rw [entries_deleteAll, List.filter_eq_nil_iff]
    intro entry he
    rw [Bool.not_eq_true', Bool.not_eq_false, List.any_eq_true]
    exact ⟨entry.1, List.mem_map_of_mem he, Path.same_self _⟩
  exact congrArg (fun entries => DiagnosticCollection.mk ⟨entries⟩) h

/-! ## Entries without diagnostics -/

/-- Whether every file with an entry has diagnostics. -/
def Proper (c : DiagnosticCollection) : Prop :=
  ∀ file ds, c.entries.find? file = some ds → ds ≠ []

theorem proper_empty : ({} : DiagnosticCollection).Proper :=
  fun _ _ h => nomatch h

theorem Proper.delete {c : DiagnosticCollection} (h : c.Proper) (file : Path) :
    (c.delete file).Proper := by
  intro f ds hf
  rw [DiagnosticCollection.delete, PathMap.find?_erase] at hf
  split at hf
  · cases hf
  · exact h f ds hf

theorem Proper.set {c : DiagnosticCollection} (h : c.Proper) (file : Path)
    (ds : List Diagnostic) : (c.set file ds).Proper := by
  unfold DiagnosticCollection.set
  split
  · exact h.delete file
  · rename_i hne
    intro f ds' hf
    rw [PathMap.find?_insert] at hf
    split at hf
    · cases hf
      exact fun he => hne (List.isEmpty_iff.2 he)
    · exact h f ds' hf

theorem Proper.deleteAll {c : DiagnosticCollection} (h : c.Proper) (files : List Path) :
    (c.deleteAll files).Proper := by
  induction files generalizing c with
  | nil => exact h
  | cons file rest ih => exact ih (h.delete file)

theorem Proper.setAll {c : DiagnosticCollection} (h : c.Proper) (report : Report) :
    (c.setAll report).Proper := by
  induction report generalizing c with
  | nil => exact h
  | cons group rest ih => exact ih (h.set group.1 group.2)

/-- **The files with an entry are those with diagnostics.** -/
theorem Proper.contains_iff {c : DiagnosticCollection} (h : c.Proper) (file : Path) :
    c.entries.contains file = true ↔ c.get file ≠ [] := by
  rw [PathMap.contains_eq_isSome_find?, get]
  cases hf : c.entries.find? file with
  | none => simp
  | some ds => simpa using h file ds hf

theorem isEmpty_of_contains {c : DiagnosticCollection}
    (h : ∀ file, c.entries.contains file = false) : c.isEmpty = true := by
  rw [isEmpty, PathMap.isEmpty, List.isEmpty_iff, List.eq_nil_iff_forall_not_mem]
  intro entry he
  have hc : c.entries.contains entry.1 = true :=
    List.any_eq_true.2 ⟨entry, he, Path.same_self _⟩
  rw [h] at hc
  cases hc

end EviAssist.DiagnosticCollection
