import EviAssist.Proofs.Validator.History

/-!
# The open documents

A document that is open has the text it was opened with last. Only new texts and closings change
this, and only settings and ends of checks change whether new texts are checked.

* `Validator.find?_accept`, `Validator.find?_close`, `Validator.documents_conclude`: the open
  documents after each operation.
* `Validator.schedules_accept`, `Validator.schedules_close`, `Validator.schedules_of_conclude`:
  whether new texts are checked after it.
* `Validator.KeepsTexts`, `Validator.keepsTexts_after`: every open path has one text, its own.
-/

namespace EviAssist.Validator

variable {v : Validator}

/-! ## Operations -/

theorem find?_accept (v : Validator) (document : Document) (p : Path) :
    (v.accept document).1.documents.find? p =
      if document.isEvi && document.path.same p then some document else v.documents.find? p := by
  unfold accept
  by_cases he : document.isEvi = true
  · simp only [he, if_true, Bool.true_and, PathMap.find?_insert]
  · simp [he]

theorem schedules_accept (v : Validator) (document : Document) :
    (v.accept document).1.schedules = v.schedules := by
  unfold accept
  split <;> rfl

theorem find?_close (v : Validator) (path p : Path) :
    (v.close path).1.documents.find? p =
      if path.same p then none else v.documents.find? p := by
  by_cases ho : v.documents.contains path = true
  · simp only [close, if_pos ho, PathMap.find?_erase]
  · simp only [close, if_neg ho]
    split
    · rename_i hs
      rwa [PathMap.contains_congr _ hs, PathMap.contains_eq_isSome_find?,
        Option.not_isSome_iff_eq_none] at ho
    · rfl

theorem schedules_close (v : Validator) (path : Path) :
    (v.close path).1.schedules = v.schedules := by
  unfold close
  split <;> rfl

theorem documents_conclude (v : Validator) (document : Path) (result : Except LintError Report) :
    (v.conclude document result).1.documents = v.documents := by
  unfold conclude
  split
  · cases result with
    | ok report => rfl
    | error e =>
      simp only [pause]
      split
      · split <;> rfl
      · rfl
  · rfl

/-- The end of a check can stop checking, and never goes on with it. -/
theorem schedules_of_conclude {document : Path} {result : Except LintError Report}
    (h : (v.conclude document result).1.schedules = true) : v.schedules = true := by
  unfold conclude at h
  split at h
  · cases result with
    | ok report => exact h
    | error e =>
      simp only [pause] at h
      split at h
      · split at h
        · exact h
        · rw [schedules, Bool.not_true, Bool.and_false] at h
          cases h
      · exact h
  · exact h

/-! ## Own texts -/

/-- Whether every open path is kept once, with a text of its own in Evi. -/
structure KeepsTexts (v : Validator) : Prop where
  distinct : v.documents.Distinct
  own : ∀ {p document}, v.documents.find? p = some document →
    document.isEvi = true ∧ document.path.same p = true

theorem KeepsTexts.of_mem_values (h : v.KeepsTexts) {document : Document}
    (hm : document ∈ v.documents.values) :
    document.isEvi = true ∧ v.documents.find? document.path = some document := by
  obtain ⟨p, hf⟩ := (PathMap.mem_values_iff h.distinct).1 hm
  obtain ⟨he, hs⟩ := h.own hf
  exact ⟨he, (PathMap.find?_congr _ hs).trans hf⟩

theorem KeepsTexts.of_documents_eq {w : Validator} (h : v.KeepsTexts)
    (hd : w.documents = v.documents) : w.KeepsTexts := by
  refine ⟨?_, ?_⟩
  · rw [hd]
    exact h.distinct
  · rw [hd]
    exact h.own

theorem KeepsTexts.accept (h : v.KeepsTexts) (document : Document) :
    (v.accept document).1.KeepsTexts := by
  refine ⟨?_, ?_⟩
  · unfold Validator.accept
    split
    · exact PathMap.distinct_insert h.distinct _ _
    · exact h.distinct
  · intro p found hf
    rw [find?_accept] at hf
    split at hf
    · rename_i hs
      cases hf
      exact Bool.and_eq_true_iff.1 hs
    · exact h.own hf

theorem KeepsTexts.close (h : v.KeepsTexts) (path : Path) : (v.close path).1.KeepsTexts := by
  refine ⟨?_, ?_⟩
  · unfold Validator.close
    split
    · exact PathMap.distinct_erase h.distinct _
    · exact h.distinct
  · intro p found hf
    rw [find?_close] at hf
    split at hf
    · cases hf
    · exact h.own hf

/-- **Every open path has one text, its own.** -/
theorem keepsTexts_after (directory : Option Path) (settings : ValidationSettings)
    (h : List Section) :
    (after directory settings h).KeepsTexts := by
  induction h with
  | nil => exact ⟨PathMap.distinct_empty, nofun⟩
  | cons s earlier ih =>
    cases s with
    | accept document => exact ih.accept document
    | close path => exact ih.close path
    | reload settings executableChanged => exact ih.of_documents_eq rfl
    | conclude document answer => exact ih.of_documents_eq (documents_conclude _ _ _)

end EviAssist.Validator
