import EviAssist.Proofs.Validator.History

/-!
# No orphans

Three maps go together: a list of files is kept for open documents only, and diagnostics are kept
for files that are open or listed. Every section restores this, in whatever order sections come,
so nothing is left when the last document has closed, and late answers leave nothing either.

* `Validator.isClaimed_iff`, `Validator.isClaimedBeside_iff`: who claims a file.
* `Validator.NoOrphans`: how the maps go together.
* `Validator.noOrphans_run`, `Validator.noOrphans_after`: one section, and all histories.
* `Validator.noOrphans_and_isEmpty`: nothing is left when no document is open.
-/

namespace EviAssist.Validator

/-! ## Claims -/

theorem any_values_published {v : Validator} (hd : v.published.Distinct) (file : Path) :
    (v.published.values.any fun files => files.any (·.same file)) = true ↔
      ∃ d, v.lists d file = true := by
  rw [List.any_eq_true]
  constructor
  · rintro ⟨files, hm, ha⟩
    obtain ⟨d, hf⟩ := (PathMap.mem_values_iff hd).1 hm
    exact ⟨d, by rw [lists, hf]; exact ha⟩
  · rintro ⟨d, hl⟩
    unfold lists at hl
    cases hf : v.published.find? d with
    | none =>
      rw [hf] at hl
      cases hl
    | some files =>
      rw [hf] at hl
      exact ⟨files, (PathMap.mem_values_iff hd).2 ⟨d, hf⟩, hl⟩

/-- **Who claims a file**: it is open itself, or some document lists it. -/
theorem isClaimed_iff {v : Validator} (hd : v.published.Distinct) (file : Path) :
    v.isClaimed file = true ↔ v.documents.contains file = true ∨ ∃ d, v.lists d file = true := by
  rw [isClaimed, Bool.or_eq_true, any_values_published hd]

/-- **Who claims a file beside a document**: it is open itself, or another document lists it. -/
theorem isClaimedBeside_iff {v : Validator} (hd : v.published.Distinct) (document file : Path) :
    v.isClaimedBeside document file = true ↔
      v.documents.contains file = true ∨
        ∃ d, ¬document.same d = true ∧ v.lists d file = true := by
  rw [isClaimedBeside, isClaimed_iff (PathMap.distinct_erase hd document)]
  refine or_congr_right (exists_congr fun d => ?_)
  simp only [lists, PathMap.find?_erase]
  by_cases hs : document.same d <;> simp [hs]

theorem contains_published_of_lists {v : Validator} {d file : Path}
    (h : v.lists d file = true) : v.published.contains d = true := by
  rw [PathMap.contains_eq_isSome_find?]
  unfold lists at h
  cases hf : v.published.find? d with
  | none =>
    rw [hf] at h
    cases h
  | some files => rfl

/-! ## The invariant -/

/-- A list is kept for open documents only, has its document and each file once, and diagnostics
are kept for files that are open or listed by a document that is open. -/
structure NoOrphans (v : Validator) : Prop where
  /-- Every document has one list. -/
  distinct : v.published.Distinct
  /-- Every document with a list is open. -/
  isOpen : ∀ d, v.published.contains d = true → v.documents.contains d = true
  /-- Every list has its document. -/
  own : ∀ d, v.published.contains d = true → v.lists d d = true
  /-- No list has a file twice. -/
  distinctFiles : ∀ d files, v.published.find? d = some files →
    files.Pairwise fun file later => ¬file.same later = true
  /-- No file in the collection is without diagnostics. -/
  proper : v.collection.Proper
  /-- Every file in the collection is open, or listed by a document that is open. -/
  claimed : ∀ file, v.collection.entries.contains file = true →
    v.documents.contains file = true ∨
      ∃ d, v.documents.contains d = true ∧ v.lists d file = true

variable {v : Validator}

theorem noOrphans_start (settings : ValidationSettings) :
    ({ settings } : Validator).NoOrphans where
  distinct := PathMap.distinct_empty
  isOpen := nofun
  own := nofun
  distinctFiles := nofun
  proper := DiagnosticCollection.proper_empty
  claimed := nofun

theorem NoOrphans.isClaimedBeside (h : v.NoOrphans) {document file : Path}
    (hg : v.collection.get file ≠ []) (hb : ¬v.blanks document file = true) :
    ¬document.same file = true ∧
      (v.documents.contains file = true ∨
        ∃ d, ¬document.same d = true ∧ v.documents.contains d = true ∧
          v.lists d file = true) := by
  rw [blanks, Bool.or_eq_true, not_or, Bool.and_eq_true, not_and, Bool.not_eq_true',
    Bool.not_eq_false] at hb
  obtain ⟨hs, hl⟩ := hb
  refine ⟨hs, ?_⟩
  have hopen : ∀ d, v.lists d file = true → v.documents.contains d = true :=
    fun d hd => h.isOpen d (contains_published_of_lists hd)
  obtain ho | ⟨d, hd, hf⟩ := h.claimed file ((h.proper.contains_iff file).2 hg)
  · exact .inl ho
  · by_cases hsd : document.same d
    · have hdoc : v.lists document file = true := by
        rwa [lists, PathMap.find?_congr _ hsd]
      obtain ho | ⟨other, hne, hlo⟩ := (isClaimedBeside_iff h.distinct document file).1 (hl hdoc)
      · exact .inl ho
      · exact .inr ⟨other, hne, hopen other hlo, hlo⟩
    · exact .inr ⟨d, hsd, hd, hf⟩

theorem NoOrphans.accept (h : v.NoOrphans) (document : Document) :
    (v.accept document).1.NoOrphans := by
  unfold Validator.accept
  split
  · have ho : ∀ p, v.documents.contains p = true →
        (v.documents.insert document.path document).contains p = true := by
      intro p hp
      rw [PathMap.contains_insert, hp, Bool.or_true]
    refine ⟨h.distinct, fun d hd => ho d (h.isOpen d hd), h.own, h.distinctFiles, h.proper, ?_⟩
    intro file hf
    refine (h.claimed file hf).imp (ho file) ?_
    rintro ⟨d, hd, hl⟩
    exact ⟨d, ho d hd, hl⟩
  · exact h

theorem NoOrphans.close (h : v.NoOrphans) (path : Path) : (v.close path).1.NoOrphans := by
  by_cases ho : v.documents.contains path = true
  · have hget := get_close v ho
    have hdocs : (v.close path).1.documents = v.documents.erase path := by
      rw [Validator.close, if_pos ho]
    have hpub : (v.close path).1.published = v.published.erase path := by
      rw [Validator.close, if_pos ho]
    have hproper : (v.close path).1.collection.Proper := by
      rw [Validator.close, if_pos ho]
      exact h.proper.deleteAll _
    refine ⟨?_, ?_, ?_, ?_, hproper, ?_⟩
    · rw [hpub]
      exact PathMap.distinct_erase h.distinct path
    · intro d hd
      rw [hpub, PathMap.contains_erase, Bool.and_eq_true] at hd
      rw [hdocs, PathMap.contains_erase, hd.1, h.isOpen d hd.2, Bool.and_self]
    · intro d hd
      rw [hpub, PathMap.contains_erase, Bool.and_eq_true, Bool.not_eq_true'] at hd
      rw [lists, hpub, PathMap.find?_erase, hd.1]
      exact h.own d hd.2
    · intro d files hf
      rw [hpub, PathMap.find?_erase] at hf
      split at hf
      · cases hf
      · exact h.distinctFiles d files hf
    · intro file hf
      rw [hproper.contains_iff, hget] at hf
      split at hf
      · exact absurd rfl hf
      · rename_i hb
        obtain ⟨hs, hc⟩ := h.isClaimedBeside hf hb
        simp only [lists, hdocs, hpub, PathMap.contains_erase, PathMap.find?_erase, hs]
        refine hc.imp id ?_
        rintro ⟨d, hne, hd, hl⟩
        refine ⟨d, by simp [hne, hd], ?_⟩
        rwa [if_neg hne]
  · rw [Validator.close, if_neg ho]
    exact h

theorem NoOrphans.publish (h : v.NoOrphans) {document : Path} {report : Report}
    (ho : v.documents.contains document = true) (hr : report.Distinct) :
    (v.publish document report).1.NoOrphans := by
  have hproper : (v.publish document report).1.collection.Proper := h.proper.setAll _
  have hpub : (v.publish document report).1.published =
      (v.published.erase document).insert document
        ((v.groupsOf document report).map (·.1)) := rfl
  have hcontains : ∀ d, (v.publish document report).1.published.contains d = true →
      document.same d = true ∨ v.published.contains d = true := by
    intro d hd
    rw [hpub, PathMap.contains_insert, PathMap.contains_erase, Bool.or_eq_true,
      Bool.and_eq_true] at hd
    exact hd.imp_right And.right
  refine ⟨?_, ?_, ?_, ?_, hproper, ?_⟩
  · exact PathMap.distinct_insert (PathMap.distinct_erase h.distinct document) _ _
  · intro d hd
    obtain hs | hd := hcontains d hd
    · exact (PathMap.contains_congr v.documents hs).symm.trans ho
    · exact h.isOpen d hd
  · intro d hd
    rw [lists_publish]
    split
    · rename_i hs
      rw [blanks, hs, Bool.true_or, Bool.or_true]
    · rename_i hs
      exact h.own d ((hcontains d hd).resolve_left hs)
  · intro d files hf
    rw [hpub, PathMap.find?_insert, PathMap.find?_erase] at hf
    split at hf
    · cases hf
      exact List.pairwise_map.2 (v.distinct_groupsOf document hr)
    · exact h.distinctFiles d files hf
  · intro file hf
    rw [hproper.contains_iff, get_publish v document hr] at hf
    by_cases hm : report.mentions file = true
    · exact .inr ⟨document, ho, by rw [lists_publish, if_pos (Path.same_self _), hm]; rfl⟩
    · rw [Report.group?_eq_none_iff.2 hm, Option.getD_none] at hf
      split at hf
      · exact absurd rfl hf
      · -- A file that is not mentioned keeps its diagnostics when somebody else claims it.
        rename_i hb
        refine (h.isClaimedBeside hf hb).2.imp id ?_
        rintro ⟨d, hne, hd, hl⟩
        exact ⟨d, hd, by rwa [lists_publish, if_neg hne]⟩

/-! ## Histories -/

/-- **Every section leaves no orphans.** -/
theorem noOrphans_run (directory : Option Path) (h : v.NoOrphans) (s : Section) :
    (s.run directory v).1.NoOrphans := by
  cases s with
  | accept document => exact h.accept document
  | close path => exact h.close path
  | reload settings executableChanged =>
    exact ⟨PathMap.distinct_empty, nofun, nofun, nofun, DiagnosticCollection.proper_empty, nofun⟩
  | conclude document answer =>
    cases hp : (Section.conclude document answer).published? directory v with
    | some found =>
      obtain ⟨ho, hr⟩ := Section.run_of_published? hp
      rw [hr]
      exact h.publish ho (Section.distinct_of_published? hp)
    | none =>
      obtain hr | ⟨text, hr⟩ := Section.run_conclude_of_published?_eq_none hp <;> rw [hr]
      · exact h
      · exact ⟨h.distinct, h.isOpen, h.own, h.distinctFiles, h.proper, h.claimed⟩

/-- **No history leaves orphans.** -/
theorem noOrphans_after (directory : Option Path) (settings : ValidationSettings)
    (h : List Section) :
    (after directory settings h).NoOrphans := by
  induction h with
  | nil => exact noOrphans_start settings
  | cons s earlier ih => exact noOrphans_run directory ih s

theorem NoOrphans.isEmpty (h : v.NoOrphans) (hc : ∀ p, v.documents.contains p = false) :
    v.collection.isEmpty = true := by
  refine DiagnosticCollection.isEmpty_of_contains fun file => ?_
  rw [← Bool.not_eq_true]
  intro hf
  obtain ho | ⟨d, ho, -⟩ := h.claimed file hf
  · rw [hc file] at ho
    cases ho
  · rw [hc d] at ho
    cases ho

variable {directory : Option Path} {settings : ValidationSettings}

theorem contains_after_of_opens? {h later : List Section}
    (hc : ∀ p, (after directory settings h).documents.contains p = false)
    (hl : ∀ s ∈ later, ∀ p, s.opens? p ≠ some true) (p : Path) :
    (after directory settings (later ++ h)).documents.contains p = false := by
  induction later with
  | nil => exact hc p
  | cons s later ih =>
    rw [List.cons_append, after, Section.contains_run,
      ih fun s' hs => hl s' (List.mem_cons_of_mem _ hs)]
    have hs := hl s List.mem_cons_self p
    cases ho : s.opens? p with
    | none => rfl
    | some o =>
      rw [ho] at hs
      simpa using hs

/-- **No orphans.** In every history lists are kept for open documents only and have each file
once, and every file in the collection has diagnostics and is claimed by an open document. When no
document is open nothing is in the collection, whatever checks end after that. -/
theorem noOrphans_and_isEmpty (directory : Option Path) (settings : ValidationSettings)
    (h : List Section) :
    (after directory settings h).NoOrphans ∧
      (∀ file, (after directory settings h).collection.entries.contains file = true →
        (after directory settings h).isClaimed file = true) ∧
      ((∀ p, (after directory settings h).documents.contains p = false) →
        ∀ later, (∀ s ∈ later, ∀ p, s.opens? p ≠ some true) →
          (after directory settings (later ++ h)).collection.isEmpty = true) := by
  have hn := noOrphans_after directory settings h
  refine ⟨hn, fun file hf => ?_, fun hc later hl => ?_⟩
  · rw [isClaimed_iff hn.distinct]
    refine (hn.claimed file hf).imp id ?_
    rintro ⟨d, -, hd⟩
    exact ⟨d, hd⟩
  · exact (noOrphans_after directory settings _).isEmpty (contains_after_of_opens? hc hl)

end EviAssist.Validator
