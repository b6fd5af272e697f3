import EviAssist.Proofs.Collection

/-!
# Reports and closings

What a report of a document, and its closing, do to the collection. Either of them lets go of the
files that the last report of the document was about; what then goes is told by `blanks`.

* `Validator.lists`, `Validator.isClaimedBeside`, `Validator.blanks`: who reports into a file, and
  whether it goes with the last report of a document.
* `Validator.groupsOf`: the groups that a report leads to.
* `Validator.get_publish`, `Validator.get_close`: the collection after a report and after a
  closing.
* `Validator.lists_publish`: what is listed after a report.
-/

namespace EviAssist.Validator

/-! ## Claims -/

/-- Whether the last check of a document reported into a file, as far as the validator knows. -/
def lists (v : Validator) (document file : Path) : Bool :=
  ((v.published.find? document).getD []).any (·.same file)

/-- Whether a file is open, or a document other than the given one reports into it. -/
def isClaimedBeside (v : Validator) (document file : Path) : Bool :=
  { v with published := v.published.erase document }.isClaimed file

/-- Whether a file goes with the last report of a document: it is the document itself, or listed
and claimed by nobody else. -/
def blanks (v : Validator) (document file : Path) : Bool :=
  document.same file || (v.lists document file && !v.isClaimedBeside document file)

theorem isClaimed_congr (v : Validator) {p q : Path} (h : p.same q = true) :
    v.isClaimed p = v.isClaimed q := by
  simp only [isClaimed, PathMap.contains_congr _ h, Path.same_congr_right h]

/-! ## Publishing a report -/

/-- Adds an empty group for a file, unless the file is mentioned or claimed already. -/
def addBlank (rest : Validator) (groups : Report) (file : Path) : Report :=
  if groups.mentions file || rest.isClaimed file then groups else groups ++ [(file, [])]

theorem group?_addBlank (rest : Validator) (groups : Report) (file f : Path) :
    (rest.addBlank groups file).group? f =
      (groups.group? f).or (if file.same f && !rest.isClaimed f then some [] else none) := by
  unfold addBlank
  by_cases hs : file.same f
  · rw [Report.mentions_congr _ hs, isClaimed_congr _ hs, Report.mentions_eq_isSome_group?]
    cases hg : groups.group? f with
    | some ds => simp [hg]
    | none =>
      by_cases hf : rest.isClaimed f
      · simp [hf, hg]
      · simp [hf, hg, hs, Report.group?_append, Report.group?_cons]
  · split
    · simp [hs]
    · simp [hs, Report.group?_append, Report.group?_cons]

theorem distinct_addBlank (rest : Validator) {groups : Report} (hd : groups.Distinct)
    (file : Path) : (rest.addBlank groups file).Distinct := by
  unfold addBlank
  split
  · exact hd
  · rename_i h
    rw [Bool.or_eq_true, not_or] at h
    exact Report.distinct_append_singleton hd h.1 []

theorem group?_foldl_addBlank (rest : Validator) (previous : List Path) (groups : Report)
    (f : Path) :
    (previous.foldl rest.addBlank groups).group? f =
      (groups.group? f).or
        (if previous.any (·.same f) && !rest.isClaimed f then some [] else none) := by
  induction previous generalizing groups with
  | nil => simp
  | cons file later ih =>
    rw [List.foldl_cons, ih, group?_addBlank, Option.or_assoc, List.any_cons]
    by_cases hs : file.same f <;> by_cases hf : rest.isClaimed f <;> simp [hs, hf]

theorem distinct_foldl_addBlank (rest : Validator) (previous : List Path) {groups : Report}
    (hd : groups.Distinct) : (previous.foldl rest.addBlank groups).Distinct := by
  induction previous generalizing groups with
  | nil => exact hd
  | cons file later ih => exact ih (distinct_addBlank rest hd file)

/-- A report with a group for the document itself. -/
def withOwn (document : Path) (report : Report) : Report :=
  if report.mentions document then report else report ++ [(document, [])]

theorem group?_withOwn (document : Path) (report : Report) (f : Path) :
    (withOwn document report).group? f =
      (report.group? f).or (if document.same f then some [] else none) := by
  unfold withOwn
  split
  · rename_i hm
    by_cases hs : document.same f
    · rw [Report.mentions_congr _ hs, Report.mentions_eq_isSome_group?] at hm
      obtain ⟨ds, hds⟩ := Option.isSome_iff_exists.1 hm
      rw [hds, Option.some_or]
    · rw [if_neg hs, Option.or_none]
  · rw [Report.group?_append, Report.group?_cons, Report.group?_nil]

theorem distinct_withOwn (document : Path) {report : Report} (hd : report.Distinct) :
    (withOwn document report).Distinct := by
  unfold withOwn
  split
  · exact hd
  · rename_i hm
    exact Report.distinct_append_singleton hd hm []

/-- The groups that a report of a document leads to. -/
def groupsOf (v : Validator) (document : Path) (report : Report) : Report :=
  { v with published := v.published.erase document }.groups document
    ((v.published.find? document).getD []) report

/-- **The groups to publish**: those of the report, and empty ones for what goes. -/
theorem group?_groupsOf (v : Validator) (document : Path) (report : Report) (f : Path) :
    (v.groupsOf document report).group? f =
      (report.group? f).or (if v.blanks document f then some [] else none) := by
  rw [groupsOf, groups]
  change (List.foldl (addBlank _) (withOwn document report) _).group? f = _
  rw [group?_foldl_addBlank, group?_withOwn, Option.or_assoc, blanks]
  congr 1
  by_cases hs : document.same f
  · simp [hs]
  · rw [if_neg hs, Option.none_or]
    simp only [hs, Bool.false_or]
    rfl

theorem distinct_groupsOf (v : Validator) (document : Path) {report : Report}
    (hd : report.Distinct) : (v.groupsOf document report).Distinct :=
  distinct_foldl_addBlank _ _ (distinct_withOwn document hd)

theorem mentions_groupsOf (v : Validator) (document : Path) (report : Report) (f : Path) :
    (v.groupsOf document report).mentions f = (report.mentions f || v.blanks document f) := by
  rw [Report.mentions_eq_isSome_group?, group?_groupsOf, Report.mentions_eq_isSome_group?,
    Option.isSome_or]
  by_cases h : v.blanks document f <;> simp [h]

/-- **The collection after a report.** -/
theorem get_publish (v : Validator) (document : Path) {report : Report} (hd : report.Distinct)
    (f : Path) :
    (v.publish document report).1.collection.get f =
      (report.group? f).getD (if v.blanks document f then [] else v.collection.get f) := by
  have h : (v.publish document report).1.collection =
      v.collection.setAll (v.groupsOf document report) := rfl
  rw [h, DiagnosticCollection.get_setAll (v.distinct_groupsOf document hd), group?_groupsOf]
  cases report.group? f with
  | some ds => rfl
  | none =>
    by_cases hb : v.blanks document f <;> simp [hb]

/-- **What is listed after a report.** -/
theorem lists_publish (v : Validator) (document : Path) (report : Report) (d f : Path) :
    (v.publish document report).1.lists d f =
      if document.same d then report.mentions f || v.blanks document f else v.lists d f := by
  have h : (v.publish document report).1.published =
      (v.published.erase document).insert document
        ((v.groupsOf document report).map (·.1)) := rfl
  rw [lists, h, PathMap.find?_insert]
  split
  · rw [Option.getD_some, Report.any_same_map_fst, mentions_groupsOf]
  · rename_i hs
    rw [PathMap.find?_erase, if_neg hs, lists]

/-! ## Closing a document -/

/-- The validator without a document, its collection left as it is. -/
def without (v : Validator) (path : Path) : Validator :=
  { v with documents := v.documents.erase path, published := v.published.erase path }

theorem isClaimed_without (v : Validator) {path f : Path} (hs : ¬path.same f = true) :
    (v.without path).isClaimed f = v.isClaimedBeside path f := by
  simp [without, isClaimedBeside, isClaimed, PathMap.contains_erase, hs]

theorem any_and_same {p : Path → Bool} {f : Path}
    (hp : ∀ file, file.same f = true → p file = p f) (files : List Path) :
    (files.any fun file => p file && file.same f) = (files.any (·.same f) && p f) := by
  induction files with
  | nil => rfl
  | cons file rest ih =>
    rw [List.any_cons, List.any_cons, ih, Bool.and_or_distrib_right]
    by_cases hf : file.same f
    · rw [hp file hf, hf, Bool.and_true, Bool.true_and]
    · simp [hf]

/-- **The collection after a closing.** -/
theorem get_close (v : Validator) {path : Path} (ho : v.documents.contains path = true)
    (f : Path) :
    (v.close path).1.collection.get f =
      if v.blanks path f then [] else v.collection.get f := by
  have h : (v.close path).1.collection = v.collection.deleteAll
      (path :: ((v.published.find? path).getD []).filter fun file =>
        !file.same path && !(v.without path).isClaimed file) := by
    rw [close, if_pos ho]
    rfl
  rw [h, DiagnosticCollection.get_deleteAll, List.any_cons, List.any_filter]
  congr 1
  by_cases hs : path.same f
  · simp [hs, blanks]
  · have hp : f.same path = false := by
      rw [Path.same_comm]
      exact Bool.eq_false_iff.2 hs
    rw [any_and_same, isClaimed_without v hs, hp, blanks, lists]
    · rfl
    · intro file hf
      rw [Path.same_congr hf, isClaimed_congr _ hf]

end EviAssist.Validator
