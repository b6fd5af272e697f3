import EviAssist.Proofs.Validator.Documents
import Mathlib.Tactic.ByContra

/-!
# Documents while settings change

New settings apply in one section, which copies the open documents; each copy is then accepted again
in a section of its own. In between others open, change and close documents. A history lists the
sections after the first one, the newest first.

* `Validator.Reloading`, `Reloading.start`, `Reloading.run?`: the validator and the copies that are
  still in hand.
* `Reloading.latest?`: what texts and closings alone make of a path.
* `Reloading.PutsBack`, `Reloading.find?_ne_latest?_iff`: when a path is left otherwise.
-/

namespace EviAssist.Validator

/-- The validator while settings change, and the copies that are still to be accepted again. -/
structure Reloading where
  validator : Validator
  copies : List Document

namespace Reloading

/-! ## Sections -/

/-- A section that takes place while settings change. -/
inductive Step where
  /-- A document is open with a new text. -/
  | accept (document : Document)
  /-- A document is closed. -/
  | close (path : Path)
  /-- A copy is accepted again. -/
  | restore (copy : Document)

/-- New settings apply, and the open documents are copied. -/
def start (v : Validator) (settings : ValidationSettings) (executableChanged : Bool) : Reloading :=
  ⟨(v.reload settings executableChanged).1, v.documents.values⟩

/-- What a section does; a copy must be in hand. -/
def step? (r : Reloading) : Step → Option Reloading
  | .accept document => some { r with validator := (r.validator.accept document).1 }
  | .close path => some { r with validator := (r.validator.close path).1 }
  | .restore copy =>
    if copy ∈ r.copies then some ⟨(r.validator.accept copy).1, r.copies.erase copy⟩ else none

/-- What the sections of a history do. -/
def run? (r : Reloading) : List Step → Option Reloading
  | [] => some r
  | s :: earlier => do (← r.run? earlier).step? s

/-- Whether a section opens, changes or closes a path for someone else. -/
def Step.concerns (p : Path) : Step → Bool
  | accept document => document.isEvi && document.path.same p
  | close path => path.same p
  | restore _ => false

/-- What texts and closings alone make of a path. -/
def latest? (v : Validator) (p : Path) : List Step → Option Document
  | [] => v.documents.find? p
  | .accept document :: earlier =>
    if document.isEvi && document.path.same p then some document else latest? v p earlier
  | .close path :: earlier => if path.same p then none else latest? v p earlier
  | .restore _ :: earlier => latest? v p earlier

variable {v : Validator} {settings : ValidationSettings} {executableChanged : Bool}
  {h : List Step} {r : Reloading} {p : Path}

theorem latest?_cons {s : Step} (hs : s.concerns p = false) :
    latest? v p (s :: h) = latest? v p h := by
  cases s with
  | accept document => exact if_neg (Bool.eq_false_iff.1 hs)
  | close path => exact if_neg (Bool.eq_false_iff.1 hs)
  | restore copy => rfl

theorem latest?_append {later : List Step} (hl : ∀ s ∈ later, s.concerns p = false)
    (earlier : List Step) :
    latest? v p (later ++ earlier) = latest? v p earlier := by
  induction later with
  | nil => rfl
  | cons s later ih =>
    obtain ⟨hs, hl⟩ := List.forall_mem_cons.1 hl
    rw [List.cons_append, latest?_cons hs, ih hl]

/-! ## Runs -/

theorem exists_of_run?_cons {s : Step}
    (hr : (start v settings executableChanged).run? (s :: h) = some r) :
    ∃ before, (start v settings executableChanged).run? h = some before ∧ before.step? s = some r :=
  Option.bind_eq_some_iff.1 hr

theorem mem_values_of_mem_copies (hr : (start v settings executableChanged).run? h = some r) :
    ∀ copy ∈ r.copies, copy ∈ v.documents.values := by
  induction h generalizing r with
  | nil =>
    cases hr
    exact fun _ hm => hm
  | cons s earlier ih =>
    obtain ⟨before, hbefore, hstep⟩ := exists_of_run?_cons hr
    cases s with
    | accept document =>
      cases hstep
      exact fun copy hm => ih hbefore copy hm
    | close path =>
      cases hstep
      exact fun copy hm => ih hbefore copy hm
    | restore copy =>
      simp only [step?] at hstep
      split at hstep
      · cases hstep
        exact fun other hm => ih hbefore other (List.mem_of_mem_erase hm)
      · cases hstep

theorem mem_values_of_restore (later : List Step) {copy : Document} {earlier : List Step}
    (hr : (start v settings executableChanged).run? (later ++ .restore copy :: earlier) = some r) :
    copy ∈ v.documents.values := by
  induction later generalizing r with
  | nil =>
    obtain ⟨before, hbefore, hstep⟩ := exists_of_run?_cons hr
    simp only [step?] at hstep
    split at hstep
    · exact mem_values_of_mem_copies hbefore copy ‹_›
    · cases hstep
  | cons s later ih =>
    obtain ⟨before, hbefore, -⟩ := exists_of_run?_cons hr
    exact ih hbefore

theorem find?_step? {s : Step} {before : Reloading} (hstep : before.step? s = some r)
    (hs : s.concerns p = false) (hrestore : ∀ copy, s = .restore copy → copy.path.same p = false) :
    r.validator.documents.find? p = before.validator.documents.find? p := by
  cases s with
  | accept document =>
    cases hstep
    exact (find?_accept _ _ _).trans (if_neg (Bool.eq_false_iff.1 hs))
  | close path =>
    cases hstep
    exact (find?_close _ _ _).trans (if_neg (Bool.eq_false_iff.1 hs))
  | restore copy =>
    simp only [step?] at hstep
    split at hstep
    · cases hstep
      rw [find?_accept, hrestore copy rfl, Bool.and_false]
      rfl
    · cases hstep

theorem find?_of_concerns {s : Step} {before : Reloading} (hstep : before.step? s = some r)
    (hs : s.concerns p = true) : r.validator.documents.find? p = latest? v p (s :: h) := by
  cases s with
  | accept document =>
    cases hstep
    exact (find?_accept _ _ _).trans ((if_pos hs).trans (if_pos hs).symm)
  | close path =>
    cases hstep
    exact (find?_close _ _ _).trans ((if_pos hs).trans (if_pos hs).symm)
  | restore copy => cases hs

theorem find?_restore (hv : v.KeepsTexts) {copy : Document}
    (hr : (start v settings executableChanged).run? (.restore copy :: h) = some r)
    (hp : copy.path.same p = true) : r.validator.documents.find? p = some copy := by
  obtain ⟨he, -⟩ := hv.of_mem_values (mem_values_of_restore [] hr)
  obtain ⟨before, -, hstep⟩ := exists_of_run?_cons hr
  simp only [step?] at hstep
  split at hstep
  · cases hstep
    rw [find?_accept, he, hp]
    rfl
  · cases hstep

/-! ## What is put back -/

/-- Whether the copy of a path is accepted again after the last text and the last closing, and they
had left something else. -/
def PutsBack (v : Validator) (p : Path) (h : List Step) : Prop :=
  ∃ copy later earlier, h = later ++ .restore copy :: earlier ∧ copy.path.same p = true ∧
    (∀ s ∈ later, s.concerns p = false) ∧ latest? v p earlier ≠ some copy

theorem not_putsBack_nil : ¬PutsBack v p [] := by
  rintro ⟨copy, later, earlier, heq, -⟩
  cases later <;> cases heq

theorem not_putsBack_of_concerns {s : Step} (hs : s.concerns p = true) :
    ¬PutsBack v p (s :: h) := by
  rintro ⟨copy, _ | ⟨s', later⟩, earlier, heq, -, hlater, -⟩
  · cases heq
    cases hs
  · cases heq
    rw [hlater s (.head _)] at hs
    cases hs

theorem putsBack_cons_iff {s : Step} (hs : s.concerns p = false)
    (hrestore : ∀ copy, s = .restore copy → copy.path.same p = false) :
    PutsBack v p (s :: h) ↔ PutsBack v p h := by
  constructor
  · rintro ⟨copy, _ | ⟨s', later⟩, earlier, heq, hp, hlater, hne⟩
    · cases heq
      rw [hrestore copy rfl] at hp
      cases hp
    · cases heq
      exact ⟨copy, later, earlier, rfl, hp, (List.forall_mem_cons.1 hlater).2, hne⟩
  · rintro ⟨copy, later, earlier, rfl, hp, hlater, hne⟩
    exact ⟨copy, s :: later, earlier, rfl, hp, List.forall_mem_cons.2 ⟨hs, hlater⟩, hne⟩

/-- Copies of one path that are accepted again were both open under it, so they are the same. -/
theorem putsBack_restore_iff (hv : v.KeepsTexts) {copy : Document}
    (hr : (start v settings executableChanged).run? (.restore copy :: h) = some r)
    (hp : copy.path.same p = true) :
    PutsBack v p (.restore copy :: h) ↔ latest? v p h ≠ some copy := by
  constructor
  · rintro ⟨other, _ | ⟨s', later⟩, earlier, heq, hother, hlater, hne⟩
    · cases heq
      exact hne
    · cases heq
      obtain ⟨-, hcopied⟩ := hv.of_mem_values (mem_values_of_restore [] hr)
      obtain ⟨-, hother'⟩ := hv.of_mem_values (mem_values_of_restore (.restore copy :: later) hr)
      rw [PathMap.find?_congr _ hp] at hcopied
      rw [PathMap.find?_congr _ hother, hcopied] at hother'
      cases hother'
      have hlatest : latest? v p (later ++ .restore copy :: earlier) = latest? v p earlier :=
        (latest?_append (List.forall_mem_cons.1 hlater).2 _).trans (latest?_cons rfl)
      exact fun hlast => hne (hlatest.symm.trans hlast)
  · exact fun hne => ⟨copy, [], h, rfl, hp, List.forall_mem_nil _, hne⟩

/-- **A path is left otherwise than texts and closings alone leave it exactly when its copy is
accepted again after the last of them, and they had left something else.** -/
theorem find?_ne_latest?_iff (hv : v.KeepsTexts)
    (hr : (start v settings executableChanged).run? h = some r) (p : Path) :
    r.validator.documents.find? p ≠ latest? v p h ↔ PutsBack v p h := by
  induction h generalizing r with
  | nil =>
    cases hr
    exact iff_of_false (fun hne => hne rfl) not_putsBack_nil
  | cons s h ih =>
    obtain ⟨before, hbefore, hstep⟩ := exists_of_run?_cons hr
    by_cases hs : s.concerns p = true
    · exact iff_of_false (fun hne => hne (find?_of_concerns hstep hs)) (not_putsBack_of_concerns hs)
    rw [Bool.not_eq_true] at hs
    by_cases hcopy : ∃ copy, s = .restore copy ∧ copy.path.same p = true
    · obtain ⟨copy, rfl, hp⟩ := hcopy
      rw [putsBack_restore_iff hv hr hp, find?_restore hv hr hp, latest?_cons rfl]
      exact ne_comm
    · have hrestore : ∀ copy, s = .restore copy → copy.path.same p = false :=
        fun copy heq => Bool.eq_false_iff.2 fun hp => hcopy ⟨copy, heq, hp⟩
      rw [find?_step? hstep hs hrestore, latest?_cons hs, ih hbefore, putsBack_cons_iff hs hrestore]

/-- What nobody else concerns itself with stays as it was. -/
theorem find?_eq_of_forall (hv : v.KeepsTexts)
    (hr : (start v settings executableChanged).run? h = some r)
    (hh : ∀ s ∈ h, s.concerns p = false) :
    r.validator.documents.find? p = v.documents.find? p := by
  have hlatest (later : List Step) (hl : ∀ s ∈ later, s.concerns p = false) :
      latest? v p later = v.documents.find? p := by
    have happend : latest? v p (later ++ []) = latest? v p [] := latest?_append hl []
    rwa [List.append_nil] at happend
  by_contra hne
  rw [← hlatest h hh] at hne
  obtain ⟨copy, later, earlier, rfl, hp, -, hcopy⟩ := (find?_ne_latest?_iff hv hr p).1 hne
  obtain ⟨-, hfound⟩ := hv.of_mem_values (mem_values_of_restore later hr)
  rw [PathMap.find?_congr _ hp] at hfound
  rw [hlatest earlier fun s hm => hh s (List.mem_append_right _ (.tail _ hm)), hfound] at hcopy
  exact hcopy rfl

/-- A document that is closed before its copy is accepted again is open afterwards, and one that is
changed before it has its old text. -/
theorem reopens_and_forgets :
    let closed : Document := ⟨⟨"/a.evi"⟩, "closed", "evi"⟩
    let old : Document := ⟨⟨"/b.evi"⟩, "old text", "evi"⟩
    let new : Document := ⟨⟨"/b.evi"⟩, "new text", "evi"⟩
    let v := after (some ⟨"/"⟩) {} [.accept old, .accept closed]
    let h : List Step := [.restore old, .restore closed, .close closed.path, .accept new]
    ∃ r, (start v {} false).run? h = some r ∧ r.copies = [] ∧
      r.validator.documents.find? closed.path ≠ latest? v closed.path h ∧
      r.validator.documents.find? old.path ≠ latest? v old.path h ∧
      latest? v closed.path h = none ∧ latest? v old.path h = some new := by
  intro closed old new v h
  have hv : v.KeepsTexts := keepsTexts_after _ _ _
  have hclosed : latest? v closed.path h = none := by decide
  have hold : latest? v old.path h = some new := by decide
  obtain ⟨r, hr, hcopies⟩ : ∃ r, (start v {} false).run? h = some r ∧ r.copies = [] := by
    have hcopies : ((start v {} false).run? h).map (·.copies) = some [] := by decide
    exact Option.map_eq_some_iff.1 hcopies
  refine ⟨r, hr, hcopies, ?_, ?_, hclosed, hold⟩
  · exact (find?_ne_latest?_iff hv hr closed.path).2
      ⟨closed, [.restore old], [.close closed.path, .accept new], rfl, by decide, by decide,
        by decide⟩
  · exact (find?_ne_latest?_iff hv hr old.path).2
      ⟨old, [], [.restore closed, .close closed.path, .accept new], rfl, by decide, by decide,
        by decide⟩

end Reloading

end EviAssist.Validator
