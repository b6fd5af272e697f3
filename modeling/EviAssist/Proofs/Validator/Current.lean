import EviAssist.Proofs.Validator.History
import Mathlib.Tactic.ByContra

/-!
# Where the diagnostics of a file come from

An entry of the collection is current as long as the last report of some open document has the
same group for the file. The entry is that of the latest report about the file, and it stays
current until the last document with this group lets go of the file while somebody else claims
it: then the entry is left as it is, although no document reports it any more.

* `Validator.latestGroup?`: what the latest report about a file has for it.
* `Validator.Shows`, `Validator.IsCurrent`: whether an entry is the one of the last report of a
  document, and of any open one.
* `Validator.IsAbandoned`: whether the last document that shows an entry has let go of it.
* `Validator.current_iff_not_abandoned`: when an entry is current.
-/

namespace EviAssist.Validator

/-! ## Letting go -/

/-- Whether a section publishes a report about a file. -/
def Section.reports (directory : Option Path) (v : Validator) (s : Section) (file : Path) : Bool :=
  (s.published? directory v).any fun found => found.2.mentions file

/-- The document that lets go of a file in a section: one that is closed, or one with a new report
that is not about the file. -/
def Section.leaver? (directory : Option Path) (v : Validator) (file : Path) : Section → Option Path
  | .close path => some path
  | s => ((s.published? directory v).filter fun found => !found.2.mentions file).map (·.1)

section

variable (directory : Option Path) (settings : ValidationSettings)

/-- What the latest report about a file has for it, since the last change of settings. -/
def latestGroup? : List Section → Path → Option (List Diagnostic)
  | [], _ => none
  | .reload _ _ :: _, _ => none
  | s :: earlier, file =>
    ((s.published? directory (after directory settings earlier)).bind fun found =>
      found.2.group? file).or (latestGroup? earlier file)

/-- Whether the collection has for a file what the last report of a document has for it. -/
def Shows (h : List Section) (document file : Path) : Prop :=
  ∃ report, lastReport? directory settings h document = some report ∧
    report.group? file = some ((after directory settings h).collection.get file)

/-- Whether the collection has for a file what the last report of an open document has for it. -/
def IsCurrent (h : List Section) (file : Path) : Prop :=
  ∃ document, (after directory settings h).documents.contains document = true ∧
    Shows directory settings h document file

/-- Whether, since the latest report about a file, the only document that showed its entry has
let go of it, while the file was claimed beside that document. -/
def IsAbandoned : List Section → Path → Prop
  | [], _ => False
  | s :: earlier, file =>
    s.reports directory (after directory settings earlier) file = false ∧
      (IsAbandoned earlier file ∨
        ∃ document, s.leaver? directory (after directory settings earlier) file = some document ∧
          (∀ d, Shows directory settings earlier d file ↔ document.same d = true) ∧
          document.same file = false ∧
          (after directory settings earlier).isClaimedBeside document file = true)

end

variable {directory : Option Path} {settings : ValidationSettings} {s : Section}
  {earlier : List Section} {file : Path}

/-! ## Documents that show an entry -/

theorem lastReport?_congr (h : List Section) {p q : Path} (hs : p.same q = true) :
    lastReport? directory settings h p = lastReport? directory settings h q := by
  induction h with
  | nil => rfl
  | cons s earlier ih =>
    simp only [lastReport?, Path.same_congr_right hs, ih]

theorem Shows.congr {h : List Section} {p q : Path} (hp : Shows directory settings h p file)
    (hs : p.same q = true) : Shows directory settings h q file := by
  obtain ⟨report, hr, hg⟩ := hp
  exact ⟨report, by rwa [← lastReport?_congr h hs], hg⟩

theorem isCurrent_iff {h : List Section} :
    IsCurrent directory settings h file ↔ ∃ d, Shows directory settings h d file := by
  constructor
  · rintro ⟨d, -, hd⟩
    exact ⟨d, hd⟩
  · rintro ⟨d, report, hr, hg⟩
    exact ⟨d, contains_of_lastReport? hr, report, hr, hg⟩

/-- A document whose last report is about a file that it does not take along leaves a claim of
somebody else. -/
theorem claimed_of_shows {h : List Section} {d : Path} (hs : Shows directory settings h d file)
    (hb : ¬(after directory settings h).blanks d file = true) :
    d.same file = false ∧ (after directory settings h).isClaimedBeside d file = true := by
  obtain ⟨report, hr, hg⟩ := hs
  have hl := lists_of_lastReport? hr (f := file) (by rw [Report.mentions_eq_isSome_group?, hg]; rfl)
  rw [blanks, hl, Bool.true_and, Bool.or_eq_true, not_or, Bool.not_eq_true', Bool.not_eq_false]
    at hb
  exact ⟨Bool.eq_false_iff.2 hb.1, hb.2⟩

/-! ## One section -/

theorem current_iff_of_quiet
    (hr : s.reports directory (after directory settings earlier) file = false)
    (hl : s.leaver? directory (after directory settings earlier) file = none)
    (hs : ∀ d, Shows directory settings (s :: earlier) d file ↔
      Shows directory settings earlier d file)
    (ih : IsCurrent directory settings earlier file ↔
      ¬IsAbandoned directory settings earlier file) :
    IsCurrent directory settings (s :: earlier) file ↔
      ¬IsAbandoned directory settings (s :: earlier) file := by
  simp only [isCurrent_iff, hs]
  rw [← isCurrent_iff, ih, IsAbandoned, hr, hl]
  simp

/-- A section in which a document lets go of a file leaves the entry current, unless this document
alone showed it. -/
theorem current_iff_of_leaver {document : Path}
    (hr : s.reports directory (after directory settings earlier) file = false)
    (hl : s.leaver? directory (after directory settings earlier) file = some document)
    (hs : ∀ d, Shows directory settings (s :: earlier) d file ↔
      ¬document.same d = true ∧ Shows directory settings earlier d file)
    (hc : Shows directory settings earlier document file → document.same file = false ∧
      (after directory settings earlier).isClaimedBeside document file = true)
    (ih : IsCurrent directory settings earlier file ↔
      ¬IsAbandoned directory settings earlier file) :
    IsCurrent directory settings (s :: earlier) file ↔
      ¬IsAbandoned directory settings (s :: earlier) file := by
  rw [isCurrent_iff]
  constructor
  · rintro ⟨d, hd⟩ ⟨-, ha | ⟨d₀, hl₀, honly, -⟩⟩
    · exact ih.1 (isCurrent_iff.2 ⟨d, ((hs d).1 hd).2⟩) ha
    · cases hl.symm.trans hl₀
      exact ((hs d).1 hd).1 ((honly d).1 ((hs d).1 hd).2)
  · intro hna
    have hcur : IsCurrent directory settings earlier file := ih.2 fun ha => hna ⟨hr, .inl ha⟩
    obtain ⟨d, hd⟩ := isCurrent_iff.1 hcur
    by_contra hno
    -- nobody else shows the entry, so the one that lets go did
    have hall : ∀ d, Shows directory settings earlier d file → document.same d = true := by
      intro d hd
      by_contra hns
      exact hno ⟨d, (hs d).2 ⟨hns, hd⟩⟩
    have hdoc : Shows directory settings earlier document file :=
      hd.congr (Path.same_symm (hall d hd))
    exact hna ⟨hr, .inr ⟨document, hl, fun d => ⟨hall d, hdoc.congr⟩, hc hdoc⟩⟩

theorem shows_of_lastReport?_eq_none {h : List Section} {d : Path}
    (hr : lastReport? directory settings h d = none) : ¬Shows directory settings h d file := by
  rintro ⟨report, hr', -⟩
  cases hr.symm.trans hr'

/-- With an entry that stays, the documents show it that did before and whose last report is the
same. -/
theorem shows_iff_of_get_eq {d : Path}
    (hg : (after directory settings (s :: earlier)).collection.get file =
      (after directory settings earlier).collection.get file)
    (hr : lastReport? directory settings (s :: earlier) d =
      lastReport? directory settings earlier d) :
    Shows directory settings (s :: earlier) d file ↔ Shows directory settings earlier d file := by
  rw [Shows, Shows, hg, hr]

theorem lastReport?_of_published? {document : Path} {report : Report}
    (hp : s.published? directory (after directory settings earlier) = some (document, report))
    (d : Path) :
    lastReport? directory settings (s :: earlier) d =
      if document.same d then some report else lastReport? directory settings earlier d := by
  obtain ⟨checked, answer, rfl, -⟩ := Section.published?_eq_some_iff.1 hp
  simp only [lastReport?, hp]

theorem current_iff_close {path : Path}
    (hne : (after directory settings (.close path :: earlier)).collection.get file ≠ [])
    (ih : (after directory settings earlier).collection.get file ≠ [] →
      (IsCurrent directory settings earlier file ↔
        ¬IsAbandoned directory settings earlier file)) :
    (after directory settings (.close path :: earlier)).collection.get file =
        (after directory settings earlier).collection.get file ∧
      (IsCurrent directory settings (.close path :: earlier) file ↔
        ¬IsAbandoned directory settings (.close path :: earlier) file) := by
  have hkept : (after directory settings (.close path :: earlier)).collection.get file =
      (after directory settings earlier).collection.get file ∧
      (Shows directory settings earlier path file →
        ¬(after directory settings earlier).blanks path file = true) := by
    rw [after, Section.run] at hne ⊢
    by_cases ho : (after directory settings earlier).documents.contains path
    · rw [get_close _ ho] at hne ⊢
      by_cases hb : (after directory settings earlier).blanks path file
      · rw [if_pos hb] at hne
        exact absurd rfl hne
      · exact ⟨if_neg hb, fun _ => hb⟩
    · refine ⟨by rw [close, if_neg ho], ?_⟩
      rintro ⟨report, hr, -⟩
      exact absurd (contains_of_lastReport? hr) ho
  refine ⟨hkept.1, current_iff_of_leaver rfl rfl (fun d => ?_)
    (fun hs => claimed_of_shows hs (hkept.2 hs)) (ih (hkept.1 ▸ hne))⟩
  by_cases hs : path.same d
  · have hr : lastReport? directory settings (.close path :: earlier) d = none := if_pos hs
    simp [hs, shows_of_lastReport?_eq_none hr]
  · rw [shows_iff_of_get_eq hkept.1 (if_neg hs)]
    simp [hs]

theorem current_iff_published {document : Path} {report : Report}
    (hp : s.published? directory (after directory settings earlier) = some (document, report))
    (hne : (after directory settings (s :: earlier)).collection.get file ≠ [])
    (ih : (after directory settings earlier).collection.get file ≠ [] →
      (IsCurrent directory settings earlier file ↔
        ¬IsAbandoned directory settings earlier file)) :
    (report.group? file).getD ((after directory settings earlier).collection.get file) =
        (after directory settings (s :: earlier)).collection.get file ∧
      (IsCurrent directory settings (s :: earlier) file ↔
        ¬IsAbandoned directory settings (s :: earlier) file) := by
  have hget : (after directory settings (s :: earlier)).collection.get file =
      (report.group? file).getD (if (after directory settings earlier).blanks document file then []
        else (after directory settings earlier).collection.get file) := by
    rw [after, (Section.run_of_published? hp).2]
    exact get_publish _ _ (Section.distinct_of_published? hp) file
  have hlast := lastReport?_of_published? hp
  cases hg : report.group? file with
  | some ds =>
    rw [hg, Option.getD_some] at hget
    refine ⟨hget.symm, iff_of_true (isCurrent_iff.2 ⟨document, report, ?_, ?_⟩) ?_⟩
    · rw [hlast, if_pos (Path.same_self document)]
    · rw [hg, hget]
    · rintro ⟨hr, -⟩
      simp [Section.reports, hp, Report.mentions_eq_isSome_group?, hg] at hr
  | none =>
    rw [hg, Option.getD_none] at hget
    have hb : ¬(after directory settings earlier).blanks document file = true := by
      intro hb
      rw [hget, if_pos hb] at hne
      exact hne rfl
    rw [if_neg hb] at hget
    obtain ⟨checked, answer, rfl, -⟩ := Section.published?_eq_some_iff.1 hp
    have hm : report.mentions file = false := by
      rw [Report.mentions_eq_isSome_group?, hg]
      rfl
    refine ⟨hget.symm, current_iff_of_leaver ?_ ?_ (fun d => ?_)
      (fun hs => claimed_of_shows hs hb) (ih (hget ▸ hne))⟩
    · simp [Section.reports, hp, hm]
    · simp [Section.leaver?, hp, hm]
    · by_cases hs : document.same d
      · have hr := hlast d
        rw [if_pos hs] at hr
        simp only [hs, not_true, false_and, iff_false]
        rintro ⟨report', hr', hg'⟩
        cases hr.symm.trans hr'
        cases hg.symm.trans hg'
      · rw [shows_iff_of_get_eq hget (by rw [hlast, if_neg hs])]
        simp [hs]

/-! ## Histories -/

/-- **When an entry is current.** The entry of a file is that of the latest report about it, and it
is what the last report of some open document has, unless it was abandoned. -/
theorem current_iff_not_abandoned (directory : Option Path) (settings : ValidationSettings)
    (h : List Section) (file : Path)
    (hne : (after directory settings h).collection.get file ≠ []) :
    latestGroup? directory settings h file =
        some ((after directory settings h).collection.get file) ∧
      (IsCurrent directory settings h file ↔ ¬IsAbandoned directory settings h file) := by
  induction h with
  | nil => exact absurd rfl hne
  | cons s earlier ih =>
    cases s with
    | accept document =>
      have hc : (after directory settings (.accept document :: earlier)).collection =
          (after directory settings earlier).collection := by
        rw [after, Section.run, accept]
        split <;> rfl
      obtain ⟨hg, hi⟩ := ih (hc ▸ hne)
      rw [hc]
      exact ⟨hg, current_iff_of_quiet rfl rfl (fun d => shows_iff_of_get_eq (by rw [hc]) rfl) hi⟩
    | close path =>
      obtain ⟨hget, hi⟩ := current_iff_close hne fun h => (ih h).2
      rw [hget] at hne ⊢
      exact ⟨(ih hne).1, hi⟩
    | reload _ _ => exact absurd rfl hne
    | conclude document answer =>
      cases hp : (Section.conclude document answer).published? directory
          (after directory settings earlier) with
      | none =>
        have hc : (after directory settings (.conclude document answer :: earlier)).collection =
            (after directory settings earlier).collection := by
          rw [after]
          obtain hr | ⟨text, hr⟩ := Section.run_conclude_of_published?_eq_none hp <;> rw [hr]
        obtain ⟨hg, hi⟩ := ih (hc ▸ hne)
        rw [hc]
        refine ⟨?_, current_iff_of_quiet ?_ ?_ (fun d => shows_iff_of_get_eq (by rw [hc]) ?_) hi⟩
        · simpa only [latestGroup?, hp, Option.bind_none, Option.none_or] using hg
        · rw [Section.reports, hp]
          rfl
        · simp only [Section.leaver?, hp]
          rfl
        · simp only [lastReport?, hp]
      | some found =>
        obtain ⟨d, report⟩ := found
        obtain ⟨hget, hi⟩ := current_iff_published hp hne fun h => (ih h).2
        refine ⟨?_, hi⟩
        simp only [latestGroup?, hp, Option.bind_some]
        cases hg : report.group? file with
        | some ds => rw [← hget, hg, Option.some_or, Option.getD_some]
        | none =>
          rw [hg, Option.getD_none] at hget
          rw [Option.none_or, ← hget]
          exact (ih (hget ▸ hne)).1

/-- What a document reports into another one stays when it closes, although no document reports it
any more, if a third one did so before. -/
theorem abandoned_of_close :
    let a : Document := ⟨⟨"/a.evi"⟩, "", "evi"⟩
    let b : Document := ⟨⟨"/b.evi"⟩, "", "evi"⟩
    let found : LintDiagnostic := ⟨⟨⟨"/lib.evi"⟩, 0, 0, 1⟩, "unknown name", .error, []⟩
    let h : List Section :=
      [.close b.path, .conclude b (.ok (.diagnostics [found])), .accept b,
        .conclude a (.ok (.diagnostics [])), .conclude a (.ok (.diagnostics [found])), .accept a]
    (after (some ⟨"/"⟩) {} h).collection.get ⟨"/lib.evi"⟩ ≠ [] ∧
      ¬IsCurrent (some ⟨"/"⟩) {} h ⟨"/lib.evi"⟩ ∧ IsAbandoned (some ⟨"/"⟩) {} h ⟨"/lib.evi"⟩ := by
  intro a b found h
  have hne : (after (some ⟨"/"⟩) {} h).collection.get ⟨"/lib.evi"⟩ ≠ [] := by decide
  have hc : ¬IsCurrent (some ⟨"/"⟩) {} h ⟨"/lib.evi"⟩ := by
    rintro ⟨d, ho, report, hr, hg⟩
    by_cases hs : a.path.same d
    · have hm : (lastReport? (some ⟨"/"⟩) {} h a.path).any (·.mentions ⟨"/lib.evi"⟩) = false := by
        decide
      rw [lastReport?_congr _ hs, hr, Option.any_some, Report.mentions_eq_isSome_group?, hg] at hm
      cases hm
    · by_cases hb : b.path.same d <;>
        simp [h, after, Section.contains_run, Section.opens?, hs, hb] at ho
  have ha := (current_iff_not_abandoned (some ⟨"/"⟩) {} h ⟨"/lib.evi"⟩ hne).2
  exact ⟨hne, hc, not_not.1 (mt ha.2 hc)⟩

end EviAssist.Validator
