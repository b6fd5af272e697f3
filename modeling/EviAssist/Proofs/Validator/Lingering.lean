import EviAssist.Proofs.Validator.Current
import EviAssist.Proofs.Validator.Orphans

/-!
# What the lists hold

The list of a document holds the document, the files that its last report is about, and files that
linger: an earlier report was about them, and they were blanked when a later one was not. A file
that lingers counts as reported, so what others report into it is left behind when they close.

* `Validator.Lingers`: whether a file lingers in the list of a document.
* `Validator.lists_after_iff`: what the list of a document holds.
* `Validator.contains_close_iff`: which files keep their diagnostics when a document closes.
* `Validator.lists_iff_finds_or_lingers`: lists are exact unless something lingers.
-/

namespace EviAssist.Validator

section

variable (directory : Option Path) (settings : ValidationSettings)

/-- Whether a file lingers in the list of a document: a report of the document was about it, the
last one is not, and whenever a report was not, nobody else claimed the file. -/
def Lingers : List Section → Path → Path → Prop
  | [], _, _ => False
  | s :: earlier, d, f =>
    match s with
    | .reload _ _ => False
    | .close path => path.same d = false ∧ Lingers earlier d f
    | _ =>
      match s.published? directory (after directory settings earlier) with
      | some (document, report) =>
        if document.same d then
          document.same f = false ∧ report.mentions f = false ∧
            (after directory settings earlier).isClaimedBeside document f = false ∧
            ((lastReport? directory settings earlier d).any (·.mentions f) = true ∨
              Lingers earlier d f)
        else Lingers earlier d f
      | none => Lingers earlier d f

end

variable {directory : Option Path} {settings : ValidationSettings} {s : Section}
  {earlier : List Section} {document d f : Path} {report : Report}

/-! ## One section -/

theorem lingers_of_published?
    (hp : s.published? directory (after directory settings earlier) = some (document, report)) :
    Lingers directory settings (s :: earlier) d f ↔
      if document.same d then
        document.same f = false ∧ report.mentions f = false ∧
          (after directory settings earlier).isClaimedBeside document f = false ∧
          ((lastReport? directory settings earlier d).any (·.mentions f) = true ∨
            Lingers directory settings earlier d f)
      else Lingers directory settings earlier d f := by
  obtain ⟨checked, answer, rfl, -⟩ := Section.published?_eq_some_iff.1 hp
  simp only [Lingers, hp]

/-- What is listed after a report: the document, what the report is about, and what was listed and
nobody else claimed. -/
theorem lists_of_published?
    (hp : s.published? directory (after directory settings earlier) = some (document, report)) :
    (after directory settings (s :: earlier)).lists d f = true ↔
      if document.same d then
        document.same f = true ∨ report.mentions f = true ∨
          (after directory settings earlier).lists d f = true ∧
            (after directory settings earlier).isClaimedBeside document f = false
      else (after directory settings earlier).lists d f = true := by
  rw [after, (Section.run_of_published? hp).2, lists_publish]
  split
  · rename_i hs
    rw [blanks, lists, PathMap.find?_congr _ hs, ← lists]
    simp only [Bool.or_eq_true, Bool.and_eq_true, Bool.not_eq_true', or_left_comm]
  · rfl

/-- Whether a section leaves the last report of a document and its list as they are. -/
structure Spares (directory : Option Path) (settings : ValidationSettings) (s : Section)
    (earlier : List Section) (d : Path) : Prop where
  lastReport? : lastReport? directory settings (s :: earlier) d =
    lastReport? directory settings earlier d
  lingers : ∀ f, Lingers directory settings (s :: earlier) d f ↔
    Lingers directory settings earlier d f
  lists : ∀ f, (after directory settings (s :: earlier)).lists d f =
    (after directory settings earlier).lists d f

/-- Whether a section leaves a document without a last report and without a list. -/
structure Forgets (directory : Option Path) (settings : ValidationSettings) (s : Section)
    (earlier : List Section) (d : Path) : Prop where
  lastReport? : lastReport? directory settings (s :: earlier) d = none
  lingers : ∀ f, ¬Lingers directory settings (s :: earlier) d f
  lists : ∀ f, ¬(after directory settings (s :: earlier)).lists d f = true

theorem forgets_close {path : Path} (hs : path.same d = true) :
    Forgets directory settings (.close path) earlier d where
  lastReport? := if_pos hs
  lingers f hl := Bool.false_ne_true (hl.1.symm.trans hs)
  lists f hl := by
    have ho := (noOrphans_after directory settings (.close path :: earlier)).isOpen d
      (contains_published_of_lists hl)
    simp [after, Section.contains_run, Section.opens?, hs] at ho

theorem spares_close {path : Path} (hs : path.same d = false) :
    Spares directory settings (.close path) earlier d where
  lastReport? := by simp only [Validator.lastReport?, hs, Bool.false_eq_true, if_false]
  lingers f := by simp only [Lingers, hs, true_and]
  lists f := by
    rw [after, Section.run, close]
    split
    · rw [Validator.lists, PathMap.find?_erase, hs, if_neg Bool.false_ne_true, ← Validator.lists]
    · rfl

theorem spares_published?
    (hp : s.published? directory (after directory settings earlier) = some (document, report))
    (hs : ¬document.same d = true) : Spares directory settings s earlier d where
  lastReport? := by rw [lastReport?_of_published? hp, if_neg hs]
  lingers f := by rw [lingers_of_published? hp, if_neg hs]
  lists f := by rw [Bool.eq_iff_iff, lists_of_published? hp, if_neg hs]

theorem section_cases (directory : Option Path) (settings : ValidationSettings) (s : Section)
    (earlier : List Section) (d : Path) :
    (∃ document report,
        s.published? directory (after directory settings earlier) = some (document, report) ∧
          document.same d = true) ∨
      Forgets directory settings s earlier d ∨ Spares directory settings s earlier d := by
  cases s with
  | accept document =>
    refine .inr (.inr ⟨rfl, fun _ => Iff.rfl, fun f => ?_⟩)
    rw [after, Section.run, accept]
    split <;> rfl
  | close path =>
    by_cases hs : path.same d
    · exact .inr (.inl (forgets_close hs))
    · exact .inr (.inr (spares_close (Bool.eq_false_iff.2 hs)))
  | reload _ _ =>
    refine .inr (.inl ⟨rfl, fun _ hl => hl, ?_⟩)
    intro _ hs
    cases hs
  | conclude checked answer =>
    cases hp : (Section.conclude checked answer).published? directory
        (after directory settings earlier) with
    | some found =>
      by_cases hs : found.1.same d
      · exact .inl ⟨found.1, found.2, rfl, hs⟩
      · exact .inr (.inr (spares_published? hp hs))
    | none =>
      refine .inr (.inr ⟨?_, fun f => ?_, fun f => ?_⟩)
      · simp only [lastReport?, hp]
      · simp only [Lingers, hp]
      · rw [after]
        obtain hr | ⟨text, hr⟩ := Section.run_conclude_of_published?_eq_none hp
        · rw [hr]
        · rw [hr]
          rfl

/-! ## Histories -/

theorem finds_iff_of_lastReport? {h : List Section}
    (hr : lastReport? directory settings h d = some report) (f : Path) :
    report.Finds f ↔ report.mentions f = true := by
  induction h with
  | nil => cases hr
  | cons s earlier ih =>
    obtain ⟨document, last, hp, hs⟩ | hforgets | hspares :=
      section_cases directory settings s earlier d
    · rw [lastReport?_of_published? hp, if_pos hs] at hr
      cases hr
      obtain ⟨checked, ds, rfl⟩ := Section.exists_byFile_of_published? hp
      exact Report.finds_iff_mentions (Report.ne_nil_of_mem_byFile directory checked ds) f
    · rw [hforgets.lastReport?] at hr
      cases hr
    · exact ih (hspares.lastReport? ▸ hr)

/-- **A file that lingers** in the list of a document is not the document, and the last report is
not about it. -/
theorem not_mentions_of_lingers {h : List Section} (hl : Lingers directory settings h d f) :
    ∃ report, lastReport? directory settings h d = some report ∧ d.same f = false ∧
      report.mentions f = false := by
  induction h with
  | nil => cases hl
  | cons s earlier ih =>
    obtain ⟨document, last, hp, hs⟩ | hforgets | hspares :=
      section_cases directory settings s earlier d
    · rw [lingers_of_published? hp, if_pos hs, Path.same_congr hs] at hl
      refine ⟨last, ?_, hl.1, hl.2.1⟩
      rw [lastReport?_of_published? hp, if_pos hs]
    · exact absurd hl (hforgets.lingers f)
    · rw [hspares.lastReport?]
      exact ih ((hspares.lingers f).1 hl)

/-- **What the list of a document holds**: the document, the files that its last report is about,
and those that linger. -/
theorem lists_after_iff (h : List Section) :
    (after directory settings h).lists d f = true ↔
      ∃ report, lastReport? directory settings h d = some report ∧
        (d.same f = true ∨ report.mentions f = true ∨ Lingers directory settings h d f) := by
  induction h with
  | nil =>
    refine iff_of_false nofun ?_
    rintro ⟨_, hr, -⟩
    cases hr
  | cons s earlier ih =>
    obtain ⟨document, last, hp, hs⟩ | hforgets | hspares :=
      section_cases directory settings s earlier d
    · rw [lists_of_published? hp, lastReport?_of_published? hp, lingers_of_published? hp,
        if_pos hs, if_pos hs, if_pos hs]
      simp only [Option.some.injEq, exists_eq_left', Path.same_congr hs]
      by_cases hself : d.same f
      · simp [hself]
      · -- What was listed is what the report before was about, or lingered already.
        have hlisted : (after directory settings earlier).lists d f = true ↔
            (lastReport? directory settings earlier d).any (·.mentions f) = true ∨
              Lingers directory settings earlier d f := by
          rw [ih]
          constructor
          · rintro ⟨report, hr, hd | hm | hl⟩
            · exact absurd hd hself
            · rw [hr]
              exact .inl hm
            · exact .inr hl
          · rintro (hm | hl)
            · obtain ⟨report, hr, hm⟩ := (Option.any_eq_true _ _).1 hm
              exact ⟨report, hr, .inr (.inl hm)⟩
            · obtain ⟨report, hr, -⟩ := not_mentions_of_lingers hl
              exact ⟨report, hr, .inr (.inr hl)⟩
        rw [hlisted]
        by_cases hm : last.mentions f <;> simp [hself, hm, and_comm]
    · refine iff_of_false (hforgets.lists f) ?_
      rintro ⟨_, hr, -⟩
      rw [hforgets.lastReport?] at hr
      cases hr
    · simp only [hspares.lists f, hspares.lastReport?, hspares.lingers f, ih]

theorem contains_published_iff (h : List Section) :
    (after directory settings h).published.contains d = true ↔
      ∃ report, lastReport? directory settings h d = some report := by
  constructor
  · intro hc
    have hl := (noOrphans_after directory settings h).own d hc
    obtain ⟨report, hr, -⟩ := (lists_after_iff h).1 hl
    exact ⟨report, hr⟩
  · rintro ⟨report, hr⟩
    have hl : (after directory settings h).lists d d = true :=
      (lists_after_iff h).2 ⟨report, hr, .inl (Path.same_self d)⟩
    exact contains_published_of_lists hl

/-! ## Closing a document -/

/-- **What a closing leaves**: the diagnostics of the other files that are claimed beside the
document. -/
theorem contains_close_iff {v : Validator} (hv : v.NoOrphans)
    (ho : v.documents.contains d = true) (hs : d.same f = false) :
    (v.close d).1.collection.entries.contains f = true ↔
      v.collection.entries.contains f = true ∧ v.isClaimedBeside d f = true := by
  rw [(hv.close d).proper.contains_iff, hv.proper.contains_iff, get_close v ho]
  constructor
  · intro hf
    split at hf
    · exact absurd rfl hf
    · rename_i hb
      obtain ⟨-, hc⟩ := hv.isClaimedBeside hf hb
      refine ⟨hf, (isClaimedBeside_iff hv.distinct d f).2 (hc.imp id ?_)⟩
      rintro ⟨other, hne, -, hl⟩
      exact ⟨other, hne, hl⟩
  · rintro ⟨hf, hc⟩
    rwa [blanks, hs, hc, Bool.not_true, Bool.and_false, Bool.or_self, if_neg Bool.false_ne_true]

/-- **When lists are exact.** A document has a list when it has a last report, and the list holds
the document, the files in which the last report found something, and those that linger; so it is
exact unless something lingers. When a document closes, a file that is not open and in which no
other last report found anything keeps its diagnostics if it lingers in the list of another
document. -/
theorem lists_iff_finds_or_lingers (directory : Option Path) (settings : ValidationSettings)
    (h : List Section) (d : Path) :
    ((after directory settings h).published.contains d = true ↔
        ∃ report, lastReport? directory settings h d = some report) ∧
      (∀ report, lastReport? directory settings h d = some report →
        (∀ f, (after directory settings h).lists d f = true ↔
          d.same f = true ∨ report.Finds f ∨ Lingers directory settings h d f) ∧
        ((∀ f, (after directory settings h).lists d f = true ↔
            d.same f = true ∨ report.Finds f) ↔
          ∀ f, ¬Lingers directory settings h d f)) ∧
      ∀ f, (after directory settings h).documents.contains d = true → d.same f = false →
        (after directory settings h).documents.contains f = false →
        (∀ other report, d.same other = false →
          lastReport? directory settings h other = some report → ¬report.Finds f) →
        ((after directory settings (.close d :: h)).collection.entries.contains f = true ↔
          (after directory settings h).collection.entries.contains f = true ∧
            ∃ other, d.same other = false ∧ Lingers directory settings h other f) := by
  have hlists : ∀ report, lastReport? directory settings h d = some report → ∀ f,
      ((after directory settings h).lists d f = true ↔
        d.same f = true ∨ report.Finds f ∨ Lingers directory settings h d f) := by
    intro report hr f
    rw [lists_after_iff, finds_iff_of_lastReport? hr]
    simp only [hr, Option.some.injEq, exists_eq_left']
  refine ⟨contains_published_iff h, fun report hr => ⟨hlists report hr, ?_⟩, ?_⟩
  · constructor
    · intro hexact f hl
      obtain ⟨last, hlast, hself, hm⟩ := not_mentions_of_lingers hl
      cases hlast.symm.trans hr
      obtain hd | hf := (hexact f).1 ((hlists report hr f).2 (.inr (.inr hl)))
      · exact Bool.false_ne_true (hself.symm.trans hd)
      · exact Bool.false_ne_true (hm.symm.trans ((finds_iff_of_lastReport? hr f).1 hf))
    · intro hno f
      rw [hlists report hr f]
      simp only [hno f, or_false]
  · intro f ho hs hclosed hother
    have hv := noOrphans_after directory settings h
    rw [after, Section.run, contains_close_iff hv ho hs, isClaimedBeside_iff hv.distinct, hclosed]
    refine and_congr_right fun _ => ?_
    simp only [Bool.false_eq_true, false_or, Bool.not_eq_true]
    refine exists_congr fun other => and_congr_right fun hne => ?_
    constructor
    · intro hl
      obtain ⟨report, hr, hself | hm | hl⟩ := (lists_after_iff h).1 hl
      · have hopen := contains_of_lastReport? hr
        rw [PathMap.contains_congr _ hself, hclosed] at hopen
        cases hopen
      · exact absurd ((finds_iff_of_lastReport? hr f).2 hm) (hother other report hne hr)
      · exact hl
    · intro hl
      obtain ⟨report, hr, -⟩ := not_mentions_of_lingers hl
      exact (lists_after_iff h).2 ⟨report, hr, .inr (.inr hl)⟩

/-- A file lingers in the list of a document whose second report is not about it, and keeps what
another document reports into it when that one closes. -/
theorem lingers_of_second_report :
    let a : Document := ⟨⟨"/a.evi"⟩, "", "evi"⟩
    let b : Document := ⟨⟨"/b.evi"⟩, "", "evi"⟩
    let found : LintDiagnostic := ⟨⟨⟨"/lib.evi"⟩, 0, 0, 1⟩, "unknown name", .error, []⟩
    let h : List Section :=
      [.conclude b (.ok (.diagnostics [found])), .accept b,
        .conclude a (.ok (.diagnostics [])), .conclude a (.ok (.diagnostics [found])), .accept a]
    (after (some ⟨"/"⟩) {} h).lists a.path ⟨"/lib.evi"⟩ = true ∧
      (∃ report, lastReport? (some ⟨"/"⟩) {} h a.path = some report ∧ ¬report.Finds ⟨"/lib.evi"⟩) ∧
      Lingers (some ⟨"/"⟩) {} h a.path ⟨"/lib.evi"⟩ ∧
      (after (some ⟨"/"⟩) {} (.close b.path :: h)).collection.entries.contains ⟨"/lib.evi"⟩ =
        true := by
  intro a b found h
  have hlisted : (after (some ⟨"/"⟩) {} h).lists a.path ⟨"/lib.evi"⟩ = true := by decide
  have hlast : lastReport? (some ⟨"/"⟩) {} h a.path = some [] := by decide
  have hnone : ¬Report.Finds [] ⟨"/lib.evi"⟩ := fun ⟨_, _, hf⟩ => nomatch hf
  obtain ⟨-, hlists, -⟩ := lists_iff_finds_or_lingers (some ⟨"/"⟩) {} h a.path
  obtain hself | hfound | hlingers := ((hlists [] hlast).1 ⟨"/lib.evi"⟩).1 hlisted
  · exact absurd hself (by decide)
  · exact absurd hfound hnone
  · exact ⟨hlisted, ⟨[], hlast, hnone⟩, hlingers, by decide⟩

end EviAssist.Validator
