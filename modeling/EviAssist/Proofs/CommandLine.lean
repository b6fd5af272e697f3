import EviAssist.CommandLine
import EviAssist.Proofs.Lint.Decode
import EviAssist.Proofs.Lint.Remap
import EviAssist.Proofs.Lint.Tables
import EviAssist.Proofs.Report.Groups

/-!
# What a check prints

A check opens files, has evi look for diagnostics in each of them, and prints these one a line, with
lines and columns counted from one. evi counts lines from one too, so every line that it reports has
a successor; its columns are counted from zero, and the greatest one has none. Where a diagnostic
stands there, the check stops: what was printed before stays, and nothing follows.

* `CommandLine.Checked`: a document with evi's reply about it.
* `CommandLine.Checked.line_lt`, `CommandLine.exists_not_isPrintable_iff`: the lines and the columns
  of what evi found.
* `CommandLine.lines_eq`: what is printed for diagnostics.
* `CommandLine.examineFiles`, `CommandLine.Progress.outcome`: the files that are checked, and what
  is printed about them.
* `CommandLine.check_eq`: what a check does on any system.
* `CommandLine.prints_exact_lines_iff`: when a check stops at a column.
-/

namespace EviAssist.CommandLine

/-- A document that was checked: what evi printed about a snapshot of it, and what this says. -/
structure Checked where
  document : Document
  reply : Reply
  result : LintResult
  answerOf_eq :
    Lint.answerOf .diagnostics reply.snapshot document.path reply.stdout = .ok result

namespace Checked

/-- A reply about a document, when it can be read. -/
def ofReply (document : Document) (reply : Reply) : Except LintError Checked :=
  match h : Lint.answerOf .diagnostics reply.snapshot document.path reply.stdout with
  | .error e => .error e
  | .ok result => .ok ⟨document, reply, result, h⟩

variable (directory : Option Path) (c : Checked)

/-- What evi found in the document. -/
def found : List LintDiagnostic :=
  c.result.diagnosticList

/-- The report on the document, relative paths being seen from `directory`. -/
def report : Report :=
  Report.byFile directory c.document c.found

end Checked

/-! ## The lines that evi reports -/

theorem line_ofTool_lt (file : Path) (line column length : UInt32) :
    (SourcePosition.ofTool file line column length).line.toNat + 1 < UInt32.size := by
  show (Count.pred line).toNat + 1 < UInt32.size
  have hlt : line.toNat < UInt32.size := line.toNat_lt
  have hsize : UInt32.size = 4294967296 := rfl
  rw [Count.toNat_pred]
  omega

theorem exists_reads_of_mem {items : List Json} {entries : List (Option LintDiagnostic)}
    (h : List.Forall₂ (Lint.ReadsEntry Lint.decodeDiagnostic) items entries) {d : LintDiagnostic}
    (hd : d ∈ entries.reduceOption) : ∃ v, Lint.decodeDiagnostic v = .ok d := by
  induction h with
  | nil => cases hd
  | @cons v entry _ _ hentry _ ih =>
    cases entry with
    | none => exact ih (by simpa using hd)
    | some d' =>
      rw [List.reduceOption_cons_of_some, List.mem_cons] at hd
      obtain rfl | hd := hd
      · exact ⟨v, hentry.2⟩
      · exact ih hd

/-- An answer to a question about diagnostics is a list of diagnostics, each moved to the
document. -/
theorem exists_decoded_of_answerOf {snapshot document : Path} {stdout : String} {r : LintResult}
    (h : Lint.answerOf .diagnostics snapshot document stdout = .ok r) :
    ∃ v ds, Lint.decodeDiagnostics v = .ok ds ∧
      r = .diagnostics (ds.map (·.remap snapshot document)) := by
  obtain ⟨⟨decoded, hd, hmoved⟩, -⟩ := Lint.answerOf_eq_ok_iff.1 h
  obtain ⟨v, -, hv⟩ := Lint.decode_eq_ok_iff.1 hd
  obtain ⟨hkind, hds⟩ := Lint.decodeValue_eq_ok_iff.1 hv
  rw [LintResult.isMoved_iff.1 hmoved]
  cases decoded with
  | diagnostics ds => exact ⟨v, ds, hds, rfl⟩
  | _ => cases hkind

/-- **The line of every diagnostic that evi reports has a successor.** -/
theorem Checked.line_lt (c : Checked) {d : LintDiagnostic} (hd : d ∈ c.found) :
    d.position.line.toNat + 1 < UInt32.size := by
  obtain ⟨v, ds, hv, hfound⟩ := exists_decoded_of_answerOf c.answerOf_eq
  rw [Checked.found, hfound] at hd
  obtain ⟨d, hmem, rfl⟩ := List.mem_map.1 hd
  obtain ⟨items, entries, -, hentries, rfl⟩ := Lint.decodeDiagnostics_eq_ok_iff.1 hv
  obtain ⟨entry, hentry⟩ := exists_reads_of_mem hentries hmem
  obtain ⟨ms, -, -, -, -, -, hplace, -⟩ := Lint.decodeDiagnostic_eq_ok_iff.1 hentry
  obtain ⟨file, line, column, length, -, -, -, -, hp⟩ := Shape.placeOfMembers_eq_ok_iff.1 hplace
  have hline :
      (d.remap c.reply.snapshot c.document.path).position.line = d.position.line :=
    (SourcePosition.isMoved_iff.2 rfl).line
  rw [hline, hp]
  exact line_ofTool_lt ⟨file⟩ line column length

/-! ## Lines of output -/

/-- The place that a line of output begins with, in numbers without a bound. -/
def place (file : Path) (p : Position) : String :=
  file.text ++ ":" ++ toString (p.line.toNat + 1) ++ ":" ++ toString (p.character.toNat + 1)

/-- The line of output for a diagnostic of a file, in numbers without a bound. -/
def exactLine (p : Path × Diagnostic) : String :=
  place p.1 p.2.range.start ++ ": " ++ severityName p.2 ++ ": " ++ p.2.message

/-- Whether the line and the column of a diagnostic have successors. -/
def isPrintable (p : Path × Diagnostic) : Bool :=
  p.2.range.start.line.toNat + 1 < UInt32.size && p.2.range.start.character.toNat + 1 < UInt32.size

theorem isPrintable_iff {p : Path × Diagnostic} :
    isPrintable p = true ↔ p.2.range.start.line.toNat + 1 < UInt32.size ∧
      p.2.range.start.character.toNat + 1 < UInt32.size := by
  rw [isPrintable, Bool.and_eq_true, decide_eq_true_eq, decide_eq_true_eq]

theorem toString_of_succ? {n k : UInt32} (h : Count.succ? n = some k) :
    toString k = toString (n.toNat + 1) := by
  show toString k.toNat = _
  rw [Count.succ?_eq_some_iff.1 h]

theorem line?_eq (p : Path × Diagnostic) :
    line? p.1 p.2 = if isPrintable p then some (exactLine p) else none := by
  have hnone {n : UInt32} (h : Count.succ? n = none) : ¬n.toNat + 1 < UInt32.size :=
    Nat.not_lt.2 (Count.succ?_eq_none_iff.1 h)
  have hsome {n k : UInt32} (h : Count.succ? n = some k) : n.toNat + 1 < UInt32.size := by
    rw [← Count.succ?_eq_some_iff.1 h]
    exact k.toNat_lt
  unfold line?
  cases hl : Count.succ? p.2.range.start.line with
  | none => exact (if_neg fun h => hnone hl (isPrintable_iff.1 h).1).symm
  | some line =>
    cases hc : Count.succ? p.2.range.start.character with
    | none => exact (if_neg fun h => hnone hc (isPrintable_iff.1 h).2).symm
    | some column =>
      rw [if_pos (isPrintable_iff.2 ⟨hsome hl, hsome hc⟩), exactLine, place,
        ← toString_of_succ? hl, ← toString_of_succ? hc]
      rfl

/-- Lines of output, one after another. -/
def exactLines (ps : List (Path × Diagnostic)) : String :=
  String.join (ps.map fun p => exactLine p ++ "\n")

theorem exactLines_cons (p : Path × Diagnostic) (ps : List (Path × Diagnostic)) :
    exactLines (p :: ps) = exactLine p ++ "\n" ++ exactLines ps := by
  rw [exactLines, List.map_cons, String.join_cons]
  rfl

theorem exactLines_append (ps qs : List (Path × Diagnostic)) :
    exactLines (ps ++ qs) = exactLines ps ++ exactLines qs := by
  rw [exactLines, List.map_append, String.join_append]
  rfl

/-- **What is printed for diagnostics**: exact lines, up to the first that has none. -/
theorem lines_eq (ps : List (Path × Diagnostic)) :
    lines ps = (exactLines (ps.takeWhile isPrintable), ps.all isPrintable) := by
  induction ps with
  | nil => rfl
  | cons p ps ih =>
    have hline := line?_eq p
    by_cases h : isPrintable p = true
    · rw [if_pos h] at hline
      simp only [lines, hline, ih, List.takeWhile_cons_of_pos h, exactLines_cons, List.all_cons, h,
        Bool.true_and]
    · rw [if_neg h] at hline
      simp only [lines, hline, List.takeWhile_cons_of_neg h, List.all_cons,
        Bool.eq_false_iff.2 h, Bool.false_and]
      rfl

/-! ## Diagnostics of a report -/

theorem mem_shown_iff {report : Report} {p : Path × Diagnostic} :
    p ∈ shown report ↔ ∃ group ∈ report, group.1 = p.1 ∧ p.2 ∈ group.2 := by
  simp only [shown, List.mem_flatMap, List.mem_map]
  refine exists_congr fun group => and_congr_right fun _ => ?_
  constructor
  · rintro ⟨d, hd, rfl⟩
    exact ⟨rfl, hd⟩
  · rintro ⟨hfile, hd⟩
    exact ⟨p.2, hd, Prod.ext hfile rfl⟩

theorem hasError_eq (report : Report) :
    hasError report = (shown report).any fun p => p.2.severity == some .error := by
  simp only [hasError, shown, List.any_flatMap, List.any_map, Function.comp_def]

theorem Checked.forall_mem_shown_iff (directory : Option Path) (c : Checked)
    (P : Position → Prop) :
    (∀ q ∈ shown (c.report directory), P q.2.range.start) ↔ ∀ d ∈ c.found, P d.position.start := by
  have hstart (d : LintDiagnostic) :
      (Diagnostic.ofLint directory c.document d).range.start = d.position.start :=
    d.position.start_rangeFor c.document
  have hperm := Report.flatMap_byFile_perm directory c.document c.found
  constructor
  · intro h d hd
    obtain ⟨group, hg, hd⟩ := List.mem_flatMap.1 (hperm.mem_iff.2 (List.mem_map_of_mem hd))
    rw [← hstart]
    exact h (group.1, _) (mem_shown_iff.2 ⟨group, hg, rfl, hd⟩)
  · intro h q hq
    obtain ⟨group, hg, -, hd⟩ := mem_shown_iff.1 hq
    obtain ⟨d, hd, heq⟩ := List.mem_map.1 (hperm.mem_iff.1 (List.mem_flatMap.2 ⟨group, hg, hd⟩))
    rw [← heq, hstart]
    exact h d hd

/-! ## The course of a check -/

/-- How far a check came: the documents that were checked, and why there are no more of them, if
one could not be. -/
structure Progress where
  checks : List Checked
  failure? : Option Failure

namespace Progress

variable (directory : Option Path) (p : Progress)

/-- The diagnostics in all reports, in order. -/
def shown : List (Path × Diagnostic) :=
  p.checks.flatMap fun c => CommandLine.shown (c.report directory)

/-- The diagnostics before the first one that has no line of output. -/
def printed : List (Path × Diagnostic) :=
  (p.shown directory).takeWhile isPrintable

/-- What is printed about the documents, and how the check ends when errors were found before or
not. -/
def outcome (foundErrors : Bool) : Outcome where
  output := exactLines (p.printed directory)
  ending :=
    if (p.shown directory).all isPrintable then
      match p.failure? with
      | some f => .failed f
      | none => .done (foundErrors || (p.shown directory).any (·.2.severity == some .error))
    else .overflowed

theorem forall_mem_shown_iff (P : Position → Prop) :
    (∀ q ∈ p.shown directory, P q.2.range.start) ↔
      ∀ c ∈ p.checks, ∀ d ∈ c.found, P d.position.start := by
  simp only [← Checked.forall_mem_shown_iff directory, shown, List.mem_flatMap]
  constructor
  · intro h c hc q hq
    exact h q ⟨c, hc, hq⟩
  · rintro h q ⟨c, hc, hq⟩
    exact h c hc q hq

theorem line_lt_of_mem_shown {q : Path × Diagnostic} (hq : q ∈ p.shown directory) :
    q.2.range.start.line.toNat + 1 < UInt32.size := by
  have hlines := forall_mem_shown_iff directory p fun start => start.line.toNat + 1 < UInt32.size
  exact hlines.2 (fun c _ d hd => c.line_lt hd) q hq

theorem all_isPrintable_iff :
    (p.shown directory).all isPrintable = true ↔
      ∀ c ∈ p.checks, ∀ d ∈ c.found, d.position.column.toNat + 1 < UInt32.size := by
  have hcolumns :=
    forall_mem_shown_iff directory p fun start => start.character.toNat + 1 < UInt32.size
  rw [List.all_eq_true]
  refine Iff.trans (forall₂_congr fun q hq => ?_) hcolumns
  rw [isPrintable_iff, and_iff_right (line_lt_of_mem_shown directory p hq)]

theorem outcome_cons {c : Checked} (h : (CommandLine.shown (c.report directory)).all isPrintable)
    (foundErrors : Bool) :
    outcome directory ⟨c :: p.checks, p.failure?⟩ foundErrors =
      let later := outcome directory p (foundErrors || hasError (c.report directory))
      { later with
        output := exactLines (CommandLine.shown (c.report directory)) ++ later.output } := by
  have hshown : shown directory ⟨c :: p.checks, p.failure?⟩ =
      CommandLine.shown (c.report directory) ++ p.shown directory := List.flatMap_cons
  have hprinted : printed directory ⟨c :: p.checks, p.failure?⟩ =
      CommandLine.shown (c.report directory) ++ p.printed directory := by
    rw [printed, hshown, List.takeWhile_append_of_pos (List.all_eq_true.1 h), printed]
  simp only [outcome, hprinted, exactLines_append, hshown, List.all_append, h, Bool.true_and,
    List.any_append, hasError_eq, Bool.or_assoc]

theorem outcome_of_not_isPrintable {c : Checked}
    (h : (CommandLine.shown (c.report directory)).all isPrintable = false) (foundErrors : Bool) :
    outcome directory ⟨[c], none⟩ foundErrors =
      ⟨exactLines ((CommandLine.shown (c.report directory)).takeWhile isPrintable),
        .overflowed⟩ := by
  have hshown : shown directory ⟨[c], none⟩ = CommandLine.shown (c.report directory) :=
    List.flatMap_singleton _ _
  simp only [outcome, printed, hshown, h, Bool.false_eq_true, if_false]

end Progress

section System

variable {m : Type → Type} [Monad m] [LawfulMonad m] (host : Host m) (settings : ToolSettings)

/-- Opens a file and has evi check it. -/
def examine (file : Path) : m (Except Failure Checked) := do
  match ← openDocument host file with
  | .error f => return .error f
  | .ok document =>
    let reply ← consult host settings document .diagnostics none
    return (reply.bind (Checked.ofReply document)).mapError fun e =>
      (Failure.ofLint e).during ("checking " ++ document.path.text)

/-- Checks files one after another, up to the first that cannot be checked, or in which a
diagnostic has no line of output. -/
def examineFiles : List Path → m Progress
  | [] => return ⟨[], none⟩
  | file :: rest => do
    match ← examine host settings file with
    | .error f => return ⟨[], some f⟩
    | .ok c =>
      if (shown (c.report host.directory.toOption)).all isPrintable then
        let later ← examineFiles rest
        return ⟨c :: later.checks, later.failure?⟩
      else return ⟨[c], none⟩

theorem Checked.reportOf_answerOf (directory : Option Path) (document : Document) (r : Reply) :
    Feature.reportOf directory document
        (Lint.answerOf .diagnostics r.snapshot document.path r.stdout) =
      (Checked.ofReply document r).map (·.report directory) := by
  unfold Checked.ofReply
  split
  · rename_i e h
    simp only [h, Feature.reportOf, Except.map]
  · rename_i result h
    simp only [h, Feature.reportOf, Except.map]
    rfl

theorem answerIn_check (document : Document) :
    (Feature.check host.directory.toOption document).answerIn (ask host settings document) =
      (fun reply => (reply.bind (Checked.ofReply document)).map
        (·.report host.directory.toOption)) <$>
        consult host settings document .diagnostics none := by
  have hcheck : (Feature.check host.directory.toOption document).answerIn
      (ask host settings document) =
        ask host settings document .diagnostics none >>= fun answer =>
          pure (Feature.reportOf host.directory.toOption document answer) := rfl
  rw [hcheck, ask, bind_assoc, map_eq_pure_bind]
  refine bind_congr fun reply => ?_
  rw [pure_bind]
  cases reply with
  | error e => rfl
  | ok r => exact congrArg pure (Checked.reportOf_answerOf _ document r)

theorem checkFile_eq (file : Path) :
    checkFile host settings file =
      Except.map (·.report host.directory.toOption) <$> examine host settings file := by
  rw [checkFile, examine, map_bind]
  refine bind_congr fun opened => ?_
  cases opened with
  | error f =>
    rw [map_pure]
    rfl
  | ok document =>
    simp only [answerIn_check, bind_map_left, map_bind, map_pure]
    refine bind_congr fun reply => ?_
    cases reply.bind (Checked.ofReply document) with
    | error e => rfl
    | ok c => rfl

/-- **What a check prints, and how it ends**, on any system. -/
theorem checkLines_eq (files : List Path) (foundErrors : Bool) :
    checkLines host settings foundErrors files =
      (·.outcome host.directory.toOption foundErrors) <$> examineFiles host settings files := by
  induction files generalizing foundErrors with
  | nil =>
    rw [checkLines, examineFiles, map_pure, Progress.outcome]
    simp [Progress.shown, Progress.printed, exactLines]
  | cons file rest ih =>
    rw [checkLines, examineFiles, checkFile_eq, map_bind, bind_map_left]
    refine bind_congr fun result => ?_
    cases result with
    | error f =>
      rw [map_pure]
      simp [Except.map, Progress.outcome, Progress.shown, Progress.printed, exactLines]
    | ok c =>
      simp only [Except.map, lines_eq]
      split
      · rename_i h
        simp only [ih, bind_map_left, map_bind, map_pure]
        refine bind_congr fun later => congrArg pure ?_
        rw [Progress.outcome_cons _ later h, List.takeWhile_eq_self_iff.2 (List.all_eq_true.1 h)]
      · rename_i h
        rw [map_pure, Progress.outcome_of_not_isPrintable _ (Bool.eq_false_iff.2 h)]

theorem check_eq (files : List Path) :
    check host settings false files =
      (·.outcome host.directory.toOption false) <$> examineFiles host settings files :=
  checkLines_eq host settings files false

/-- **A check prints every line as it is, and a column unless it is the greatest.** On any system a
check opens files and has evi check them, one after another; what it prints and how it ends follows
from evi's replies. Whatever these are, the line of every diagnostic has a successor, and a
diagnostic has a line of output, with the exact numbers, if its column has one too, and else none.
The check stops before the first that has none; it does so if and only if evi reported the greatest
column, and when it does not, it prints all diagnostics. -/
theorem prints_exact_lines_iff (files : List Path) :
    let directory := host.directory.toOption
    check host settings false files =
        (·.outcome directory false) <$> examineFiles host settings files ∧
      ∀ p : Progress,
        (∀ q ∈ p.shown directory, q.2.range.start.line.toNat + 1 < UInt32.size ∧
          line? q.1 q.2 =
            if q.2.range.start.character.toNat + 1 < UInt32.size then some (exactLine q)
            else none) ∧
          ((p.outcome directory false).ending = .overflowed ↔
            ∃ c ∈ p.checks, ∃ d ∈ c.found, d.position.column.toNat + 1 = UInt32.size) ∧
          ((p.outcome directory false).ending ≠ .overflowed →
            (p.outcome directory false).output = exactLines (p.shown directory)) := by
  intro directory
  have hending (p : Progress) : (p.outcome directory false).ending = .overflowed ↔
      ¬(p.shown directory).all isPrintable = true := by
    simp only [Progress.outcome]
    split
    · rename_i h
      refine iff_of_false ?_ (not_not.2 h)
      cases p.failure? <;> exact nofun
    · rename_i h
      exact iff_of_true rfl h
  refine ⟨check_eq host settings files, fun p => ⟨fun q hq => ?_, ?_, fun h => ?_⟩⟩
  · have hline := p.line_lt_of_mem_shown directory hq
    refine ⟨hline, (line?_eq q).trans (if_congr ?_ rfl rfl)⟩
    rw [isPrintable_iff, and_iff_right hline]
  · rw [hending, Progress.all_isPrintable_iff]
    simp only [not_forall, exists_prop]
    refine exists_congr fun c => and_congr_right fun _ => exists_congr fun d =>
      and_congr_right fun _ => ?_
    have hlt : d.position.column.toNat < UInt32.size := d.position.column.toNat_lt
    omega
  · have hall := not_not.1 (mt (hending p).2 h)
    have hprinted : p.printed directory = p.shown directory :=
      List.takeWhile_eq_self_iff.2 (List.all_eq_true.1 hall)
    rw [Progress.outcome, hprinted]

end System

/-- A system with one file, on which evi prints the same text for every question. -/
def lonelyHost (file : Path) (text stdout : String) : Host Id where
  directory := .ok ⟨"/"⟩
  home := none
  executable := none
  searchPath := none
  canonical _ := .ok file
  read _ := .ok text
  canRun _ := true
  run _ _ := .ended ⟨0⟩ (some 0) (Utf8.encode stdout.toList) []

/-- A diagnostic in the greatest column is accepted; the check prints what stands before it. -/
theorem stops_at_greatest_column :
    let entry := "\x7b\"file\":\"/a\",\"line\":1,\"length\":1,\"message\":\"m\"," ++
      "\"type\":\"error\",\"column\":"
    let stdout := "[" ++ entry ++ "2\x7d," ++ entry ++ "4294967295\x7d]"
    let host := lonelyHost ⟨"/a"⟩ "x" stdout
    let settings : ToolSettings := { executable := some ⟨"evi"⟩ }
    (check host settings false [⟨"/a"⟩]).run = ⟨"/a:1:3: error: m\n", .overflowed⟩ ∧
      Ending.overflowed.status = 101 ∧
      ∃ c ∈ (examineFiles host settings [⟨"/a"⟩]).run.checks, ∃ d ∈ c.found,
        d.position.column.toNat + 1 = UInt32.size := by
  intro entry stdout host settings
  obtain ⟨hcheck, hall⟩ := prints_exact_lines_iff host settings [⟨"/a"⟩]
  have hrun : (check host settings false [⟨"/a"⟩]).run =
      ⟨"/a:1:3: error: m\n", .overflowed⟩ := by
    decide +kernel
  refine ⟨hrun, rfl, (hall _).2.1.1 ?_⟩
  rw [hcheck, Id.run_map] at hrun
  rw [hrun]

end EviAssist.CommandLine
