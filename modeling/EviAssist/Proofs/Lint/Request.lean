import EviAssist.Lint.Request
import EviAssist.Proofs.Path
import EviAssist.Proofs.Text.Numeral
import EviAssist.Proofs.Text.Search
import Mathlib.Data.List.Induction

/-!
# Commands read back

The arguments of a command say all that a request asks: they are read one by one, from left to
right, and what they say is what was asked.

* `LintRequest.isFirstSeen_distinct`: each directory is kept once, as it is first written.
* `Readback`, `Readback.ofArguments?`: what a list of arguments says.
* `Readback.cursor?_eq_none_iff`: `0:0` is the one way to write that there is no cursor.
* `Readback.ofArguments?_command`: the arguments of any command.
* `LintRequest.commands_read_back`: what is asked about a document is what its command says.
-/

namespace EviAssist

/-! ## Include directories -/

namespace LintRequest

theorem distinct_concat (paths : List Path) (p : Path) :
    distinct (paths ++ [p]) =
      if (distinct paths).any (·.same p) then distinct paths else distinct paths ++ [p] :=
  List.foldl_concat ..

/-- The different directories are kept, in the spelling and in the order in which they come. -/
theorem isFirstSeen_distinct (paths : List Path) : Path.IsFirstSeen paths (distinct paths) := by
  induction paths using List.reverseRecOn with
  | nil => exact ⟨nofun, nofun, .nil⟩
  | append_singleton paths p ih =>
    rw [distinct_concat]
    by_cases h : (distinct paths).any (·.same p) = true
    · rw [if_pos h]
      exact ih.concat_of_mem (List.any_eq_true.1 h)
    · rw [if_neg h]
      exact ih.concat_of_notMem fun hp => h (List.any_eq_true.2 hp)

end LintRequest

/-! ## Reading arguments -/

/-- What the arguments of a command say. -/
structure Readback where
  snapshot : String
  includeDirs : List String
  kind : LintKind
  cursor : Option Position
  tabWidth : UInt32
  deriving DecidableEq, Repr

namespace Readback

/-- The value of an option that begins with `start`. -/
def value? (start argument : String) : Option String :=
  (Text.afterStart? start.toList argument.toList).map String.ofList

/-- A line counted from one and a column, with a colon between; `0:0` is no cursor. -/
def cursor? (text : String) : Option (Option Position) :=
  if text = "0:0" then some none
  else
    match text.toList.dropWhile (· != ':') with
    | [] => none
    | _ :: column => do
      let line ← Text.readUInt32? (text.toList.takeWhile (· != ':'))
      let column ← Text.readUInt32? column
      if line = 0 then none else some (some ⟨line - 1, column⟩)

/-- What arguments say: the snapshot comes first, then any number of include directories, then the
kind, the cursor and the tab width. -/
def ofArguments? : List String → Option Readback
  | [] => none
  | snapshot :: options => do
    let isDirectory := fun option => (value? "--include=" option).isSome
    let directories := (options.takeWhile isDirectory).filterMap (value? "--include=")
    match options.dropWhile isDirectory with
    | [kind, cursor, tabWidth] =>
      let kind ← LintKind.ofName? (← value? "--lint-type=" kind)
      let cursor ← cursor? (← value? "--lint-pos=" cursor)
      let tabWidth ← Text.readUInt32? (← value? "--lint-tab-width=" tabWidth).toList
      return ⟨snapshot, directories, kind, cursor, tabWidth⟩
    | _ => none

theorem value?_append (start text : String) : value? start (start ++ text) = some text := by
  rw [value?, String.toList_append, Text.afterStart?_append, Option.map_some, String.ofList_toList]

theorem ofName?_name (kind : LintKind) : LintKind.ofName? kind.name = some kind := by
  cases kind <;> rfl

/-! ## Cursors -/

theorem cursor?_eq_none_iff {text : String} : cursor? text = some none ↔ text = "0:0" := by
  unfold cursor?
  by_cases h : text = "0:0"
  · simp [h]
  · rw [if_neg h]
    refine iff_of_false (fun hread => ?_) h
    split at hread
    · cases hread
    · simp only [Option.bind_eq_bind, Option.bind_eq_some_iff] at hread
      obtain ⟨line, -, column, -, hread⟩ := hread
      split at hread <;> cases hread

theorem cursor?_encodeCursor (cursor : Option Position) :
    cursor? (encodeCursor cursor) =
      some (cursor.map fun p => ⟨Count.succ p.line - 1, p.character⟩) := by
  cases cursor with
  | none => rfl
  | some p =>
    have htext : (encodeCursor (some p)).toList =
        Text.decimal (Count.succ p.line).toNat ++ ':' :: Text.decimal p.character.toNat := by
      rw [encodeCursor, String.toList_append, String.toList_append, Text.toList_toString,
        Text.toList_toString, List.append_assoc]
      rfl
    have hdigits : ∀ c ∈ Text.decimal (Count.succ p.line).toNat, (c != ':') = true := by
      intro c hc
      refine bne_iff_ne.2 ?_
      rintro rfl
      exact absurd (Text.isDigit_of_mem_decimal hc) (by decide)
    have hcolon : ∀ c ∈ (':' :: Text.decimal p.character.toNat).head?, (c != ':') = false := by
      rintro _ ⟨⟩
      rfl
    have hline : Count.succ p.line ≠ 0 := by
      intro h0
      have hsucc := Count.toNat_succ p.line
      rw [h0] at hsucc
      simp only [UInt32.toNat_zero, UInt32.size] at hsucc
      omega
    have hne : encodeCursor (some p) ≠ "0:0" := by
      intro h0
      rw [h0] at htext
      have hfirst := congrArg (List.takeWhile (· != ':')) htext
      rw [Text.takeWhile_append_of_head hdigits hcolon] at hfirst
      have hzero := Text.natOf_decimal (Count.succ p.line).toNat
      rw [← hfirst] at hzero
      exact hline (UInt32.toNat_inj.1 hzero.symm)
    rw [cursor?, if_neg hne, htext, Text.takeWhile_append_of_head hdigits hcolon,
      Text.dropWhile_append_of_head hdigits hcolon]
    simp only [Text.readUInt32?_decimal, Option.bind_eq_bind, Option.bind_some, if_neg hline,
      Option.map_some]

theorem encodeCursor_eq_iff {cursor : Option Position} :
    encodeCursor cursor = "0:0" ↔ cursor = none := by
  rw [← cursor?_eq_none_iff, cursor?_encodeCursor, Option.some.injEq, Option.map_eq_none_iff]

/-! ## Commands -/

/-- **The arguments of any command are read back**, whatever characters the directories have. -/
theorem ofArguments?_command (r : LintRequest) (program snapshot : Path) :
    ofArguments? (r.command program snapshot).arguments =
      some ⟨snapshot.text, r.includeDirs.map (·.text), r.kind,
        r.cursor.map fun p => ⟨Count.succ p.line - 1, p.character⟩, r.tabWidth⟩ := by
  have hdirectories : ∀ option ∈ r.includeDirs.map ("--include=" ++ ·.text),
      (value? "--include=" option).isSome = true := by
    intro option hoption
    obtain ⟨dir, -, rfl⟩ := List.mem_map.1 hoption
    rw [value?_append]
    rfl
  -- The option after the directories begins otherwise, whatever the directories are called.
  have hkind : ∀ option ∈ ["--lint-type=" ++ r.kind.name, "--lint-pos=" ++ encodeCursor r.cursor,
      "--lint-tab-width=" ++ toString r.tabWidth].head?,
      (value? "--include=" option).isSome = false := by
    rintro _ ⟨⟩
    rw [value?, String.toList_append]
    rfl
  have hread : (r.includeDirs.map ("--include=" ++ ·.text)).filterMap (value? "--include=") =
      r.includeDirs.map (·.text) := by
    rw [List.filterMap_map, ← List.filterMap_eq_map]
    exact congrArg (List.filterMap · r.includeDirs) (funext fun dir => value?_append _ _)
  rw [LintRequest.command, List.append_assoc, List.singleton_append, ofArguments?]
  simp only [Text.takeWhile_append_of_head hdirectories hkind,
    Text.dropWhile_append_of_head hdirectories hkind, hread, value?_append, ofName?_name,
    cursor?_encodeCursor, Text.toList_toString, Text.readUInt32?_decimal, Option.bind_eq_bind,
    Option.bind_some, Option.pure_def]

end Readback

namespace LintRequest

theorem usesCursor_eq_false_iff {kind : LintKind} :
    kind.usesCursor = false ↔ kind = .diagnostics := by
  cases kind <;> decide

theorem cursor_make_eq_none_iff {document : Document} {kind : LintKind} {cursor : Option Position}
    {settings : ToolSettings} :
    (make document kind cursor settings).cursor = none ↔ cursor = none ∨ kind = .diagnostics := by
  rw [make, ← usesCursor_eq_false_iff]
  cases kind.usesCursor <;> simp

theorem succ_sub_one {n : UInt32} (h : n.toNat < UInt32.size - 1) : Count.succ n - 1 = n := by
  have hsucc : (Count.succ n).toNat = n.toNat + 1 := by
    rw [Count.toNat_succ]
    omega
  have hle : 1 ≤ Count.succ n := by
    rw [UInt32.le_iff_toNat_le, hsucc]
    exact Nat.le_add_left 1 _
  rw [← UInt32.toNat_inj, UInt32.toNat_sub_of_le _ _ hle, hsucc]
  rfl

/-- **What is asked about a document is what its command says.** The directories of a request are
the document's own and the configured ones, each once and as it is first written. From the
arguments of its command the snapshot, the directories, the kind, the cursor and the tab width are
read back: no cursor from `0:0`, which is written when there is none or the kind has no use for
one, and otherwise the cursor itself on every line but the last. -/
theorem commands_read_back (document : Document) (kind : LintKind) (cursor : Option Position)
    (settings : ToolSettings) (program snapshot : Path) :
    let r := make document kind cursor settings
    Path.IsFirstSeen
        ((document.path.parent?.filter (·.text ≠ "")).toList ++ settings.includeDirs)
        r.includeDirs ∧
      (encodeCursor r.cursor = "0:0" ↔ cursor = none ∨ kind = .diagnostics) ∧
      ∃ read, Readback.ofArguments? (r.command program snapshot).arguments =
          some ⟨snapshot.text, r.includeDirs.map (·.text), kind, read, settings.tabWidth⟩ ∧
        (read = none ↔ encodeCursor r.cursor = "0:0") ∧
        ∀ p, cursor = some p → kind ≠ .diagnostics → p.line.toNat < UInt32.size - 1 →
          read = some p := by
  intro r
  have hcursor : encodeCursor r.cursor = "0:0" ↔ r.cursor = none := Readback.encodeCursor_eq_iff
  refine ⟨isFirstSeen_distinct _, hcursor.trans cursor_make_eq_none_iff, _,
    Readback.ofArguments?_command r program snapshot, ?_, ?_⟩
  · rw [hcursor, Option.map_eq_none_iff]
  · rintro p rfl hkind hline
    have huses : kind.usesCursor = true :=
      (Bool.eq_false_or_eq_true _).resolve_right (mt usesCursor_eq_false_iff.1 hkind)
    have hr : r.cursor = some p := if_pos huses
    rw [hr, Option.map_some, succ_sub_one hline]

/-- Directories that look like other options, or like one another, are read back. -/
theorem reads_back_directories_like_options :
    let document : Document := { path := ⟨"/src/main.evi"⟩, text := "" }
    let settings : ToolSettings :=
      { includeDirs := [⟨"--lint-pos=1:1"⟩, ⟨"/src//."⟩, ⟨"--include=a b"⟩, ⟨"--lint-pos=1:1/"⟩] }
    let r := make document .declaration (some ⟨0, 0⟩) settings
    Readback.ofArguments? (r.command ⟨"evi"⟩ ⟨"--include=x"⟩).arguments =
      some ⟨"--include=x", ["/src", "--lint-pos=1:1", "--include=a b"], .declaration,
        some ⟨0, 0⟩, 4⟩ := by
  intro document settings r
  obtain ⟨-, -, read, hread, -, hcursor⟩ :=
    commands_read_back document .declaration (some ⟨0, 0⟩) settings ⟨"evi"⟩ ⟨"--include=x"⟩
  have hdirs : r.includeDirs.map (·.text) = ["/src", "--lint-pos=1:1", "--include=a b"] := by
    decide
  rw [hread, hcursor _ rfl (by decide) (by decide), hdirs]

end LintRequest

end EviAssist
