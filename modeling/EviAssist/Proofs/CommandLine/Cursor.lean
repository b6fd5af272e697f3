import EviAssist.Proofs.CommandLine
import EviAssist.Proofs.Text.Numeral
import EviAssist.Proofs.Text.Search

/-!
# Cursors read and printed

A cursor is read from its end: the column stands after the last colon and the line after the last
one before it, so whatever colons a file's name has, it is what is left.

* `Cursor.cutLast?_eq_some_iff`, `Cursor.parts?_eq_some_iff`: the parts of a cursor.
* `Cursor.IsCount`, `Cursor.isCount_iff`: lines and columns.
* `Cursor.ofText_eq_ok_iff`: what texts are cursors.
* `Cursor.ofText_place`: a printed place is read back.
* `Cursor.reads_printed_places`: what is read, and what a check prints.
-/

namespace EviAssist

namespace Cursor

/-! ## Parts -/

/-- A text is cut at a colon after which there is none. -/
theorem cutLast?_eq_some_iff {cs before after : List Char} :
    cutLast? cs = some (before, after) ↔ cs = before ++ ':' :: after ∧ ':' ∉ after := by
  constructor
  · intro h
    have hsplit : cs.reverse.takeWhile (· != ':') ++ cs.reverse.dropWhile (· != ':') = cs.reverse :=
      List.takeWhile_append_dropWhile
    have hnone : ':' ∉ cs.reverse.takeWhile (· != ':') := fun hc => by
      simpa using List.mem_takeWhile_imp hc
    have hhead := List.head?_dropWhile_not (· != ':') cs.reverse
    unfold cutLast? at h
    cases hrest : cs.reverse.dropWhile (· != ':') with
    | nil =>
      rw [hrest] at h
      cases h
    | cons c rest =>
      rw [hrest] at h hsplit hhead
      obtain rfl : c = ':' := by simpa using hhead
      cases h
      exact ⟨by simpa using (congrArg List.reverse hsplit).symm, by simpa using hnone⟩
  · rintro ⟨rfl, hafter⟩
    have hrun : ∀ c ∈ after.reverse, (c != ':') = true := fun c hc =>
      bne_iff_ne.2 fun heq => hafter (heq ▸ List.mem_reverse.1 hc)
    have hcolon : ∀ c ∈ (':' :: before.reverse).head?, (c != ':') = false := by simp
    have hrev : (before ++ ':' :: after).reverse = after.reverse ++ ':' :: before.reverse := by simp
    rw [cutLast?, hrev, Text.dropWhile_append_of_head hrun hcolon,
      Text.takeWhile_append_of_head hrun hcolon]
    simp only [List.reverse_reverse]

/-- The line and the column have no colon, the file may have some. -/
theorem parts?_eq_some_iff {cs file line column : List Char} :
    parts? cs = some (file, line, column) ↔
      cs = file ++ ':' :: line ++ ':' :: column ∧ ':' ∉ line ∧ ':' ∉ column := by
  simp only [parts?, Option.bind_eq_bind, Option.bind_eq_some_iff, Prod.exists,
    cutLast?_eq_some_iff]
  constructor
  · rintro ⟨rest, _, ⟨rfl, hcolumn⟩, _, _, ⟨rfl, hline⟩, heq⟩
    cases heq
    exact ⟨rfl, hline, hcolumn⟩
  · rintro ⟨rfl, hline, hcolumn⟩
    exact ⟨_, _, ⟨rfl, hcolumn⟩, _, _, ⟨rfl, hline⟩, rfl⟩

/-! ## Lines and columns -/

/-- Whether a text is a number counted from one: ASCII digits, with or without a plus sign. -/
def IsCount (text : String) (n : UInt32) : Prop :=
  1 ≤ n ∧ ∃ digits, (text.toList = digits ∨ text.toList = '+' :: digits) ∧ digits ≠ [] ∧
    (∀ c ∈ digits, c.isDigit = true) ∧ Nat.ofDigitChars 10 digits 0 = n.toNat

theorem isCount_iff {text : String} {n : UInt32} :
    IsCount text n ↔ n ≠ 0 ∧ Text.readUInt32? text.toList = some n := by
  have hpos : 1 ≤ n ↔ n ≠ 0 := by
    rw [UInt32.le_iff_toNat_le, Ne, ← UInt32.toNat_inj]
    simp only [UInt32.toNat_ofNat]
    omega
  rw [IsCount, hpos, Text.readUInt32?_eq_some_iff, Text.readUnsigned?_eq_some_iff]
  simp only [Text.natOf_eq_ofDigitChars]

theorem isCount_toString {n : UInt32} (h : 1 ≤ n) : IsCount (toString n) n := by
  refine ⟨h, Text.decimal n.toNat, .inl (Text.toList_toString n), Nat.toDigits_ne_nil,
    fun _ hc => Text.isDigit_of_mem_decimal hc, ?_⟩
  rw [← Text.natOf_eq_ofDigitChars, Text.natOf_decimal]

theorem IsCount.colon_notMem {text : String} {n : UInt32} (h : IsCount text n) :
    ':' ∉ text.toList := by
  obtain ⟨-, digits, htext, -, hdigits, -⟩ := h
  have hnone : ':' ∉ digits := fun hc => absurd (hdigits _ hc) (by decide)
  obtain htext | htext := htext
  · rwa [htext]
  · rw [htext, List.mem_cons, not_or]
    exact ⟨by decide, hnone⟩

/-! ## Cursors -/

theorem ofText_eq_ok_iff_of_parts? {text file line column : String} {cursor : Cursor}
    (h : parts? text.toList = some (file.toList, line.toList, column.toList)) :
    ofText text = .ok cursor ↔
      cursor.file.text = file ∧ file ≠ "" ∧
        ∃ l c, IsCount line l ∧ IsCount column c ∧ cursor.position = ⟨l - 1, c - 1⟩ := by
  have hempty : file.toList.isEmpty = true ↔ file = "" := by
    rw [List.isEmpty_iff, String.toList_eq_nil_iff]
  obtain ⟨⟨name⟩, position⟩ := cursor
  simp only [ofText, h, isCount_iff]
  cases Text.readUInt32? line.toList with
  | none => simp
  | some l =>
    cases Text.readUInt32? column.toList with
    | none => simp
    | some c =>
      simp only [hempty, String.ofList_toList, Option.some.injEq]
      split
      · rename_i hnone
        refine ⟨nofun, ?_⟩
        rintro ⟨-, hfile, l, c, ⟨hl, rfl⟩, ⟨hc, rfl⟩, -⟩
        obtain h | h | h := hnone
        · exact absurd h hl
        · exact absurd h hc
        · exact absurd h hfile
      · rename_i hsome
        simp only [not_or] at hsome
        constructor
        · rintro ⟨⟩
          exact ⟨rfl, hsome.2.2, l, c, ⟨hsome.1, rfl⟩, ⟨hsome.2.1, rfl⟩, rfl⟩
        · rintro ⟨rfl, -, l, c, ⟨-, rfl⟩, ⟨-, rfl⟩, rfl⟩
          rfl

/-- **What texts are cursors**: a file that is not empty, a line and a column, between colons. -/
theorem ofText_eq_ok_iff {text : String} {cursor : Cursor} :
    ofText text = .ok cursor ↔
      ∃ line column l c, text = cursor.file.text ++ ":" ++ line ++ ":" ++ column ∧
        cursor.file.text ≠ "" ∧ IsCount line l ∧ IsCount column c ∧
        cursor.position = ⟨l - 1, c - 1⟩ := by
  have hform (file line column : String) :
      text.toList = file.toList ++ ':' :: line.toList ++ ':' :: column.toList ↔
        text = file ++ ":" ++ line ++ ":" ++ column := by
    rw [← String.toList_inj]
    simp
  constructor
  · intro h
    cases hparts : parts? text.toList with
    | none =>
      rw [ofText, hparts] at h
      cases h
    | some parts =>
      obtain ⟨file, line, column⟩ := parts
      have hlists : parts? text.toList = some ((String.ofList file).toList,
          (String.ofList line).toList, (String.ofList column).toList) := by
        simpa only [String.toList_ofList] using hparts
      obtain ⟨hfile, hne, l, c, hl, hc, hposition⟩ := (ofText_eq_ok_iff_of_parts? hlists).1 h
      refine ⟨_, _, l, c, (hform _ _ _).1 ?_, hfile ▸ hne, hl, hc, hposition⟩
      rw [hfile]
      exact (parts?_eq_some_iff.1 hlists).1
  · rintro ⟨line, column, l, c, htext, hfile, hl, hc, hposition⟩
    have hlists := parts?_eq_some_iff.2
      ⟨(hform _ _ _).2 htext, hl.colon_notMem, hc.colon_notMem⟩
    exact (ofText_eq_ok_iff_of_parts? hlists).2 ⟨rfl, hfile, l, c, hl, hc, hposition⟩

theorem ofText_toString {file : Path} {line column : UInt32} (hfile : file.text ≠ "")
    (hline : 1 ≤ line) (hcolumn : 1 ≤ column) :
    ofText (file.text ++ ":" ++ toString line ++ ":" ++ toString column) =
      .ok ⟨file, ⟨line - 1, column - 1⟩⟩ :=
  ofText_eq_ok_iff.2
    ⟨_, _, line, column, rfl, hfile, isCount_toString hline, isCount_toString hcolumn, rfl⟩

/-! ## Printed places -/

theorem one_le_of_succ? {n k : UInt32} (h : Count.succ? n = some k) : 1 ≤ k := by
  rw [UInt32.le_iff_toNat_le, Count.succ?_eq_some_iff.1 h]
  exact Nat.le_add_left 1 n.toNat

/-- A printed place is read back when its line and its column have successors. -/
theorem ofText_place {file : Path} {p : Position} (hfile : file.text ≠ "")
    (hline : p.line.toNat + 1 < UInt32.size) (hcharacter : p.character.toNat + 1 < UInt32.size) :
    ofText (CommandLine.place file p) = .ok ⟨file, p⟩ := by
  have hl : Count.succ? p.line = some (p.line + 1) := if_pos hline
  have hc : Count.succ? p.character = some (p.character + 1) := if_pos hcharacter
  have h := ofText_toString hfile (one_le_of_succ? hl) (one_le_of_succ? hc)
  rw [UInt32.add_sub_cancel, UInt32.add_sub_cancel] at h
  rwa [CommandLine.place, ← CommandLine.toString_of_succ? hl, ← CommandLine.toString_of_succ? hc]

open CommandLine in
/-- **Cursors are read as they are printed.** A file that is not empty, a line and a column counted
from one are read back from between colons, whatever colons and digits the file has. No text is a
cursor unless it has this form, where each number may have a plus sign, and then it is the cursor of
these parts. On any system a check opens files and has evi check them, one after another, and what
it prints follows from evi's replies: lines for the diagnostics before the first one in the greatest
column. Whatever evi replies, the line for a diagnostic in any other column begins with a place that
is read back as its file and its start, unless the file is empty. -/
theorem reads_printed_places {m : Type → Type} [Monad m] [LawfulMonad m] (host : Host m)
    (settings : ToolSettings) (files : List Path) :
    let directory := host.directory.toOption
    (∀ (file : Path) (line column : UInt32), file.text ≠ "" → 1 ≤ line → 1 ≤ column →
      ofText (file.text ++ ":" ++ toString line ++ ":" ++ toString column) =
        .ok ⟨file, ⟨line - 1, column - 1⟩⟩) ∧
      (∀ (text : String) (cursor : Cursor), ofText text = .ok cursor ↔
        ∃ line column l c, text = cursor.file.text ++ ":" ++ line ++ ":" ++ column ∧
          cursor.file.text ≠ "" ∧ IsCount line l ∧ IsCount column c ∧
          cursor.position = ⟨l - 1, c - 1⟩) ∧
      check host settings false files =
        (·.outcome directory false) <$> examineFiles host settings files ∧
      ∀ p : Progress,
        (p.outcome directory false).output =
          String.join (((p.shown directory).takeWhile isPrintable).map fun q =>
            place q.1 q.2.range.start ++ ": " ++ severityName q.2 ++ ": " ++ q.2.message ++ "\n") ∧
        ∀ q ∈ p.shown directory, q.2.range.start.character.toNat + 1 < UInt32.size →
          line? q.1 q.2 = some
            (place q.1 q.2.range.start ++ ": " ++ severityName q.2 ++ ": " ++ q.2.message) ∧
          (q.1.text ≠ "" → ofText (place q.1 q.2.range.start) = .ok ⟨q.1, q.2.range.start⟩) := by
  intro directory
  refine ⟨fun file line column => ofText_toString, fun text cursor => ofText_eq_ok_iff,
    check_eq host settings files, fun p => ⟨rfl, fun q hq hcharacter => ?_⟩⟩
  have hline := p.line_lt_of_mem_shown directory hq
  exact ⟨(line?_eq q).trans (if_pos (isPrintable_iff.2 ⟨hline, hcharacter⟩)),
    fun hfile => ofText_place hfile hline hcharacter⟩

open CommandLine in
/-- A file's name may look like a cursor. -/
theorem reads_place_in_numbered_file :
    let file : Path := ⟨"a:1:2"⟩
    let stdout := "[\x7b\"file\":\"a:1:2\",\"line\":7,\"column\":4294967294,\"length\":1," ++
      "\"message\":\"m\",\"type\":\"error\"\x7d]"
    let host := lonelyHost ⟨"/b"⟩ "x" stdout
    let settings : ToolSettings := { executable := some ⟨"evi"⟩ }
    let progress := (examineFiles host settings [⟨"/b"⟩]).run
    (check host settings false [⟨"/b"⟩]).run =
        ⟨"a:1:2:7:4294967295: error: m\n", .done true⟩ ∧
      (check host settings false [⟨"/b"⟩]).run = progress.outcome host.directory.toOption false ∧
      (progress.shown host.directory.toOption).map (fun q => (q.1, q.2.range.start)) =
        [(file, ⟨6, 4294967294⟩)] ∧
      (∀ q ∈ progress.shown host.directory.toOption,
        ofText (place q.1 q.2.range.start) = .ok ⟨q.1, q.2.range.start⟩) ∧
      ofText "a:1:2:7:4294967295" = .ok ⟨file, ⟨6, 4294967294⟩⟩ := by
  intro file stdout host settings progress
  obtain ⟨hread, -, hcheck, hall⟩ := reads_printed_places host settings [⟨"/b"⟩]
  have hshown : (progress.shown host.directory.toOption).map (fun q => (q.1, q.2.range.start)) =
      [(file, ⟨6, 4294967294⟩)] := by
    decide +kernel
  refine ⟨by decide +kernel, by rw [hcheck, Id.run_map], hshown, fun q hq => ?_,
    hread file 7 4294967295 (by decide) (by decide) (by decide)⟩
  have hplace : (q.1, q.2.range.start) = (file, ⟨6, 4294967294⟩) := by
    rw [← List.mem_singleton, ← hshown]
    exact List.mem_map_of_mem hq
  obtain ⟨hfile, hstart⟩ := Prod.mk.inj hplace
  refine ((hall progress).2 q hq ?_).2 ?_
  · rw [hstart]
    decide
  · rw [hfile]
    decide

end Cursor

end EviAssist
