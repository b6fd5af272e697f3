import EviAssist.CallSite
import EviAssist.Document

/-!
# Line ends

Some editors end a line with a carriage return and a line feed. All that is read from a text is
read from its lines, and these are the same for both ways to end them.

* `Text.lines_replace_lineFeed`: the lines of a text whose line feeds got carriage returns.
* `SourcePosition.rangeIn_congr_lines`, `CallSite.find?_congr_lines`, `Document.line?_congr_lines`,
  `Document.wordRange?_congr_lines`, `Document.word?_congr_lines`: what is the same in texts of the
  same lines.
* `Document.ignores_line_ends`: what is read from a document.
-/

namespace EviAssist

/-! ## Lines -/

namespace Text

theorem replaceAll_singleton (c : Char) (replacement cs : List Char) :
    replaceAll [c] replacement cs = cs.flatMap fun d => if d = c then replacement else [d] := by
  unfold replaceAll
  induction cs with
  | nil => rfl
  | cons d cs ih =>
    rw [List.flatMap_cons, ← ih]
    by_cases h : d = c
    · subst h
      simp [replaceFrom, afterStart?]
    · simp [replaceFrom, afterStart?, h, Ne.symm h]

theorem linesOf_replaceAll_lineFeed {cs : List Char} (h : '\r' ∉ cs) :
    linesOf (replaceAll ['\n'] ['\r', '\n'] cs) = linesOf cs := by
  rw [replaceAll_singleton]
  induction cs with
  | nil => rfl
  | cons c cs ih =>
    have hr : c ≠ '\r' := fun hc => h (hc ▸ .head _)
    have hcs : '\r' ∉ cs := fun hm => h (.tail _ hm)
    rw [List.flatMap_cons]
    by_cases hn : c = '\n'
    · subst hn
      show [] :: linesOf (cs.flatMap _) = [] :: linesOf cs
      rw [ih hcs]
    · rw [if_neg hn, List.singleton_append, linesOf_cons hn hr, linesOf_cons hn hr, ih hcs]

/-- **The lines of a text** stay the same when every line feed gets a carriage return before
it. -/
theorem lines_replace_lineFeed {text : String} (h : '\r' ∉ text.toList) :
    lines (replace "\n" "\r\n" text) = lines text := by
  rw [lines, lines, replace, String.toList_ofList]
  exact linesOf_replaceAll_lineFeed h

end Text

/-! ## Readers of lines -/

section Readers

variable {text text' : String} {d d' : Document}

theorem SourcePosition.rangeIn_congr_lines (h : Text.lines text' = Text.lines text)
    (p : SourcePosition) : p.rangeIn text' = p.rangeIn text := by
  simp only [rangeIn, Text.line?, h]

theorem CallSite.find?_congr_lines (h : Text.lines text' = Text.lines text) (at' : Position) :
    find? text' at' = find? text at' := by
  simp only [find?, textBefore, h]

namespace Document

theorem line?_congr_lines (h : Text.lines d'.text = Text.lines d.text) (number : UInt32) :
    d'.line? number = d.line? number := by
  simp only [line?, Text.line?, h]

theorem wordRange?_congr_lines (h : Text.lines d'.text = Text.lines d.text) (at' : Position) :
    d'.wordRange? at' = d.wordRange? at' := by
  simp only [wordRange?, line?_congr_lines h]

theorem word?_congr_lines (h : Text.lines d'.text = Text.lines d.text) (at' : Position) :
    d'.word? at' = d.word? at' := by
  simp only [word?, line?_congr_lines h]

end Document

end Readers

namespace Document

/-- **Line ends do not matter.** In a document without carriage returns, let every line feed get one
before it: each line, the word at each position and its range, the range shown for each place that
evi reports, and the call that each position stands in stay the same. -/
theorem ignores_line_ends (d : Document) (h : '\r' ∉ d.text.toList) :
    let d' := { d with text := Text.replace "\n" "\r\n" d.text }
    (∀ number, d'.line? number = d.line? number) ∧
      (∀ at', d'.wordRange? at' = d.wordRange? at') ∧
      (∀ at', d'.word? at' = d.word? at') ∧
      (∀ p : SourcePosition, p.rangeIn d'.text = p.rangeIn d.text) ∧
      ∀ at', CallSite.find? d'.text at' = CallSite.find? d.text at' := by
  intro d'
  have hlines : Text.lines d'.text = Text.lines d.text := Text.lines_replace_lineFeed h
  exact ⟨line?_congr_lines hlines, wordRange?_congr_lines hlines, word?_congr_lines hlines,
    SourcePosition.rangeIn_congr_lines hlines, CallSite.find?_congr_lines hlines⟩

/-- A call over three lines, one of them empty, with the cursor behind the end of the last one. -/
theorem finds_call_over_line_ends :
    let d : Document := { path := ⟨"/a.evi"⟩, text := "~ f(1,\n\n  xy" }
    '\r' ∉ d.text.toList ∧
      Text.replace "\n" "\r\n" d.text = "~ f(1,\r\n\r\n  xy" ∧
      CallSite.find? "~ f(1,\r\n\r\n  xy" ⟨2, 9⟩ = some ⟨"f", 1⟩ ∧
      { d with text := "~ f(1,\r\n\r\n  xy" }.word? ⟨2, 4⟩ = some "xy" := by
  intro d
  have hreturns : '\r' ∉ d.text.toList := by decide
  have htext : Text.replace "\n" "\r\n" d.text = "~ f(1,\r\n\r\n  xy" := by decide
  obtain ⟨-, -, hword, -, hcall⟩ := d.ignores_line_ends hreturns
  rw [htext] at hword hcall
  exact ⟨hreturns, htext, (hcall _).trans (by decide), (hword _).trans (by decide)⟩

end Document

end EviAssist
