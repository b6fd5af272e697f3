import EviAssist.Proofs.Completion
import EviAssist.Proofs.Lint.Tables

/-!
# Looking symbols up

A word is looked up by its name in the table that evi gives, to show the symbol over it and to help
with a call. A name stands there once or not at all, so there is nothing to choose.

* `Feature.answerWith_hover_function`, `Feature.answerWith_hover_variable`: what is shown over a
  word.
* `Feature.answerWith_signatureHelp`: the help with a call.
* `Feature.looks_up_one_symbol`: the tables, and what is found in them.
-/

namespace EviAssist.Feature

open Json (IsObjectText deepest)
open Lint (IsFunctionTable IsVariableTable ReadsFunction ReadsVariable decode lastOf?)

variable {answer : LintKind → Option Position → Except LintError LintResult}
  {document : Document} {at' : Position} {word name : String} {range : Range}

/-! ## Under given answers -/

theorem answerWith_hover (hword : document.word? at' = some word)
    (hrange : document.wordRange? at' = some range) (htype : Literal.type? word = none) :
    (hover document at').answerWith answer =
      some ⟨((signatureOf? word at').answerWith answer).elim (.unknown word) .code, range⟩ := by
  rw [hover, hword, hrange]
  simp only [htype]
  rw [Inquiry.answerWith_bind]
  cases (signatureOf? word at').answerWith answer <;> rfl

/-- A word that is no variable is looked up among the functions. -/
theorem answerWith_hover_function {found : List FunctionSignature}
    (hword : document.word? at' = some word) (hrange : document.wordRange? at' = some range)
    (htype : Literal.type? word = none) (hname : Literal.variableName? word = none)
    (h : answer .knownFunctions (some at') = .ok (.knownFunctions found)) :
    (hover document at').answerWith answer =
      some ⟨(found.find? (·.identifier == word)).elim (.unknown word) (.code ·.signature),
        range⟩ := by
  rw [answerWith_hover hword hrange htype, signatureOf?, hname]
  simp only [Inquiry.answerWith_bind, Inquiry.answerWith_query, h]
  cases hf : found.find? (·.identifier == word) <;>
    simp [Except.toOption, LintResult.functionList, hf, Inquiry.answerWith, pure]

/-- A variable is looked up by its name without the dollar sign. -/
theorem answerWith_hover_variable {found : List Variable}
    (hword : document.word? at' = some word) (hrange : document.wordRange? at' = some range)
    (htype : Literal.type? word = none) (hname : Literal.variableName? word = some name)
    (h : answer .knownVariables (some at') = .ok (.knownVariables found)) :
    (hover document at').answerWith answer =
      some ⟨(found.find? (·.identifier == name)).elim (.unknown word) (.code ·.signature),
        range⟩ := by
  rw [answerWith_hover hword hrange htype, signatureOf?, hname]
  simp only [Inquiry.answerWith_bind, Inquiry.answerWith_query, h]
  cases hf : found.find? (·.identifier == name) <;>
    simp [Except.toOption, LintResult.variableList, hf, Inquiry.answerWith, pure]

/-- The function that is called is looked up by its name. -/
theorem answerWith_signatureHelp {found : List FunctionSignature} {site : CallSite}
    (hsite : CallSite.find? document.text at' = some site)
    (h : answer .knownFunctions (some at') = .ok (.knownFunctions found)) :
    (signatureHelp true document at').answerWith answer =
      (found.find? (·.identifier == site.callee)).map fun f =>
        ⟨f.signature, f.parameters, min site.argument (f.parameters.length - 1)⟩ := by
  rw [signatureHelp, hsite]
  simp only [Bool.not_true, Bool.false_eq_true, if_false, Inquiry.answerWith_bind,
    Inquiry.answerWith_query, h]
  rfl

/-! ## Tables -/

/-- **A table of symbols is complete, sorted and without repetition, and a lookup finds the one
symbol of a name.** A text is read as functions, or as variables, exactly when it is an object whose
members make a table: the symbols are sorted by the bytes of their names, their names are those that
are written but for the empty one, and each is read from the last value that is written under its
name. A variable without a name is left out too, but must be a text. An entry with a name that
cannot be read spoils the whole table, wherever it stands. So what is shown over a word, and the
help with a call, come from the one symbol with the name that is sought, or there is none. -/
theorem looks_up_one_symbol (stdout : String) :
    (∀ r, decode .knownFunctions stdout = .ok r ↔
      ∃ written found, IsObjectText (deepest - 1) written (Text.trim stdout.toList) ∧
        r = .knownFunctions found ∧ IsFunctionTable written found) ∧
    (∀ r, decode .knownVariables stdout = .ok r ↔
      ∃ written found, IsObjectText (deepest - 1) written (Text.trim stdout.toList) ∧
        r = .knownVariables found ∧ IsVariableTable written found ∧
        ∀ v, lastOf? "" written = some v → Lint.IsText v) ∧
    (∀ written name v, IsObjectText (deepest - 1) written (Text.trim stdout.toList) → name ≠ "" →
      lastOf? name written = some v →
        ((∀ f, ¬ReadsFunction name v f) → ∃ reason,
          decode .knownFunctions stdout = .error (.malformedOutput .knownFunctions reason)) ∧
        ((∀ x, ¬ReadsVariable name v x) → ∃ reason,
          decode .knownVariables stdout = .error (.malformedOutput .knownVariables reason))) ∧
    ∀ (answer : LintKind → Option Position → Except LintError LintResult) (document : Document)
      (at' : Position),
      (∀ found, decode .knownFunctions stdout = .ok (.knownFunctions found) →
        answer .knownFunctions (some at') = .ok (.knownFunctions found) →
        (∀ word range, document.word? at' = some word → document.wordRange? at' = some range →
          Literal.type? word = none → Literal.variableName? word = none →
            ∃ one : Option FunctionSignature,
              found.filter (·.identifier == word) = one.toList ∧
              (hover document at').answerWith answer =
                some ⟨one.elim (.unknown word) (.code ·.signature), range⟩) ∧
        ∀ site, CallSite.find? document.text at' = some site →
          ∃ one : Option FunctionSignature,
            found.filter (·.identifier == site.callee) = one.toList ∧
            (signatureHelp true document at').answerWith answer = one.map fun f =>
              ⟨f.signature, f.parameters, min site.argument (f.parameters.length - 1)⟩) ∧
      ∀ found, decode .knownVariables stdout = .ok (.knownVariables found) →
        answer .knownVariables (some at') = .ok (.knownVariables found) →
        ∀ word range name, document.word? at' = some word → document.wordRange? at' = some range →
          Literal.type? word = none → Literal.variableName? word = some name →
            ∃ one : Option Variable, found.filter (·.identifier == name) = one.toList ∧
              (hover document at').answerWith answer =
                some ⟨one.elim (.unknown word) (.code ·.signature), range⟩ := by
  have hfunctions (r : LintResult) (h : decode .knownFunctions stdout = .ok r) :
      ∃ written found, IsObjectText (deepest - 1) written (Text.trim stdout.toList) ∧
        IsFunctionTable written found := by
    obtain ⟨written, found, hw, -, hfound⟩ := Lint.decode_knownFunctions_iff.1 h
    exact ⟨written, found, hw, hfound⟩
  have hvariables (r : LintResult) (h : decode .knownVariables stdout = .ok r) :
      ∃ written found, IsObjectText (deepest - 1) written (Text.trim stdout.toList) ∧
        IsVariableTable written found := by
    obtain ⟨written, found, hw, -, hfound, -⟩ := Lint.decode_knownVariables_iff.1 h
    exact ⟨written, found, hw, hfound⟩
  refine ⟨fun r => Lint.decode_knownFunctions_iff, fun r => Lint.decode_knownVariables_iff,
    fun written name v hw hname hv => ⟨?_, ?_⟩, fun answer document at' => ⟨?_, ?_⟩⟩
  · exact Lint.decode_eq_malformedOutput hfunctions hw hname hv
  · exact Lint.decode_eq_malformedOutput hvariables hw hname hv
  · intro found hdecode hanswer
    obtain ⟨written, _, -, heq, hfound⟩ := Lint.decode_knownFunctions_iff.1 hdecode
    cases heq
    refine ⟨fun word range hword hrange htype hname => ?_, fun site hsite => ?_⟩
    · exact ⟨_, hfound.filter_eq word,
        answerWith_hover_function hword hrange htype hname hanswer⟩
    · exact ⟨_, hfound.filter_eq site.callee, answerWith_signatureHelp hsite hanswer⟩
  · intro found hdecode hanswer word range name hword hrange htype hname
    obtain ⟨written, _, -, heq, hfound, -⟩ := Lint.decode_knownVariables_iff.1 hdecode
    cases heq
    exact ⟨_, hfound.filter_eq name, answerWith_hover_variable hword hrange htype hname hanswer⟩

/-- Of two entries of one name the later is shown, and the entry without a name is not read. -/
theorem shows_later_of_two_entries :
    (signatureHelp true ⟨⟨"/a.evi"⟩, "f(", "evi"⟩ ⟨0, 2⟩).answerWith
      (fun kind _ => decode kind "\x7b\"f\":[\"old\"],\"\":0,\"e\":[\"x\"],\"f\":[\"new\"]\x7d") =
        some ⟨"@f new ()", [], 0⟩ := by
  have hdecode :
      decode .knownFunctions "\x7b\"f\":[\"old\"],\"\":0,\"e\":[\"x\"],\"f\":[\"new\"]\x7d" =
        .ok (.knownFunctions [⟨"e", "x", [], false⟩, ⟨"f", "new", [], false⟩]) := by
    decide +kernel
  have hsite : CallSite.find? "f(" ⟨0, 2⟩ = some ⟨"f", 0⟩ := by decide +kernel
  obtain ⟨-, -, -, hlookup⟩ := looks_up_one_symbol
    "\x7b\"f\":[\"old\"],\"\":0,\"e\":[\"x\"],\"f\":[\"new\"]\x7d"
  have hfound := (hlookup
    (fun kind _ => decode kind "\x7b\"f\":[\"old\"],\"\":0,\"e\":[\"x\"],\"f\":[\"new\"]\x7d")
    ⟨⟨"/a.evi"⟩, "f(", "evi"⟩ ⟨0, 2⟩).1 _ hdecode hdecode
  obtain ⟨one, hone, hhelp⟩ := hfound.2 ⟨"f", 0⟩ hsite
  have hone : [FunctionSignature.mk "f" "new" [] false] = one.toList :=
    Eq.trans (by decide +kernel) hone
  cases one with
  | none => cases hone
  | some f =>
    cases hone
    exact hhelp.trans (by decide +kernel)

end EviAssist.Feature
