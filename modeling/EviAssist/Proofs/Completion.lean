import EviAssist.Feature
import EviAssist.Proofs.Document
import EviAssist.Proofs.Text.Search
import Mathlib.Data.List.Nodup

/-!
# Proposals without routing

What is typed decides which tables are asked for. No proposal is lost by that: where a table is not
asked for, none of its labels begins with what is typed.

* `Completion.Proposals.mem_labels_foldl`, `Completion.Proposals.nodup_labels_foldl`: the labels
  after several words, each once.
* `Completion.Proposals.items_foldl`: the words themselves are those that match, without repeats.
* `Completion.Proposals.addVariables_if_wanted`, `Completion.Proposals.addFunctions_if_wanted`: a
  table that is not asked for would add nothing.
* `Feature.typedPart_eq`: what is typed is the part of the word left of the cursor.
* `Feature.answerWith_completions`: the proposals when evi answers, or does not.
* `Feature.completions_eq_unrouted`: the proposals are those that both tables have together.
-/

namespace EviAssist.Completion

variable {typed : String} {items : List CompletionItem} {item : CompletionItem}

/-! ## What is proposed -/

/-- Whether a word begins with what is typed. -/
def matchesTyped (typed : String) (item : CompletionItem) : Bool :=
  typed.toList.isPrefixOf item.label.toList

/-- The words of a list without those whose label an earlier one has. -/
def withoutRepeats (items : List CompletionItem) : List CompletionItem :=
  items.eraseDupsBy fun item earlier => item.label == earlier.label

/-- The words of both tables, variables first, in the order of the tables. -/
def wordsOf (table : List Variable) (functions : List FunctionSignature) :
    List CompletionItem :=
  table.map Proposals.ofVariable ++ functions.map Proposals.ofFunction

/-- What both tables together have for what is typed, each label once. -/
def unrouted (typed : String) (table : List Variable) (functions : List FunctionSignature) :
    List CompletionItem :=
  withoutRepeats ((wordsOf table functions).filter (matchesTyped typed))

theorem matchesTyped_iff : matchesTyped typed item = true ↔ typed.toList <+: item.label.toList :=
  List.isPrefixOf_iff_prefix

theorem withoutRepeats_cons (item : CompletionItem) (items : List CompletionItem) :
    withoutRepeats (item :: items) =
      item :: withoutRepeats (items.filter fun other => other.label ≠ item.label) := by
  rw [withoutRepeats, List.eraseDupsBy_cons]
  refine congrArg (fun rest => item :: withoutRepeats rest) (List.filter_congr fun other _ => ?_)
  simp

namespace Proposals

variable {p : Proposals}

/-- The labels proposed so far. -/
def labels (p : Proposals) : List String :=
  p.items.map (·.label)

theorem add_eq (p : Proposals) (item : CompletionItem) :
    p.add item =
      if matchesTyped p.typed item = true ∧ item.label ∉ p.labels then
        { p with items := p.items ++ [item] }
      else p := by
  have hany : (p.items.any fun other => other.label == item.label) = true ↔
      item.label ∈ p.labels := by
    simp [labels]
  rw [add]
  refine if_congr (and_congr ?_ (not_congr hany)) rfl rfl
  rw [Text.isSome_afterStart?_iff, matchesTyped_iff]

@[simp] theorem typed_add (p : Proposals) (item : CompletionItem) :
    (p.add item).typed = p.typed := by
  rw [add]
  split <;> rfl

theorem mem_labels_add {label : String} :
    label ∈ (p.add item).labels ↔
      label ∈ p.labels ∨ matchesTyped p.typed item = true ∧ label = item.label := by
  rw [add_eq]
  split
  · rename_i h
    simp [labels, h.1]
  · rename_i h
    constructor
    · exact .inl
    · rintro (hl | ⟨hm, rfl⟩)
      · exact hl
      · exact not_not.1 fun hn => h ⟨hm, hn⟩

theorem nodup_labels_add (h : p.labels.Nodup) : (p.add item).labels.Nodup := by
  rw [add_eq]
  split
  · rename_i hn
    rw [labels, List.map_append]
    refine h.append (List.nodup_singleton _) ?_
    rw [List.map_singleton, List.disjoint_singleton]
    exact hn.2
  · exact h

/-- **The labels after several words** are those before and those of the words that match. -/
theorem mem_labels_foldl {label : String} :
    label ∈ (items.foldl add p).labels ↔
      label ∈ p.labels ∨ ∃ item ∈ items, matchesTyped p.typed item = true ∧ label = item.label := by
  induction items generalizing p with
  | nil => simp
  | cons item items ih =>
    rw [List.foldl_cons, ih, mem_labels_add, typed_add, or_assoc]
    simp only [List.mem_cons, exists_eq_or_imp]

/-- **No label is proposed twice.** -/
theorem nodup_labels_foldl (h : p.labels.Nodup) (items : List CompletionItem) :
    (items.foldl add p).labels.Nodup := by
  induction items generalizing p with
  | nil => exact h
  | cons item items ih => exact ih (nodup_labels_add h)

/-- **The words after several ones** are those before and, without repeats, those that match and
whose label is new. -/
theorem items_foldl (p : Proposals) (items : List CompletionItem) :
    (items.foldl add p).items =
      p.items ++ withoutRepeats
        (items.filter fun item => matchesTyped p.typed item ∧ item.label ∉ p.labels) := by
  induction items generalizing p with
  | nil => exact (List.append_nil _).symm
  | cons item items ih =>
    rw [List.foldl_cons, ih, typed_add]
    by_cases h : matchesTyped p.typed item = true ∧ item.label ∉ p.labels
    · rw [List.filter_cons_of_pos (by simpa using h), withoutRepeats_cons, List.filter_filter,
        add_eq, if_pos h, List.append_assoc, List.singleton_append]
      congr 4
      funext other
      simp only [labels, List.map_append, List.map_singleton, List.mem_append, List.mem_singleton]
      grind
    · rw [List.filter_cons_of_neg (by simpa using h), add_eq, if_neg h]

/-! ## Tables that are not asked for -/

theorem wantsVariables_of_matches {v : Variable} (h : matchesTyped typed (ofVariable v) = true) :
    wantsVariables typed = true := by
  rw [matchesTyped_iff, ofVariable, String.toList_append] at h
  rw [wantsVariables]
  split
  · rfl
  · rename_i c cs hc
    rw [hc] at h
    obtain rfl : c = '$' := (List.cons_prefix_cons.1 h).1
    rfl

theorem isIdentifier_of_append {c : Char} {cs rest : List Char}
    (h : Literal.isIdentifier (c :: cs ++ rest) = true) :
    Literal.isIdentifier (c :: cs) = true := by
  simp only [List.cons_append, Literal.isIdentifier, List.all_append, Bool.and_eq_true] at h ⊢
  exact ⟨h.1, h.2.1⟩

theorem wantsFunctions_of_matches {f : FunctionSignature}
    (hf : Literal.isIdentifier f.identifier.toList = true)
    (h : matchesTyped typed (ofFunction f) = true) : wantsFunctions typed = true := by
  rw [matchesTyped_iff, ofFunction] at h
  rw [wantsFunctions]
  cases hc : typed.toList with
  | nil => rfl
  | cons c cs =>
    rw [hc] at h
    obtain ⟨rest, hrest⟩ := h
    rw [← hrest] at hf
    exact isIdentifier_of_append hf

theorem foldl_add_of_not_matches (h : ∀ item ∈ items, ¬matchesTyped p.typed item = true) :
    items.foldl add p = p := by
  induction items with
  | nil => rfl
  | cons item items ih =>
    have hi : p.add item = p := by
      rw [add_eq, if_neg fun hn => h item (.head _) hn.1]
    rw [List.foldl_cons, hi]
    exact ih fun other ho => h other (.tail _ ho)

theorem addVariables_eq (p : Proposals) (table : List Variable) :
    p.addVariables table = (table.map ofVariable).foldl add p := by
  rw [addVariables, List.foldl_map]

theorem addFunctions_eq (p : Proposals) (functions : List FunctionSignature) :
    p.addFunctions functions = (functions.map ofFunction).foldl add p := by
  rw [addFunctions, List.foldl_map]

/-- **Variables that are not asked for** would add nothing. -/
theorem addVariables_if_wanted (p : Proposals) (table : List Variable) :
    (if wantsVariables p.typed then p.addVariables table else p) = p.addVariables table := by
  split
  · rfl
  · rename_i h
    rw [addVariables_eq, foldl_add_of_not_matches fun item hm hi => h ?_]
    obtain ⟨v, -, rfl⟩ := List.mem_map.1 hm
    exact wantsVariables_of_matches hi

/-- **Functions that are not asked for** would add nothing, when their names are identifiers. -/
theorem addFunctions_if_wanted (p : Proposals) {functions : List FunctionSignature}
    (hid : ∀ f ∈ functions, Literal.isIdentifier f.identifier.toList = true) :
    (if wantsFunctions p.typed then p.addFunctions functions else p) =
      p.addFunctions functions := by
  split
  · rfl
  · rename_i h
    rw [addFunctions_eq, foldl_add_of_not_matches fun item hm hi => h ?_]
    obtain ⟨f, hf, rfl⟩ := List.mem_map.1 hm
    exact wantsFunctions_of_matches (hid f hf) hi

theorem typed_addVariables (p : Proposals) (table : List Variable) :
    (p.addVariables table).typed = p.typed := by
  rw [addVariables]
  induction table generalizing p with
  | nil => rfl
  | cons v table ih => rw [List.foldl_cons, ih, typed_add]

theorem addFunctions_addVariables (p : Proposals) (table : List Variable)
    (functions : List FunctionSignature) :
    (p.addVariables table).addFunctions functions = (wordsOf table functions).foldl add p := by
  rw [addVariables_eq, addFunctions_eq, ← List.foldl_append, wordsOf]

theorem items_foldl_start (typed : String) (items : List CompletionItem) :
    (items.foldl add ⟨typed, []⟩).items = withoutRepeats (items.filter (matchesTyped typed)) := by
  rw [items_foldl, List.nil_append]
  refine congrArg withoutRepeats (List.filter_congr fun item _ => ?_)
  simp [labels]

end Proposals

end EviAssist.Completion

namespace EviAssist.Inquiry

variable {α β : Type} {answer : LintKind → Option Position → Except LintError LintResult}

theorem answerWith_bind (x : Inquiry α) (f : α → Inquiry β) :
    (x >>= f).answerWith answer = (f (x.answerWith answer)).answerWith answer := by
  induction x with
  | done a => rfl
  | ask kind cursor next ih => exact ih _

theorem answerWith_query (kind : LintKind) (cursor : Option Position) :
    (query kind cursor).answerWith answer = (answer kind cursor).toOption :=
  rfl

end EviAssist.Inquiry

namespace EviAssist.Feature

open Completion (Proposals matchesTyped unrouted wantsFunctions wordsOf)

variable {answer : LintKind → Option Position → Except LintError LintResult} {at' : Position}

/-! ## What is typed -/

/-- **What is typed** is the part of the word left of the cursor. -/
theorem typedPart_eq (document : Document) (at' : Position) :
    typedPart document at' = document.wordBefore at' := by
  rw [typedPart, Document.wordBefore, Document.wordRange?, Document.word?]
  cases hline : document.line? at'.line with
  | none => rfl
  | some line =>
    cases hspan : Document.wordSpan? line at'.character.toNat with
    | none => simp [hspan]
    | some span =>
      obtain ⟨hstart, hstop⟩ := Document.bounds_of_wordSpan? hspan
      -- The start of the word is no later than the cursor, so it is a number of 32 bits.
      have hnum : (UInt32.ofNat span.start).toNat = span.start :=
        UInt32.toNat_ofNat_of_lt' (Nat.lt_of_le_of_lt hstart at'.character.toNat_lt)
      simp only [hspan, Option.bind_eq_bind, Option.bind_some, Option.pure_def, Span.onLine, hnum,
        Option.getD_some, String.toList_ofList, Document.take_slice hstop]

/-! ## Proposals -/

/-- The variables in an answer; none where there is no answer. -/
def variablesIn (answer : Except LintError LintResult) : List Variable :=
  (answer.toOption.map LintResult.variableList).getD []

/-- The functions in an answer; none where there is no answer. -/
def functionsIn (answer : Except LintError LintResult) : List FunctionSignature :=
  (answer.toOption.map LintResult.functionList).getD []

theorem answerWith_askFunctions {typed : String} {p : Proposals} (hp : p.typed = typed)
    (hid : ∀ f ∈ functionsIn (answer .knownFunctions (some at')),
      Literal.isIdentifier f.identifier.toList = true) :
    Inquiry.answerWith answer
      (if wantsFunctions typed then do
        match ← Inquiry.query .knownFunctions (some at') with
        | some result => pure (p.addFunctions result.functionList).items
        | none => pure p.items
      else pure p.items) =
    (p.addFunctions (functionsIn (answer .knownFunctions (some at')))).items := by
  rw [← p.addFunctions_if_wanted hid, hp]
  split
  · rw [Inquiry.answerWith_bind, Inquiry.answerWith_query, functionsIn]
    cases (answer .knownFunctions (some at')).toOption <;> rfl
  · rfl

/-- The proposals are the words of both answers, whichever of them are asked for. -/
theorem answerWith_completions (document : Document)
    (hid : ∀ f ∈ functionsIn (answer .knownFunctions (some at')),
      Literal.isIdentifier f.identifier.toList = true) :
    (completions true document at').answerWith answer =
      ((wordsOf (variablesIn (answer .knownVariables (some at')))
        (functionsIn (answer .knownFunctions (some at')))).foldl Proposals.add
          ⟨document.wordBefore at', []⟩).items := by
  rw [← Proposals.addFunctions_addVariables, ← Proposals.addVariables_if_wanted, ← typedPart_eq]
  simp only [completions, Bool.not_true, Bool.false_eq_true, if_false]
  split
  · rw [Inquiry.answerWith_bind, Inquiry.answerWith_query, variablesIn]
    cases (answer .knownVariables (some at')).toOption with
    | none => exact answerWith_askFunctions rfl hid
    | some result => exact answerWith_askFunctions (Proposals.typed_addVariables _ _) hid
  · exact answerWith_askFunctions rfl hid

/-- **Routing loses no proposal.** When both tables are answered, and functions are named by
identifiers, the proposals are those that the tables together have for what is typed: the labels
that begin with it, in the order of the tables, each once and with the details it has first. -/
theorem completions_eq_unrouted (document : Document) (at' : Position)
    (answer : LintKind → Option Position → Except LintError LintResult) (table : List Variable)
    (functions : List FunctionSignature)
    (hv : answer .knownVariables (some at') = .ok (.knownVariables table))
    (hf : answer .knownFunctions (some at') = .ok (.knownFunctions functions))
    (hid : ∀ f ∈ functions, Literal.isIdentifier f.identifier.toList = true) :
    let typed := document.wordBefore at'
    let proposed := (completions true document at').answerWith answer
    proposed = unrouted typed table functions ∧ (proposed.map (·.label)).Nodup ∧
      ∀ item ∈ wordsOf table functions, matchesTyped typed item = true →
        item.label ∈ proposed.map (·.label) := by
  intro typed proposed
  have hvars : variablesIn (answer .knownVariables (some at')) = table := by
    rw [hv]
    rfl
  have hfuns : functionsIn (answer .knownFunctions (some at')) = functions := by
    rw [hf]
    rfl
  have hproposed : proposed =
      ((wordsOf table functions).foldl Proposals.add ⟨typed, []⟩).items := by
    rw [← hvars, ← hfuns]
    exact answerWith_completions document (by rwa [hfuns])
  refine ⟨hproposed.trans (Proposals.items_foldl_start _ _), ?_, fun item hm hi => ?_⟩
  · rw [hproposed]
    exact Proposals.nodup_labels_foldl (p := ⟨typed, []⟩) List.nodup_nil _
  · rw [hproposed]
    exact Proposals.mem_labels_foldl.2 (.inr ⟨item, hm, hi, rfl⟩)

/-- A sigil keeps functions out, a second entry of one name is left out, and a function that is
named like the word left of the cursor is proposed with all longer ones. -/
theorem proposes_words_left_of_cursor :
    let document : Document := ⟨⟨"/a.evi"⟩, "  $co1 con", "evi"⟩
    let table : List Variable := [⟨"cow", "i32"⟩, ⟨"count", "i32"⟩, ⟨"count", "dbl"⟩]
    let functions : List FunctionSignature :=
      [⟨"co", "i32", [], false⟩, ⟨"con", "i32", [], true⟩, ⟨"dim", "i32", [], false⟩]
    let answer : LintKind → Option Position → Except LintError LintResult := fun kind _ =>
      match kind with
      | .knownVariables => .ok (.knownVariables table)
      | .knownFunctions => .ok (.knownFunctions functions)
      | kind => .error (.malformedOutput kind "no table")
    (completions true document ⟨0, 5⟩).answerWith answer =
        [⟨"$cow", .variable, "$cow -> i32"⟩, ⟨"$count", .variable, "$count -> i32"⟩] ∧
      (completions true document ⟨0, 9⟩).answerWith answer =
        [⟨"co", .function, "@co i32 ()"⟩, ⟨"con", .function, "@con i32 (...)"⟩] := by
  intro document table functions answer
  have hid : ∀ f ∈ functions, Literal.isIdentifier f.identifier.toList = true := by decide
  have hsigil := completions_eq_unrouted document ⟨0, 5⟩ answer table functions rfl rfl hid
  have hname := completions_eq_unrouted document ⟨0, 9⟩ answer table functions rfl rfl hid
  exact ⟨hsigil.1.trans (by decide), hname.1.trans (by decide)⟩

end EviAssist.Feature
