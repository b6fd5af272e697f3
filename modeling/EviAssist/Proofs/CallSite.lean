import EviAssist.CallSite
import EviAssist.Proofs.Text.Numeral
import EviAssist.Proofs.Text.Search

/-!
# Calls through nested arguments

The text before a cursor inside a call is the called name, an open parenthesis and arguments
between commas. An argument may hold literals with anything in them and groups in brackets of any
depth with commas of their own. Read backwards from the cursor, literals and groups leave no
trace, so the commas counted are those between the arguments.

* `CallSite.Bracket`, `CallSite.IsBalanced`: the brackets, and what an argument may hold.
* `CallSite.EndsInCall`: a text that ends inside a call.
* `CallSite.arguments?_balanced`, `CallSite.arguments?_intercalate`: reading back over one
  argument and over all of them.
* `CallSite.callee?_append`: reading the called name.
* `CallSite.argument_lt_of_find?_eq_some`: how large the index of an argument can be.
* `CallSite.find?_of_endsInCall`: the call that is found.
-/

namespace EviAssist.CallSite

/-! ## Texts of calls -/

/-- The kinds of brackets. -/
inductive Bracket where
  | round
  | square
  | curly

namespace Bracket

/-- The bracket that opens a group. -/
def opening : Bracket → Char
  | round => '('
  | square => '['
  | curly => '{'

/-- The bracket that closes a group. -/
def closing : Bracket → Char
  | round => ')'
  | square => ']'
  | curly => '}'

end Bracket

/-- Whether a character is no comma, bracket or quote. -/
def IsPlain (c : Char) : Prop :=
  c ∉ [',', '(', ')', '[', ']', '{', '}', '"', '\'']

instance : DecidablePred IsPlain := fun _ => by
  unfold IsPlain
  infer_instance

/-- Balanced characters, with commas outside of literals and groups or without. -/
inductive IsBalanced : Bool → List Char → Prop
  /-- Nothing. -/
  | nil (commas : Bool) : IsBalanced commas []
  /-- A plain character, and more. -/
  | plain {commas : Bool} {c : Char} {cs : List Char} :
    IsPlain c → IsBalanced commas cs → IsBalanced commas (c :: cs)
  /-- A comma, and more. -/
  | comma {cs : List Char} : IsBalanced true cs → IsBalanced true (',' :: cs)
  /-- A literal between quotes that do not occur in it, and more. -/
  | literal {commas : Bool} {quote : Char} (content : List Char) {cs : List Char} :
    quote = '"' ∨ quote = '\'' → quote ∉ content → IsBalanced commas cs →
      IsBalanced commas (quote :: (content ++ quote :: cs))
  /-- A group in brackets, with commas or without, and more. -/
  | group {commas : Bool} (bracket : Bracket) (inner : List Char) {cs : List Char} :
    IsBalanced true inner → IsBalanced commas cs →
      IsBalanced commas (bracket.opening :: (inner ++ bracket.closing :: cs))

/-- Whether a text ends inside a call of `callee`, in the argument with the given index: the name,
which no name character precedes, blanks, the open parenthesis, and balanced arguments. -/
def EndsInCall (text callee : List Char) (argument : Nat) : Prop :=
  ∃ pre blanks first more,
    text = pre ++ (callee ++ (blanks ++ '(' :: [','].intercalate (first :: more))) ∧
      callee ≠ [] ∧ (∀ c ∈ callee, isNameChar c = true) ∧
      (∀ c ∈ pre.getLast?, isNameChar c = false) ∧
      (∀ c ∈ blanks, Text.isBlank c = true) ∧
      (∀ segment ∈ first :: more, IsBalanced false segment) ∧ more.length = argument

variable {c quote : Char} {cs content rest : List Char} {commas : Bool} {n : Nesting} {k : Nat}

/-! ## Reading back over one character, and over a literal -/

theorem arguments?_plain (h : IsPlain c) :
    arguments? none n k (c :: rest) = arguments? none n k rest := by
  simp only [IsPlain, List.mem_cons, List.not_mem_nil, or_false, not_or] at h
  simp only [arguments?, h, if_false, or_self, false_and]

theorem arguments?_comma :
    arguments? none n k (',' :: rest) =
      arguments? none n (if n.isOutermost then k + 1 else k) rest := by
  cases h : n.isOutermost <;> simp [arguments?, h]

theorem arguments?_quote (h : quote = '"' ∨ quote = '\'') :
    arguments? none n k (quote :: rest) = arguments? (some quote) n k rest := by
  obtain rfl | rfl := h <;> rfl

theorem arguments?_hidden (h : quote ∉ content) :
    arguments? (some quote) n k (content ++ quote :: rest) = arguments? none n k rest := by
  induction content with
  | nil => rw [List.nil_append, arguments?, if_pos rfl]
  | cons c content ih =>
    rw [List.mem_cons, not_or] at h
    rw [List.cons_append, arguments?, if_neg (Ne.symm h.1), ih h.2]

/-! ## Groups -/

/-- The nesting inside one more group, which is entered at its end. -/
def Nesting.within (n : Nesting) : Bracket → Nesting
  | .round => { n with parens := n.parens + 1 }
  | .square => { n with brackets := n.brackets + 1 }
  | .curly => { n with braces := n.braces + 1 }

/-- Whether no bracket has been opened that was not closed before. -/
def Nesting.IsProper (n : Nesting) : Prop :=
  0 ≤ n.brackets ∧ 0 ≤ n.braces

theorem Nesting.IsProper.within (h : n.IsProper) (bracket : Bracket) :
    (n.within bracket).IsProper := by
  unfold IsProper at *
  cases bracket <;> simp only [Nesting.within] <;> omega

theorem Nesting.IsProper.isOutermost_within (h : n.IsProper) (bracket : Bracket) :
    (n.within bracket).isOutermost = false := by
  unfold IsProper at h
  simp only [isOutermost, Bool.and_eq_false_iff, beq_eq_false_iff_ne]
  cases bracket <;> simp only [Nesting.within] <;> omega

theorem arguments?_closing (bracket : Bracket) :
    arguments? none n k (bracket.closing :: rest) =
      arguments? none (n.within bracket) k rest := by
  cases bracket <;> rfl

theorem arguments?_opening (bracket : Bracket) :
    arguments? none (n.within bracket) k (bracket.opening :: rest) =
      arguments? none n k rest := by
  cases bracket <;> simp [arguments?, Bracket.opening, Nesting.within]

/-! ## Arguments -/

/-- **Balanced characters leave no trace**, if commas in them are not counted where they stand. -/
theorem arguments?_balanced (h : IsBalanced commas cs) (hn : n.IsProper)
    (hcommas : commas = true → n.isOutermost = false) :
    arguments? none n k (cs.reverse ++ rest) = arguments? none n k rest := by
  induction h generalizing n rest with
  | nil => rfl
  | plain hc _ ih =>
    rw [List.reverse_cons, List.append_assoc, List.singleton_append, ih hn hcommas,
      arguments?_plain hc]
  | comma _ ih =>
    rw [List.reverse_cons, List.append_assoc, List.singleton_append, ih hn hcommas,
      arguments?_comma, hcommas rfl, if_neg Bool.false_ne_true]
  | literal content hquote hcontent _ ih =>
    simp only [List.reverse_cons, List.reverse_append, List.append_assoc, List.cons_append,
      List.nil_append]
    rw [ih hn hcommas, arguments?_quote hquote,
      arguments?_hidden (fun hm => hcontent (List.mem_reverse.1 hm))]
  | group bracket inner _ _ ihinner ih =>
    simp only [List.reverse_cons, List.reverse_append, List.append_assoc, List.cons_append,
      List.nil_append]
    rw [ih hn hcommas, arguments?_closing,
      ihinner (hn.within bracket) fun _ => hn.isOutermost_within bracket, arguments?_opening]

/-- **The commas counted are those between the arguments.** -/
theorem arguments?_intercalate {first : List Char} {more : List (List Char)}
    (h : ∀ segment ∈ first :: more, IsBalanced false segment) :
    arguments? none {} k (([','].intercalate (first :: more)).reverse ++ rest) =
      arguments? none {} (k + more.length) rest := by
  have hproper : Nesting.IsProper {} := ⟨Int.le_refl 0, Int.le_refl 0⟩
  induction more generalizing first rest with
  | nil =>
    rw [List.intercalate_singleton]
    exact arguments?_balanced (h first List.mem_cons_self) hproper nofun
  | cons second more ih =>
    obtain ⟨hfirst, hmore⟩ := List.forall_mem_cons.1 h
    -- The cursor stands in the last argument, so the first one is read after all others.
    rw [List.intercalate_cons_cons, List.reverse_append, List.reverse_append, List.append_assoc,
      List.append_assoc, ih hmore, List.reverse_singleton, List.singleton_append,
      arguments?_comma, arguments?_balanced hfirst hproper nofun]
    rfl

/-! ## The called name -/

theorem isBlank_of_isNameChar (h : isNameChar c = true) : Text.isBlank c = false := by
  rw [isNameChar, Bool.or_eq_true, beq_iff_eq] at h
  obtain h | rfl := h
  · exact Text.isBlank_of_isAlphanum h
  · decide

/-- **The called name**, read backwards over the blanks after it. -/
theorem callee?_append {pre callee blanks : List Char} (hne : callee ≠ [])
    (hname : ∀ c ∈ callee, isNameChar c = true)
    (hpre : ∀ c ∈ pre.getLast?, isNameChar c = false)
    (hblanks : ∀ c ∈ blanks, Text.isBlank c = true) :
    callee? (blanks.reverse ++ (callee.reverse ++ pre.reverse)) = some callee := by
  have hdrop : (blanks.reverse ++ (callee.reverse ++ pre.reverse)).dropWhile Text.isBlank =
      callee.reverse ++ pre.reverse := by
    refine Text.dropWhile_append_of_head (fun c hc => hblanks c (List.mem_reverse.1 hc)) ?_
    intro c hc
    rw [List.head?_append, List.head?_reverse, List.getLast?_eq_some_getLast hne,
      Option.some_or] at hc
    cases hc
    exact isBlank_of_isNameChar (hname _ (List.getLast_mem hne))
  have htake : (callee.reverse ++ pre.reverse).takeWhile isNameChar = callee.reverse := by
    refine Text.takeWhile_append_of_head (fun c hc => hname c (List.mem_reverse.1 hc)) ?_
    rwa [List.head?_reverse]
  rw [callee?, hdrop, htake]
  split
  · rename_i hnil
    exact absurd (List.reverse_eq_nil_iff.1 hnil) hne
  · rw [List.reverse_reverse]

/-! ## Calls -/

theorem find?_eq (text : String) (at' : Position) :
    find? text at' =
      (arguments? none {} 0 (textBefore text at').reverse).bind fun (argument, rest) =>
        (callee? rest).map fun callee => ⟨String.ofList callee, argument⟩ := by
  rw [find?]
  cases arguments? none {} 0 (textBefore text at').reverse with
  | none => rfl
  | some found => cases h : callee? found.2 <;> simp [h]

theorem arguments?_lt {opened : Option Char} {argument : Nat}
    (h : arguments? opened n k cs = some (argument, rest)) :
    argument + rest.length < k + cs.length := by
  fun_induction arguments? opened n k cs with
  | case1 => cases h
  | case3 =>
    cases h
    exact Nat.add_lt_add_left (Nat.lt_succ_self _) _
  | _ =>
    rename_i ih
    have hlater := ih h
    rw [List.length_cons]
    omega

/-- The index of an argument is below the number of characters before the position, so a number
of 32 bits holds it whenever it holds that. -/
theorem argument_lt_of_find?_eq_some {text : String} {at' : Position} {site : CallSite}
    (h : find? text at' = some site) : site.argument < (textBefore text at').length := by
  rw [find?_eq, Option.bind_eq_some_iff] at h
  obtain ⟨⟨argument, rest⟩, hread, hsite⟩ := h
  obtain ⟨callee, -, rfl⟩ := Option.map_eq_some_iff.1 hsite
  have hlt := arguments?_lt hread
  rw [Nat.zero_add, List.length_reverse] at hlt
  exact Nat.lt_of_le_of_lt (Nat.le_add_right _ _) hlt

/-- **Calls are found through nesting.** When the text before a position ends inside a call, this
call is found there, with the index of the argument, which is below the number of characters of that
text. -/
theorem find?_of_endsInCall {text : String} {at' : Position} {callee : List Char} {argument : Nat}
    (h : EndsInCall (textBefore text at') callee argument) :
    find? text at' = some ⟨String.ofList callee, argument⟩ ∧
      argument < (textBefore text at').length := by
  obtain ⟨pre, blanks, first, more, htext, hne, hname, hpre, hblanks, hsegments, rfl⟩ := h
  have hread : (textBefore text at').reverse =
      ([','].intercalate (first :: more)).reverse ++
        '(' :: (blanks.reverse ++ (callee.reverse ++ pre.reverse)) := by
    simp only [htext, List.reverse_append, List.reverse_cons, List.append_assoc,
      List.cons_append, List.nil_append]
  have hfind : find? text at' = some ⟨String.ofList callee, more.length⟩ := by
    rw [find?_eq, hread, arguments?_intercalate hsegments, Nat.zero_add]
    change ((callee? _).map _) = _
    rw [callee?_append hne hname hpre hblanks]
    rfl
  exact ⟨hfind, argument_lt_of_find?_eq_some hfind⟩

/-- A call that spans two lines, with a group and a list before the cursor, literals with a
parenthesis, a comma and a quote in them, and an argument after it. -/
theorem finds_call_over_groups :
    let text := "~ g sum \n(f(1, \"),\"), ['\"', 2], x)"
    EndsInCall (textBefore text ⟨1, 23⟩) ['s', 'u', 'm'] 2 ∧
      find? text ⟨1, 23⟩ = some ⟨"sum", 2⟩ ∧ 2 < (textBefore text ⟨1, 23⟩).length := by
  intro text
  have hf : IsBalanced false ['f', '(', '1', ',', ' ', '"', ')', ',', '"', ')'] :=
    .plain (by decide) <| .group .round ['1', ',', ' ', '"', ')', ',', '"']
      (.plain (by decide) <| .comma <| .plain (by decide) <|
        .literal [')', ','] (.inl rfl) (by decide) (.nil true))
      (.nil false)
  have hlist : IsBalanced false [' ', '[', '\'', '"', '\'', ',', ' ', '2', ']'] :=
    .plain (by decide) <| .group .square ['\'', '"', '\'', ',', ' ', '2']
      (.literal ['"'] (.inr rfl) (by decide) <| .comma <| .plain (by decide) <|
        .plain (by decide) (.nil true))
      (.nil false)
  have hlast : IsBalanced false [' '] := .plain (by decide) (.nil false)
  have hcall : EndsInCall (textBefore text ⟨1, 23⟩) ['s', 'u', 'm'] 2 := by
    refine ⟨['~', ' ', 'g', ' '], [' ', '\n'], _, _, by decide +kernel, List.cons_ne_nil _ _,
      List.all_eq_true.1 (by decide), ?_, List.all_eq_true.1 (by decide),
      List.forall_mem_cons.2 ⟨hf, List.forall_mem_cons.2 ⟨hlist,
        List.forall_mem_singleton.2 hlast⟩⟩, rfl⟩
    rintro _ ⟨⟩
    rfl
  exact ⟨hcall, find?_of_endsInCall hcall⟩

end EviAssist.CallSite
