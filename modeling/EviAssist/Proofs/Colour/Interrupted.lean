import EviAssist.Proofs.Colour
import Mathlib.Data.List.Infix

/-!
# Sequences around sequences

A text is gone through once. When a control sequence stands inside of what would be another one,
taking it out brings the two parts of the other one together, and that one stays.

* `Colour.HoldsSequence`: whether a complete control sequence stands in a text.
* `Colour.IsInterrupted`: a control sequence with others inside.
* `Colour.strip_append_escape`: each escape begins a part of its own.
* `Colour.strip_eq_self_iff`: a text is left as it is exactly when no sequence stands in it.
* `Colour.holdsSequence_strip_iff`: exactly interrupted sequences are left.
* `Colour.leaves_no_sequence_iff`: which texts have no sequence left in them.
-/

namespace EviAssist.Colour

/-- Whether a complete control sequence stands in a text. -/
def HoldsSequence (cs : List Char) : Prop :=
  ∃ s, IsSequence s ∧ s <:+: cs

/-- Whether characters are a control sequence with at least one other control sequence put
between its escape and its final character. -/
def IsInterrupted (m : List Char) : Prop :=
  ∃ inner outer final, IsSequence ('\x1b' :: (inner ++ [final])) ∧ Colours inner outer ∧
    outer ≠ inner ∧ m = '\x1b' :: (outer ++ [final])

variable {c : Char} {s t cs start after rest plain coloured : List Char}

/-! ## One escape to a sequence -/

theorem IsSequence.eq_escape_cons (h : IsSequence s) : ∃ t, s = '\x1b' :: t ∧ '\x1b' ∉ t := by
  obtain ⟨parameters, intermediates, final, rfl, hp, hi, hf⟩ := h
  refine ⟨_, rfl, ?_⟩
  have hescape : ('\x1b').toNat = 0x1B := rfl
  simp only [List.mem_cons, List.mem_append, List.not_mem_nil, or_false, not_or]
  refine ⟨by decide, fun hmem => ?_, fun hmem => ?_, fun hmem => ?_⟩
  · have := hp _ hmem
    omega
  · have := hi _ hmem
    omega
  · rw [← hmem] at hf
    omega

theorem IsSequence.escape_notMem (h : IsSequence ('\x1b' :: t)) : '\x1b' ∉ t := by
  obtain ⟨_, he, hmem⟩ := h.eq_escape_cons
  rwa [(List.cons.inj he).2]

theorem IsSequence.eq_concat (h : IsSequence s) :
    ∃ inner final, s = '\x1b' :: (inner ++ [final]) := by
  obtain ⟨parameters, intermediates, final, rfl, -⟩ := h
  exact ⟨'[' :: (parameters ++ intermediates), final, by simp⟩

theorem isSequence_iff : IsSequence s ↔ afterSequence? s = some [] := by
  simp only [afterSequence?_eq_some_iff, List.append_nil, exists_eq_right']

theorem IsSequence.eq_nil_of_append (hs : IsSequence s) (h : IsSequence (s ++ rest)) :
    rest = [] := by
  have hrest := afterSequence?_append hs rest
  rw [isSequence_iff.1 h] at hrest
  exact (Option.some.inj hrest).symm

theorem prefix_of_escape_notMem (h : '\x1b' ∉ t) (ht : t <+: start ++ '\x1b' :: rest) :
    t <+: start := by
  rcases List.prefix_or_prefix_of_prefix ht (List.prefix_append start _) with hle | ⟨more, rfl⟩
  · exact hle
  · rcases List.prefix_cons_iff.1 ((List.prefix_append_right_inj start).1 ht) with rfl | ⟨_, rfl, -⟩
    · rw [List.append_nil]
    · exact absurd (List.mem_append_right _ List.mem_cons_self) h

theorem afterSequence?_append_escape (c : Char) (cs rest : List Char) :
    afterSequence? (c :: cs ++ '\x1b' :: rest) =
      (afterSequence? (c :: cs)).map (· ++ '\x1b' :: rest) := by
  ext after
  rw [Option.map_eq_some_iff, afterSequence?_eq_some_iff]
  constructor
  · rintro ⟨s, hs, he⟩
    obtain ⟨t, rfl, hescape⟩ := hs.eq_escape_cons
    rw [List.cons_append, List.cons_append, List.cons.injEq] at he
    obtain ⟨rfl, ht⟩ := he
    obtain ⟨more, rfl⟩ := prefix_of_escape_notMem hescape ⟨after, ht.symm⟩
    refine ⟨more, afterSequence?_append hs more, ?_⟩
    rw [List.append_assoc] at ht
    exact List.append_cancel_left ht
  · rintro ⟨more, hmore, rfl⟩
    obtain ⟨s, hs, he⟩ := afterSequence?_eq_some_iff.1 hmore
    exact ⟨s, hs, by rw [he, List.append_assoc]⟩

/-! ## Going through a text -/

/-- **A text is taken apart at its escapes.** -/
theorem strip_append_escape (start rest : List Char) :
    strip (start ++ '\x1b' :: rest) = strip start ++ strip ('\x1b' :: rest) := by
  fun_induction strip start with
  | case1 => rfl
  | case2 c cs after ha ih =>
    rw [← ih]
    refine strip_of_afterSequence? ?_
    rw [afterSequence?_append_escape, ha, Option.map_some]
  | case3 c cs ha ih =>
    have hnone : afterSequence? (c :: (cs ++ '\x1b' :: rest)) = none := by
      rw [← List.cons_append, afterSequence?_append_escape, ha, Option.map_none]
    rw [List.cons_append, strip_cons_of_eq_none hnone, ih, List.cons_append]

theorem Colours.length_le (h : Colours plain coloured) : plain.length ≤ coloured.length := by
  induction h with
  | nil => exact Nat.le_refl _
  | keep _ _ ih => exact Nat.succ_le_succ ih
  | insert _ _ ih =>
    rw [List.length_append]
    omega

/-- **A text is left as it is exactly when no sequence stands in it.** -/
theorem strip_eq_self_iff : strip cs = cs ↔ ¬ HoldsSequence cs := by
  constructor
  · rintro he ⟨s, hs, start, rest, rfl⟩
    obtain ⟨t, rfl, -⟩ := hs.eq_escape_cons
    rw [List.append_assoc, List.cons_append, strip_append_escape, ← List.cons_append,
      strip_of_afterSequence? (afterSequence?_append hs rest)] at he
    have hlength := congrArg List.length he
    have hstart := (colours_strip start).length_le
    have hrest := (colours_strip rest).length_le
    simp only [List.length_append, List.length_cons] at hlength
    omega
  · intro h
    fun_induction strip cs with
    | case1 => rfl
    | case2 c cs after ha ih =>
      obtain ⟨s, hs, he⟩ := afterSequence?_eq_some_iff.1 ha
      exact absurd ⟨s, hs, [], after, he.symm⟩ h
    | case3 c cs ha ih =>
      have hrest : ¬ HoldsSequence cs := by
        rintro ⟨s, hs, hin⟩
        exact h ⟨s, hs, List.infix_cons hin⟩
      rw [ih hrest]

theorem exists_of_strip_eq_append (h : strip cs = start ++ '\x1b' :: after) :
    ∃ before rest, cs = before ++ '\x1b' :: rest ∧ afterSequence? ('\x1b' :: rest) = none ∧
      strip rest = after := by
  fun_induction strip cs generalizing start with
  | case1 => simp at h
  | case2 c cs more ha ih =>
    obtain ⟨s, -, he⟩ := afterSequence?_eq_some_iff.1 ha
    obtain ⟨before, rest, rfl, hnone, hrest⟩ := ih h
    exact ⟨s ++ before, rest, by rw [he, List.append_assoc], hnone, hrest⟩
  | case3 c cs ha ih =>
    cases start with
    | nil =>
      obtain ⟨rfl, rfl⟩ := List.cons.inj h
      exact ⟨[], cs, rfl, ha, rfl⟩
    | cons _ start =>
      rw [List.cons_append, List.cons.injEq] at h
      obtain ⟨before, rest, rfl, hnone, hrest⟩ := ih h.2
      exact ⟨c :: before, rest, rfl, hnone, hrest⟩

/-! ## Interrupted sequences -/

theorem Colours.eq_or_exists_escape (h : Colours plain coloured) :
    coloured = plain ∨ ∃ start rest, coloured = start ++ '\x1b' :: rest ∧ start <+: plain := by
  induction h with
  | nil => exact .inl rfl
  | keep c _ ih =>
    rcases ih with rfl | ⟨start, rest, rfl, hstart⟩
    · exact .inl rfl
    · exact .inr ⟨c :: start, rest, rfl, List.cons_prefix_cons.2 ⟨rfl, hstart⟩⟩
  | insert hs _ _ =>
    obtain ⟨t, rfl, -⟩ := hs.eq_escape_cons
    exact .inr ⟨[], _, rfl, List.nil_prefix⟩

theorem Colours.exists_of_append_cons {before : List Char}
    (h : Colours (before ++ c :: after) coloured) :
    ∃ outer rest, coloured = outer ++ c :: rest ∧ Colours before outer := by
  generalize he : before ++ c :: after = plain at h
  induction h generalizing before with
  | nil => simp at he
  | keep d h ih =>
    cases before with
    | nil =>
      obtain ⟨rfl, -⟩ := List.cons.inj he
      exact ⟨[], _, rfl, .nil⟩
    | cons _ before =>
      rw [List.cons_append, List.cons.injEq] at he
      obtain ⟨rfl, he⟩ := he
      obtain ⟨outer, rest, rfl, hbefore⟩ := ih he
      exact ⟨_, rest, rfl, .keep _ hbefore⟩
  | insert hs _ ih =>
    obtain ⟨outer, rest, rfl, hbefore⟩ := ih he
    exact ⟨_, rest, (List.append_assoc _ _ _).symm, .insert hs hbefore⟩

section Interrupted

variable {inner outer : List Char} {final : Char}

theorem afterSequence?_of_interrupted (hs : IsSequence ('\x1b' :: (inner ++ [final])))
    (hc : Colours inner outer) (hne : outer ≠ inner) (rest : List Char) :
    afterSequence? ('\x1b' :: (outer ++ rest)) = none := by
  rw [Option.eq_none_iff_forall_ne_some]
  intro after ha
  obtain ⟨s, hshort, he⟩ := afterSequence?_eq_some_iff.1 ha
  obtain ⟨t, rfl, hescape⟩ := hshort.eq_escape_cons
  obtain ⟨start, more, rfl, hstart⟩ := hc.eq_or_exists_escape.resolve_left hne
  rw [List.append_assoc, List.cons_append, List.cons_append, List.cons.injEq] at he
  have ht : t <+: start ++ '\x1b' :: (more ++ rest) := ⟨after, he.2.symm⟩
  -- It would end before the first sequence inside, and so begin the sequence it interrupts.
  obtain ⟨last, rfl⟩ := (prefix_of_escape_notMem hescape ht).trans hstart
  have hlong : IsSequence ('\x1b' :: t ++ (last ++ [final])) := by
    rwa [List.cons_append, ← List.append_assoc]
  exact List.append_ne_nil_of_right_ne_nil last (List.cons_ne_nil final [])
    (hshort.eq_nil_of_append hlong)

theorem strip_append_interrupted (hs : IsSequence ('\x1b' :: (inner ++ [final])))
    (hc : Colours inner outer) (hne : outer ≠ inner) (before rest : List Char) :
    strip (before ++ '\x1b' :: (outer ++ final :: rest)) =
      strip before ++ '\x1b' :: (inner ++ final :: strip rest) := by
  obtain ⟨hinner, hfinal⟩ : '\x1b' ∉ inner ∧ '\x1b' ∉ [final] := by
    rw [← not_or, ← List.mem_append]
    exact hs.escape_notMem
  have hne' : final ≠ '\x1b' := fun h => hfinal (List.mem_singleton.2 h.symm)
  rw [strip_append_escape, strip_cons_of_eq_none (afterSequence?_of_interrupted hs hc hne _),
    strip_append_of_colours hinner hc, strip_cons_of_ne hne']

end Interrupted

theorem exists_isInterrupted_of_holdsSequence_strip (h : HoldsSequence (strip cs)) :
    ∃ m, IsInterrupted m ∧ m <:+: cs := by
  obtain ⟨s, hs, start, rest, he⟩ := h
  obtain ⟨inner, final, rfl⟩ := hs.eq_concat
  rw [List.append_assoc, List.cons_append, List.append_assoc, List.singleton_append] at he
  obtain ⟨before, text, rfl, hnone, htext⟩ := exists_of_strip_eq_append he.symm
  have hc : Colours (inner ++ final :: rest) text := htext ▸ colours_strip text
  obtain ⟨outer, more, rfl, hinner⟩ := hc.exists_of_append_cons
  refine ⟨_, ⟨inner, outer, final, hs, hinner, ?_, rfl⟩, before, more, by simp⟩
  -- Without anything inside it would have been taken out.
  rintro rfl
  have hsome := afterSequence?_append hs more
  rw [List.cons_append, List.append_assoc, List.singleton_append, hnone] at hsome
  cases hsome

/-- **Exactly interrupted sequences are left.** -/
theorem holdsSequence_strip_iff :
    HoldsSequence (strip cs) ↔ ∃ m, IsInterrupted m ∧ m <:+: cs := by
  refine ⟨exists_isInterrupted_of_holdsSequence_strip, ?_⟩
  rintro ⟨_, ⟨inner, outer, final, hs, hc, hne, rfl⟩, before, rest, rfl⟩
  refine ⟨_, hs, strip before, strip rest, ?_⟩
  have hjoined := strip_append_interrupted hs hc hne before rest
  simp only [List.append_assoc, List.cons_append, List.nil_append]
  exact hjoined.symm

/-- **A text has no sequence left in it exactly when no sequence in it is interrupted**, and
exactly then it stays as it is when it is gone through once more. -/
theorem leaves_no_sequence_iff (text : String) :
    (¬ HoldsSequence (stripText text).toList ↔
        ∀ m, IsInterrupted m → ¬ m <:+: text.toList) ∧
      (stripText (stripText text) = stripText text ↔
        ∀ m, IsInterrupted m → ¬ m <:+: text.toList) := by
  have hleft : ¬ HoldsSequence (stripText text).toList ↔
      ∀ m, IsInterrupted m → ¬ m <:+: text.toList := by
    rw [stripText, String.toList_ofList, holdsSequence_strip_iff, not_exists]
    exact forall_congr' fun m => not_and
  refine ⟨hleft, ?_⟩
  rw [← hleft, ← strip_eq_self_iff, ← String.toList_inj]
  rw [stripText, String.toList_ofList]

/-- A sequence inside of another one is taken out, and the other one is left. -/
theorem leaves_sequence_around_sequence :
    let text := "\x1b[\x1b[0m31mERROR\x1b[0m"
    IsInterrupted ['\x1b', '[', '\x1b', '[', '0', 'm', '3', '1', 'm'] ∧
      stripText text = "\x1b[31mERROR" ∧ HoldsSequence (stripText text).toList ∧
      stripText (stripText text) ≠ stripText text := by
  intro text
  have hs : IsSequence ['\x1b', '[', '3', '1', 'm'] := isSequence_iff.2 (by decide +kernel)
  have hreset : IsSequence ['\x1b', '[', '0', 'm'] := isSequence_iff.2 (by decide +kernel)
  have hm : IsInterrupted ['\x1b', '[', '\x1b', '[', '0', 'm', '3', '1', 'm'] :=
    ⟨['[', '3', '1'], ['[', '\x1b', '[', '0', 'm', '3', '1'], 'm', hs,
      .keep '[' (.insert hreset (colours_refl _)), by decide +kernel, rfl⟩
  have hin : ['\x1b', '[', '\x1b', '[', '0', 'm', '3', '1', 'm'] <:+: text.toList :=
    ⟨[], "ERROR\x1b[0m".toList, by decide +kernel⟩
  obtain ⟨hleft, hagain⟩ := leaves_no_sequence_iff text
  have hnot : ¬ ∀ m, IsInterrupted m → ¬ m <:+: text.toList := fun h => h _ hm hin
  exact ⟨hm, by decide +kernel, by_contra (mt hleft.1 hnot), mt hagain.1 hnot⟩

end EviAssist.Colour
