import EviAssist.Lint.Decode
import EviAssist.Proofs.Text.Search
import Mathlib.Data.List.TakeWhile

/-!
# Colours are invisible

Control sequences may be put into a text at any places, one right after another, between the
characters of a word and at both ends. Taking them out again gives the text back, so an answer is
the same with and without colours.

* `Colour.IsSequence`: the complete control sequences.
* `Colour.Colours`: whether a text is another one with control sequences put in.
* `Colour.afterSequence?_eq_some_iff`: what follows a sequence at the start of a text.
* `Colour.colours_strip`, `Colour.strip_append_of_colours`: only sequences are taken out, and all
  of them.
* `Colour.strips_colours`: which texts have the colours taken out to a given one, and the answers
  in them.
-/

namespace EviAssist.Colour

/-- Whether characters are one complete control sequence, told by the numbers of its
characters. -/
def IsSequence (s : List Char) : Prop :=
  ∃ parameters intermediates final,
    s = '\x1b' :: '[' :: (parameters ++ (intermediates ++ [final])) ∧
      (∀ c ∈ parameters, 0x30 ≤ c.toNat ∧ c.toNat ≤ 0x3F) ∧
      (∀ c ∈ intermediates, 0x20 ≤ c.toNat ∧ c.toNat ≤ 0x2F) ∧
      0x40 ≤ final.toNat ∧ final.toNat ≤ 0x7E

/-- Whether the second text is the first one with any number of control sequences put in. -/
inductive Colours : List Char → List Char → Prop
  /-- Nothing is put into nothing. -/
  | nil : Colours [] []
  /-- A character of the text. -/
  | keep (c : Char) {plain coloured : List Char} :
    Colours plain coloured → Colours (c :: plain) (c :: coloured)
  /-- A control sequence before the next character, or at the end. -/
  | insert {s plain coloured : List Char} :
    IsSequence s → Colours plain coloured → Colours plain (s ++ coloured)

variable {c : Char} {s cs after plain coloured : List Char}

/-! ## Sequences -/

theorem between_iff {low high : Char} :
    (decide (low ≤ c) && decide (c ≤ high)) = true ↔
      low.toNat ≤ c.toNat ∧ c.toNat ≤ high.toNat := by
  rw [Bool.and_eq_true, decide_eq_true_eq, decide_eq_true_eq]
  exact Iff.rfl

theorem isParameter_iff : isParameter c = true ↔ 0x30 ≤ c.toNat ∧ c.toNat ≤ 0x3F :=
  between_iff

theorem isIntermediate_iff : isIntermediate c = true ↔ 0x20 ≤ c.toNat ∧ c.toNat ≤ 0x2F :=
  between_iff

theorem isFinal_iff : isFinal c = true ↔ 0x40 ≤ c.toNat ∧ c.toNat ≤ 0x7E :=
  between_iff

theorem afterSequence?_append (h : IsSequence s) (rest : List Char) :
    afterSequence? (s ++ rest) = some rest := by
  obtain ⟨parameters, intermediates, final, rfl, hp, hi, hf⟩ := h
  have hlast : isParameter final = false ∧ isIntermediate final = false := by
    rw [← Bool.not_eq_true, ← Bool.not_eq_true, isParameter_iff, isIntermediate_iff]
    omega
  have hparameters : (parameters ++ (intermediates ++ [final]) ++ rest).dropWhile isParameter =
      intermediates ++ (final :: rest) := by
    rw [List.append_assoc, List.append_assoc, List.singleton_append]
    refine Text.dropWhile_append_of_head (fun c hc => isParameter_iff.2 (hp c hc)) fun c hc => ?_
    cases intermediates with
    | nil =>
      cases hc
      exact hlast.1
    | cons first more =>
      -- An intermediate is no parameter, so the parameters end where the intermediates begin.
      cases hc
      have hfirst := hi c List.mem_cons_self
      rw [← Bool.not_eq_true, isParameter_iff]
      omega
  have hintermediates : (intermediates ++ (final :: rest)).dropWhile isIntermediate =
      final :: rest := by
    refine Text.dropWhile_append_of_head (fun c hc => isIntermediate_iff.2 (hi c hc)) fun c hc => ?_
    cases hc
    exact hlast.2
  simp only [List.cons_append, afterSequence?, hparameters, hintermediates, isFinal_iff.2 hf,
    if_true]

/-- **What follows a sequence** at the start of a text: the text is the sequence and that. -/
theorem afterSequence?_eq_some_iff :
    afterSequence? cs = some after ↔ ∃ s, IsSequence s ∧ cs = s ++ after := by
  refine ⟨fun h => ?_, ?_⟩
  · unfold afterSequence? at h
    split at h
    · rename_i rest
      split at h
      · rename_i final last heq
        split at h
        · rename_i hf
          cases h
          refine ⟨_, ⟨rest.takeWhile isParameter,
            (rest.dropWhile isParameter).takeWhile isIntermediate, final, rfl,
            fun c hc => isParameter_iff.1 (List.mem_takeWhile_imp hc),
            fun c hc => isIntermediate_iff.1 (List.mem_takeWhile_imp hc), isFinal_iff.1 hf⟩, ?_⟩
          simp only [List.cons_append, List.append_assoc, List.nil_append]
          rw [← heq, List.takeWhile_append_dropWhile, List.takeWhile_append_dropWhile]
        · cases h
      · cases h
    · cases h
  · rintro ⟨s, hs, rfl⟩
    exact afterSequence?_append hs after

theorem afterSequence?_cons_of_ne (h : c ≠ '\x1b') : afterSequence? (c :: cs) = none := by
  rw [Option.eq_none_iff_forall_ne_some]
  intro after ha
  obtain ⟨s, ⟨_, _, _, rfl, -⟩, he⟩ := afterSequence?_eq_some_iff.1 ha
  cases he
  exact h rfl

/-! ## Taking sequences out -/

theorem strip_of_afterSequence? (h : afterSequence? cs = some after) : strip cs = strip after := by
  cases cs with
  | nil => cases h
  | cons c cs =>
    rw [strip]
    split
    · rename_i ha
      rw [h] at ha
      cases ha
      rfl
    · rename_i ha
      rw [h] at ha
      cases ha

theorem strip_cons_of_eq_none (h : afterSequence? (c :: cs) = none) :
    strip (c :: cs) = c :: strip cs := by
  rw [strip]
  split
  · rename_i ha
    rw [h] at ha
    cases ha
  · rfl

theorem strip_cons_of_ne (h : c ≠ '\x1b') : strip (c :: cs) = c :: strip cs :=
  strip_cons_of_eq_none (afterSequence?_cons_of_ne h)

/-- **Only control sequences are taken out.** -/
theorem colours_strip (cs : List Char) : Colours (strip cs) cs := by
  fun_induction strip cs with
  | case1 => exact .nil
  | case2 c cs after ha ih =>
    obtain ⟨s, hs, he⟩ := afterSequence?_eq_some_iff.1 ha
    rw [he]
    exact .insert hs ih
  | case3 c cs _ ih => exact .keep c ih

/-- **All control sequences that were put in are taken out**, and nothing of a text without
escapes, whatever follows. -/
theorem strip_append_of_colours (h : '\x1b' ∉ plain) (hc : Colours plain coloured)
    (rest : List Char) : strip (coloured ++ rest) = plain ++ strip rest := by
  induction hc with
  | nil => rfl
  | keep c _ ih =>
    rw [List.mem_cons, not_or] at h
    rw [List.cons_append, strip_cons_of_ne (Ne.symm h.1), ih h.2, List.cons_append]
  | insert hs _ ih =>
    rw [List.append_assoc, strip_of_afterSequence? (afterSequence?_append hs _), ih h]

theorem strip_of_colours (h : '\x1b' ∉ plain) (hc : Colours plain coloured) :
    strip coloured = plain := by
  have happend := strip_append_of_colours h hc []
  rwa [List.append_nil, strip, List.append_nil] at happend

theorem stripText_eq_iff {plain coloured : String} (h : '\x1b' ∉ plain.toList) :
    stripText coloured = plain ↔ Colours plain.toList coloured.toList := by
  rw [stripText]
  constructor
  · rintro rfl
    rw [String.toList_ofList]
    exact colours_strip _
  · intro hc
    rw [strip_of_colours h hc, String.ofList_toList]

theorem colours_refl (cs : List Char) : Colours cs cs := by
  induction cs with
  | nil => exact .nil
  | cons c _ ih => exact .keep c ih

/-- **Colours are invisible.** The texts that lose their colours to a given one without escapes
are those that come from it when control sequences are put in, and the answer in any of them is
the one in the text without colours. -/
theorem strips_colours {plain : String} (h : '\x1b' ∉ plain.toList) (coloured : String) :
    (stripText coloured = plain ↔ Colours plain.toList coloured.toList) ∧
      (Colours plain.toList coloured.toList → ∀ kind snapshot document,
        Lint.answerOf kind snapshot document coloured =
          Lint.answerOf kind snapshot document plain) := by
  refine ⟨stripText_eq_iff h, fun hc kind snapshot document => ?_⟩
  rw [Lint.answerOf, Lint.answerOf, (stripText_eq_iff h).2 hc,
    (stripText_eq_iff h).2 (colours_refl _)]

/-- Sequences at both ends, one after another, inside a string and before a letter that might end
them. -/
theorem strips_sequences_in_string :
    '\x1b' ∉ "[\"0m\"]".toList ∧
      Colours "[\"0m\"]".toList "\x1b[1;31m\x1b[m[\"\x1b[?0 [0\x1b[[m\"]\x1b[0m".toList ∧
      stripText "\x1b[1;31m\x1b[m[\"\x1b[?0 [0\x1b[[m\"]\x1b[0m" = "[\"0m\"]" ∧
      ∀ kind snapshot document,
        Lint.answerOf kind snapshot document "\x1b[1;31m\x1b[m[\"\x1b[?0 [0\x1b[[m\"]\x1b[0m" =
          Lint.answerOf kind snapshot document "[\"0m\"]" := by
  have hp : '\x1b' ∉ "[\"0m\"]".toList := by decide
  have hs : stripText "\x1b[1;31m\x1b[m[\"\x1b[?0 [0\x1b[[m\"]\x1b[0m" = "[\"0m\"]" := by
    decide +kernel
  have hc := (strips_colours hp _).1.1 hs
  exact ⟨hp, hc, hs, (strips_colours hp _).2 hc⟩

end EviAssist.Colour
