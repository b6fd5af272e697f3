/-!
# Colours

evi colours what it prints with control sequences: an escape, a bracket, parameters,
intermediates and a final character.

* `Colour.afterSequence?`: what follows a complete control sequence.
* `Colour.strip`: a text without its control sequences.
-/

namespace EviAssist.Colour

/-- The parameters of a control sequence. -/
def isParameter (c : Char) : Bool :=
  '0' ≤ c && c ≤ '?'

/-- The intermediates of a control sequence. -/
def isIntermediate (c : Char) : Bool :=
  ' ' ≤ c && c ≤ '/'

/-- The final character of a control sequence. -/
def isFinal (c : Char) : Bool :=
  '@' ≤ c && c ≤ '~'

/-- What follows a complete control sequence at the start of the characters. -/
def afterSequence? : List Char → Option (List Char)
  | '\x1b' :: '[' :: rest =>
    match (rest.dropWhile isParameter).dropWhile isIntermediate with
    | c :: after => if isFinal c then some after else none
    | [] => none
  | _ => none

theorem length_dropWhile_le {α : Type} (p : α → Bool) (l : List α) :
    (l.dropWhile p).length ≤ l.length :=
  (List.dropWhile_sublist p).length_le

theorem afterSequence?_length_lt {cs after : List Char} (h : afterSequence? cs = some after) :
    after.length < cs.length := by
  unfold afterSequence? at h
  split at h
  · rename_i rest
    have h1 := length_dropWhile_le isIntermediate (rest.dropWhile isParameter)
    have h2 := length_dropWhile_le isParameter rest
    split at h
    · rename_i heq
      split at h
      · cases h
        rw [heq] at h1
        simp at h1 ⊢
        omega
      · cases h
    · cases h
  · cases h

/-- The characters without the control sequences met from left to right. -/
def strip : List Char → List Char
  | [] => []
  | c :: cs =>
    match _h : afterSequence? (c :: cs) with
    | some after => strip after
    | none => c :: strip cs
termination_by cs => cs.length
decreasing_by
  · exact afterSequence?_length_lt ‹_›
  · simp

/-- A text without its control sequences. -/
def stripText (text : String) : String :=
  String.ofList (strip text.toList)

end EviAssist.Colour
