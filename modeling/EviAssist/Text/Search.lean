/-!
# Finding and replacing

* `Text.afterStart?`: what follows a given beginning.
* `Text.contains`: whether a text has a given part.
* `Text.replaceAll`: every occurrence of a part exchanged, from left to right.
-/

namespace EviAssist.Text

/-- What follows the beginning `start`, if the text has that beginning. -/
def afterStart? : List Char → List Char → Option (List Char)
  | [], cs => some cs
  | _ :: _, [] => none
  | s :: start, c :: cs => if s = c then afterStart? start cs else none

/-- Whether `part` occurs in the characters. -/
def contains (part : List Char) : List Char → Bool
  | [] => part.isEmpty
  | c :: cs => (afterStart? part (c :: cs)).isSome || contains part cs

/-- Exchanges occurrences of a part, after leaving out `skip` characters that belong to the
occurrence exchanged last. -/
def replaceFrom (part replacement : List Char) : Nat → List Char → List Char
  | _, [] => []
  | skip + 1, _ :: cs => replaceFrom part replacement skip cs
  | 0, c :: cs =>
    if (afterStart? part (c :: cs)).isSome then
      replacement ++ replaceFrom part replacement (part.length - 1) cs
    else c :: replaceFrom part replacement 0 cs

/-- Every occurrence of a part that is not empty, from left to right and without overlap,
exchanged for `replacement`. -/
def replaceAll (part replacement cs : List Char) : List Char :=
  replaceFrom part replacement 0 cs

/-- `replaceAll` on texts. -/
def replace (part replacement text : String) : String :=
  String.ofList (replaceAll part.toList replacement.toList text.toList)

/-- The pieces of a text between separators; one more than there are separators. -/
def splitAt (separator : Char) : List Char → List (List Char)
  | [] => [[]]
  | c :: cs =>
    if c = separator then [] :: splitAt separator cs
    else
      match splitAt separator cs with
      | [] => [[c]]
      | piece :: more => (c :: piece) :: more

/-- The texts one after another with `separator` between neighbours. -/
def joinWith (separator : List Char) : List (List Char) → List Char
  | [] => []
  | [piece] => piece
  | piece :: more => piece ++ separator ++ joinWith separator more

end EviAssist.Text
