/-!
# Lines of a text

An editor addresses a text by line number. A line feed ends a line, one carriage return right
before it belongs to the line's end, and nothing stands after the last line feed.

* `Text.lines`: the lines of a text, without their ends.
* `Text.line?`: one line, counted from zero.
-/

namespace EviAssist.Text

/-- The lines of a sequence of characters. A carriage return that no line feed follows is an
ordinary character. -/
def linesOf : List Char → List (List Char)
  | [] => []
  | '\n' :: rest => [] :: linesOf rest
  | '\r' :: '\n' :: rest => [] :: linesOf rest
  | c :: rest =>
    match linesOf rest with
    | [] => [[c]]
    | line :: more => (c :: line) :: more

/-- The lines of a text. -/
def lines (text : String) : List (List Char) :=
  linesOf text.toList

/-- The line with the given number, if the text has that many lines. -/
def line? (text : String) (number : Nat) : Option (List Char) :=
  (lines text)[number]?

@[simp] theorem linesOf_nil : linesOf [] = [] := rfl

@[simp] theorem linesOf_lineFeed (rest : List Char) : linesOf ('\n' :: rest) = [] :: linesOf rest :=
  rfl

/-- A character that ends no line is the first of its line. -/
theorem linesOf_cons {c : Char} (hn : c ≠ '\n') (hr : c ≠ '\r') (rest : List Char) :
    linesOf (c :: rest) =
      match linesOf rest with
      | [] => [[c]]
      | line :: more => (c :: line) :: more := by
  rw [linesOf.eq_def]
  split
  · rename_i heq
    cases heq
  · rename_i heq
    cases heq
    exact absurd rfl hn
  · rename_i heq
    cases heq
    exact absurd rfl hr
  · rename_i heq
    cases heq
    rfl

end EviAssist.Text
