/-!
# Sets of characters by ranges

A property of the Unicode standard is kept as the list of its ranges of scalar values, in
increasing order, and a character has it when its number lies in one of them.

* `Text.inRanges`: membership.
-/

namespace EviAssist.Text

/-- Whether a number lies in one of the ranges, both ends included. -/
def inRanges (ranges : List (Nat × Nat)) (n : Nat) : Bool :=
  ranges.any fun range => range.1 ≤ n && n ≤ range.2

end EviAssist.Text
