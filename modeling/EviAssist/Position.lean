import EviAssist.Count
import EviAssist.Path
import EviAssist.Text.Lines
import EviAssist.Text.Numeral

/-!
# Positions

Editors count lines and columns from zero; evi counts lines from one and leaves columns and
lengths alone.

* `Position`, `Range`: places in an editor's text; columns count characters.
* `SourcePosition`: a place in a file, as evi reports it, in the editor's counting.
* `encodeCursor`: a cursor as evi reads it.
-/

namespace EviAssist

/-- A place between two characters of a text. -/
structure Position where
  line : UInt32
  character : UInt32
  deriving DecidableEq, Inhabited, Repr

/-- The text from one place to another. -/
structure Range where
  start : Position
  stop : Position
  deriving DecidableEq, Inhabited, Repr

/-- A run of characters in a file. -/
structure SourcePosition where
  file : Path
  line : UInt32
  column : UInt32
  length : UInt32
  deriving DecidableEq, Inhabited, Repr

namespace SourcePosition

/-- The place that evi reports with its one-based line; line zero is read as the first. -/
def ofTool (file : Path) (line column length : UInt32) : SourcePosition :=
  ⟨file, Count.pred line, column, length⟩

/-- Where the run starts. -/
def start (p : SourcePosition) : Position :=
  ⟨p.line, p.column⟩

/-- The run as a range on its line. -/
def range (p : SourcePosition) : Range :=
  ⟨p.start, ⟨p.line, Count.add p.column p.length⟩⟩

/-- The run as a range, a run of no length reaching to the end of its line in `text`. -/
def rangeIn (p : SourcePosition) (text : String) : Range :=
  if 0 < p.length then p.range
  else
    let lineLength := UInt32.ofNat ((Text.line? text p.line.toNat).map List.length |>.getD 0)
    ⟨p.start, ⟨p.line, max lineLength p.column⟩⟩

end SourcePosition

/-- A cursor as evi reads it: the one-based line and the column, or `0:0` for none. -/
def encodeCursor : Option Position → String
  | some p => toString (Count.succ p.line) ++ ":" ++ toString p.character
  | none => "0:0"

end EviAssist
