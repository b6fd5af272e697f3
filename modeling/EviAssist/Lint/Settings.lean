import EviAssist.Duration
import EviAssist.Path

/-!
# Tool settings

* `ToolSettings`: where evi is and how it is asked.
* `ToolSettings.sameExecutable`: whether two settings name the same program.
-/

namespace EviAssist

/-- Where evi is and how it is asked. -/
structure ToolSettings where
  executable : Option Path := none
  includeDirs : List Path := []
  tabWidth : UInt32 := 4
  timeout : Duration := .ofSeconds 10
  deriving DecidableEq, Inhabited, Repr

/-- Whether two settings name the same program, or both none. -/
def ToolSettings.sameExecutable (s t : ToolSettings) : Bool :=
  match s.executable, t.executable with
  | none, none => true
  | some p, some q => p.same q
  | _, _ => false

theorem ToolSettings.sameExecutable_iff {s t : ToolSettings} :
    s.sameExecutable t = true ↔
      s.executable.map Path.components = t.executable.map Path.components := by
  unfold sameExecutable
  cases s.executable <;> cases t.executable <;> simp [Path.same_iff]

end EviAssist
