import EviAssist.Config
import EviAssist.Duration
import EviAssist.Lint.Settings
import EviAssist.Text.Search
import EviAssist.Validator

/-!
# Resolved configuration

Defaults stand in for what no layer tells, and paths are seen from the workspace.

* `Surroundings`: what a configuration is resolved against.
* `Config.findInPath?`: the search for a program in the directories of a search path.
* `Config.resolve`: the resolved configuration.
-/

namespace EviAssist

/-- What a configuration is resolved against: the workspace, the program and the search path that
the environment gives, and which files can be run. -/
structure Surroundings where
  workspace : Option Path := none
  executable : Option Path := none
  searchPath : Option String := none
  canRun : Path → Bool := fun _ => false

/-- A configuration with nothing left out. -/
structure ResolvedConfig where
  executable : Option Path
  includeDirs : List Path
  tabWidth : UInt32
  suggestions : Bool
  validation : Bool
  debug : Bool
  debounce : Duration
  gateWait : Duration
  toolTimeout : Duration
  deriving DecidableEq, Inhabited, Repr

namespace ResolvedConfig

/-- How evi is asked. -/
def toolSettings (c : ResolvedConfig) : ToolSettings where
  executable := c.executable
  includeDirs := c.includeDirs
  tabWidth := c.tabWidth
  timeout := c.toolTimeout

/-- How open documents are checked. -/
def validationSettings (c : ResolvedConfig) : ValidationSettings where
  enabled := c.validation
  debounce := c.debounce

end ResolvedConfig

namespace Config

/-- The name of evi's program. -/
def programName : Path :=
  ⟨"evi"⟩

/-- What stands for the workspace in an include directory. -/
def placeholder : String :=
  "$\x7bworkspaceFolder\x7d"

/-- The files of a given name in the directories of a search path. -/
def candidates (name : Path) (searchPath : String) : List Path :=
  (Text.splitAt ':' searchPath.toList).map fun dir => Path.join ⟨String.ofList dir⟩ name

/-- The first file of a given name that can be run, in the directories of a search path. -/
def findInPath? (canRun : Path → Bool) (name : Path) (searchPath : String) : Option Path :=
  (candidates name searchPath).find? canRun

/-- evi's program: the configured one, seen from the workspace, or the one that the environment
names, or one that the search path leads to. -/
def resolveExecutable (c : Config) (s : Surroundings) : Option Path :=
  match c.executable with
  | some path => if path.isAbsolute then some path else s.workspace.map (·.join path)
  | none =>
    (s.executable.filter (·.text ≠ "")).or
      (s.searchPath.bind (findInPath? s.canRun programName))

/-- An include directory with the workspace put in; without a workspace one that asks for it is
left out, and any other stays as written. -/
def resolveDir? (workspace : Option Path) (dir : String) : Option Path :=
  match workspace with
  | some w => some (w.join ⟨Text.replace placeholder w.text dir⟩)
  | none => if Text.contains placeholder.toList dir.toList then none else some ⟨dir⟩

/-- The resolved configuration. A tab width of zero counts as none. -/
def resolve (c : Config) (s : Surroundings) : ResolvedConfig where
  executable := c.resolveExecutable s
  includeDirs := (c.includeDirs.getD []).filterMap (resolveDir? s.workspace)
  tabWidth := (c.tabWidth.filter (0 < ·)).getD 4
  suggestions := c.suggestions.getD true
  validation := c.validation.getD true
  debug := c.debug.getD false
  debounce := (c.debounce.map fun n => .ofMillis n.toNat).getD (.ofMillis 250)
  gateWait := (c.gateTimeout.map fun n => .ofMillis n.toNat).getD (.ofMillis 3000)
  toolTimeout := (c.toolTimeout.map fun n => .ofMillis n.toNat).getD (.ofSeconds 10)

end Config

end EviAssist
