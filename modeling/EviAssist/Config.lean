import EviAssist.Path
import EviAssist.Yaml.Node.Parser
import EviAssist.Yaml.Node.Unsigned

/-!
# Configuration files

A configuration file is a YAML mapping of some options. What a file leaves out falls through to
the layer below.

* `Config`: one layer.
* `Config.overlaid`: a layer with another one on top.
* `Config.ofText?`, `Config.ofFile`: the layer in a text and in a file.
* `Config.load`: the layers of a user and a workspace.
-/

namespace EviAssist

/-- One layer of options. Times are milliseconds. -/
structure Config where
  executable : Option Path := none
  includeDirs : Option (List String) := none
  tabWidth : Option UInt32 := none
  suggestions : Option Bool := none
  validation : Option Bool := none
  debug : Option Bool := none
  debounce : Option UInt64 := none
  gateTimeout : Option UInt64 := none
  toolTimeout : Option UInt64 := none
  deriving DecidableEq, Inhabited, Repr

namespace Config

/-- The options of `upper`, and those of `lower` that it leaves out. -/
def overlaid (lower upper : Config) : Config where
  executable := upper.executable.or lower.executable
  includeDirs := upper.includeDirs.or lower.includeDirs
  tabWidth := upper.tabWidth.or lower.tabWidth
  suggestions := upper.suggestions.or lower.suggestions
  validation := upper.validation.or lower.validation
  debug := upper.debug.or lower.debug
  debounce := upper.debounce.or lower.debounce
  gateTimeout := upper.gateTimeout.or lower.gateTimeout
  toolTimeout := upper.toolTimeout.or lower.toolTimeout

/-! ## Reading -/

/-- A number of milliseconds. -/
def millis? (node : Yaml.Node) : Option UInt64 :=
  (node.unsigned? UInt64.size).map UInt64.ofNat

/-- A list of texts. -/
def texts? (node : Yaml.Node) : Option (List String) := do
  (← node.items?).mapM Yaml.Node.text?

/-- A layer with one option more; the option must be known. -/
def set? (c : Config) (name : String) (value : Yaml.Node) : Option Config :=
  match name with
  | "executable" => do
    return { c with executable := (← value.option Yaml.Node.text?).map Path.mk }
  | "include_dirs" => do return { c with includeDirs := ← value.option texts? }
  | "tab_width" => do
    let width ← value.option (Yaml.Node.unsigned? UInt32.size)
    return { c with tabWidth := width.map UInt32.ofNat }
  | "suggestions" => do return { c with suggestions := ← value.option Yaml.Node.bool? }
  | "validation" => do return { c with validation := ← value.option Yaml.Node.bool? }
  | "debug" => do return { c with debug := ← value.option Yaml.Node.bool? }
  | "debounce_ms" => do return { c with debounce := ← value.option millis? }
  | "gate_timeout_ms" => do return { c with gateTimeout := ← value.option millis? }
  | "tool_timeout_ms" => do return { c with toolTimeout := ← value.option millis? }
  | _ => none

/-- A layer with the options of some members; `seen` are the names that must not come again. -/
def setAll? (c : Config) (seen : List String) : List (Yaml.Node × Yaml.Node) → Option Config
  | [] => some c
  | (key, value) :: rest => do
    let name ← key.text?
    if seen.contains name then none else (← c.set? name value).setAll? (name :: seen) rest

/-- The layer in a text. A text without a document is an empty layer. -/
def ofText? (text : String) : Option Config := do
  match ← Yaml.document? text.toList with
  | none => return {}
  | some node => setAll? {} [] (← node.members?)

/-! ## Files -/

variable {m : Type → Type} [Monad m] {ε : Type}

/-- The layer in a file; a file that cannot be read, or that holds no layer, counts as empty. -/
def ofFile (read : Path → m (Except ε String)) (path : Path) : m Config := do
  match ← read path with
  | .ok text => return (ofText? text).getD {}
  | .error _ => return {}

/-- The user's layer with the project's on top. -/
def ofFiles (read : Path → m (Except ε String)) (user project : Option Path) : m Config := do
  let lower ← user.elim (return {}) (ofFile read)
  let upper ← project.elim (return {}) (ofFile read)
  return lower.overlaid upper

/-- The configuration file below a home directory or a workspace. -/
def fileIn (directory : Path) : Path :=
  (directory.join ⟨".evi"⟩).join ⟨"bridge.yaml"⟩

/-- The configuration of a user and a workspace. -/
def load (read : Path → m (Except ε String)) (home workspace : Option Path) : m Config :=
  ofFiles read (home.map fileIn) (workspace.map fileIn)

end Config

end EviAssist
