import EviAssist.CommandLine.Cursor

/-!
# Arguments of the command line

Options that concern every command come before the command, a command's own options after it. Each
option may be given once. After `--` all arguments of a command are words.

* `Invocation`: what is asked on a command line.
* `Invocation.ofArguments`: reads the arguments, or tells why they ask for nothing.
-/

namespace EviAssist

/-- What is to be done. -/
inductive Command where
  | check (asJson : Bool) (files : List Path)
  | definition (cursor : Cursor)
  | hover (cursor : Cursor)
  | complete (cursor : Cursor)
  | signature (cursor : Cursor)
  | symbols (file : Path)
  deriving DecidableEq, Inhabited, Repr

/-- The options that come before the command. -/
structure GlobalOptions where
  workspace : Option Path := none
  isVerbose : Bool := false
  deriving DecidableEq, Inhabited, Repr

/-- What is asked on a command line. -/
structure Invocation where
  options : GlobalOptions
  command : Command
  deriving DecidableEq, Inhabited, Repr

/-- Why arguments ask for nothing: they do not fit together, or a cursor is none. -/
inductive UsageError where
  | arguments
  | cursor (refusal : Cursor.Refusal)
  deriving DecidableEq, Inhabited, Repr

namespace Invocation

/-- The form of an argument. -/
inductive Form where
  /-- `--` -/
  | separator
  /-- `--name` or `--name=value` -/
  | long (name : List Char) (value : Option (List Char))
  /-- `-abc` -/
  | short (letters : List Char)
  | word
  deriving DecidableEq, Repr

/-- The form of an argument. A single hyphen is a word. -/
def form (argument : String) : Form :=
  match argument.toList with
  | ['-', '-'] => .separator
  | '-' :: '-' :: rest =>
    let name := rest.takeWhile (· != '=')
    .long name ((rest.drop name.length).tail?)
  | '-' :: c :: rest => .short (c :: rest)
  | _ => .word

/-! ## Options before the command -/

/-- A workspace is given; it must not be the empty path. -/
def setWorkspace (o : GlobalOptions) (value : List Char) : Except UsageError GlobalOptions :=
  if o.workspace.isSome ∨ value.isEmpty then .error .arguments
  else .ok { o with workspace := some ⟨String.ofList value⟩ }

/-- Verbose output is asked for. -/
def setVerbose (o : GlobalOptions) : Except UsageError GlobalOptions :=
  if o.isVerbose then .error .arguments else .ok { o with isVerbose := true }

/-- Options of one letter each; the last one may wait for its value. -/
def readLetters (o : GlobalOptions) : List Char → Except UsageError (GlobalOptions × Bool)
  | [] => .ok (o, false)
  | 'v' :: rest => do (← setVerbose o) |> (readLetters · rest)
  | ['w'] => .ok (o, true)
  | 'w' :: '=' :: value => return (← setWorkspace o value, false)
  | 'w' :: value => return (← setWorkspace o value, false)
  | _ => .error .arguments

/-- The options, the name of the command and its arguments. `isWaiting` tells whether the
workspace comes next. -/
def readGlobal (o : GlobalOptions) (isWaiting : Bool) :
    List String → Except UsageError (GlobalOptions × String × List String)
  | [] => .error .arguments
  | argument :: rest =>
    match form argument, isWaiting with
    | .word, true => do readGlobal (← setWorkspace o argument.toList) false rest
    | .word, false => .ok (o, argument, rest)
    | _, true => .error .arguments
    | .separator, false => .error .arguments
    | .long name value, false =>
      if name = "workspace".toList then
        match value with
        | some value => do readGlobal (← setWorkspace o value) false rest
        | none => readGlobal o true rest
      else if name = "verbose".toList ∧ value = none then do readGlobal (← setVerbose o) false rest
      else .error .arguments
    | .short letters, false => do
      let (o, isWaiting) ← readLetters o letters
      readGlobal o isWaiting rest

/-! ## Arguments of a command -/

/-- The words of a command, and whether its option `flag` is given. -/
def readWords (flag : Option String) (isGiven onlyWords : Bool) (words : List String) :
    List String → Except UsageError (Bool × List String)
  | [] => .ok (isGiven, words)
  | argument :: rest =>
    match form argument, onlyWords with
    | .separator, false => readWords flag isGiven true words rest
    | .long name none, false =>
      if flag.any (·.toList = name) ∧ !isGiven then readWords flag true false words rest
      else .error .arguments
    | .long _ (some _), false => .error .arguments
    | .short _, false => .error .arguments
    | _, _ => readWords flag isGiven onlyWords (words ++ [argument]) rest

/-- The only word of a command without options. -/
def onlyWord (arguments : List String) : Except UsageError String := do
  match ← readWords none false false [] arguments with
  | (_, [word]) => return word
  | _ => throw .arguments

/-- A path; it must not be empty. -/
def pathOf (word : String) : Except UsageError Path :=
  if word = "" then .error .arguments else .ok ⟨word⟩

/-- The cursor that is the only word of a command. -/
def onlyCursor (arguments : List String) : Except UsageError Cursor := do
  (Cursor.ofText (← onlyWord arguments)).mapError .cursor

/-- The command with a given name. -/
def readCommand (name : String) (arguments : List String) : Except UsageError Command :=
  match name with
  | "check" => do
    let (asJson, words) ← readWords (some "json") false false [] arguments
    if words.isEmpty then throw .arguments
    return .check asJson (← words.mapM pathOf)
  | "definition" => Command.definition <$> onlyCursor arguments
  | "hover" => Command.hover <$> onlyCursor arguments
  | "complete" => Command.complete <$> onlyCursor arguments
  | "signature" => Command.signature <$> onlyCursor arguments
  | "symbols" => do return .symbols (← pathOf (← onlyWord arguments))
  | _ => .error .arguments

/-- Reads the arguments, or tells why they ask for nothing. -/
def ofArguments (arguments : List String) : Except UsageError Invocation := do
  let (options, name, rest) ← readGlobal {} false arguments
  return ⟨options, ← readCommand name rest⟩

end Invocation

end EviAssist
