import EviAssist.Json.Printer
import EviAssist.Lint.Result
import EviAssist.Text.Blank
import EviAssist.Text.Quoted

/-!
# Shapes of evi's answers

evi writes its JSON by hand and every scalar as a text, so numbers and flags are read in either
spelling. A value of another shape is refused with the reason.

* `ShapeError`: why a value does not have the shape wanted of it.
* `Shape.text`, `Shape.number`, `Shape.flag`, `Shape.severity`, `Shape.list`: single values.
* `Shape.marker`, `Shape.place`, `Shape.signature`: records, as objects or as arrays of their
  fields.
-/

namespace EviAssist

/-- Why a value does not have the shape wanted of it. -/
inductive ShapeError where
  /-- It is of another type. -/
  | wrongType (found : Json) (wanted : String)
  /-- A field is not there. -/
  | missing (field : String)
  /-- A field is there twice, under two names. -/
  | duplicate (field : String)
  /-- It is neither spelling of a number or a flag. -/
  | noSpelling
  /-- It is a text, but not that of a number. -/
  | notNumber (text : String)
  /-- It is a text, but not that of a flag. -/
  | notFlag (text : String)
  /-- It is not the name of a severity. -/
  | notSeverity (name : String)
  /-- A severity was written as an object without exactly one member. -/
  | notSingleMember
  /-- An array ends before all fields were read. -/
  | tooShort (length : Nat) (wanted : String)
  /-- An array goes on after all fields were read. -/
  | tooLong (length : Nat)
  deriving Inhabited, Repr

namespace ShapeError

/-- How a value is called in an error. -/
def called : Json → String
  | .null => "null"
  | .bool true => "boolean `true`"
  | .bool false => "boolean `false`"
  | .number (.real isNegative x) =>
    "floating point `" ++ String.ofList (Json.Number.real isNegative x).write ++ "`"
  | .number n => "integer `" ++ String.ofList n.write ++ "`"
  | .text s => "string " ++ Text.quoted s
  | .array _ => "sequence"
  | .object _ => "map"

/-- The text shown for an error. -/
def message : ShapeError → String
  | wrongType found wanted => "invalid type: " ++ called found ++ ", expected " ++ wanted
  | missing field => "missing field `" ++ field ++ "`"
  | duplicate field => "duplicate field `" ++ field ++ "`"
  | noSpelling => "data did not match any variant of untagged enum Repr"
  | notNumber text => "`" ++ text ++ "` is not a non-negative integer"
  | notFlag text => "`" ++ text ++ "` is not a boolean"
  | notSeverity name =>
    "unknown variant `" ++ name ++ "`, expected one of `error`, `warning`, `info`, `hint`"
  | notSingleMember => "invalid value: map, expected map with a single key"
  | tooShort length wanted => "invalid length " ++ toString length ++ ", expected " ++ wanted
  | tooLong length =>
    "invalid length " ++ toString length ++ ", expected fewer elements in array"

end ShapeError

namespace Shape

/-- What a reader makes of a value. -/
abbrev Reading (α : Type) : Type :=
  Except ShapeError α

/-! ## Single values -/

/-- A text. -/
def text : Json → Reading String
  | .text s => .ok s
  | other => .error (.wrongType other "a string")

/-- A number of 32 bits, as a number or as its text with blanks around it. -/
def number : Json → Reading UInt32
  | .number (.natural n) => if n < UInt32.size then .ok (UInt32.ofNat n) else .error .noSpelling
  | .text s =>
    match Text.readUInt32? (Text.trim s.toList) with
    | some n => .ok n
    | none => .error (.notNumber s)
  | _ => .error .noSpelling

/-- A flag, as a boolean or as its text; nothing is `false`. -/
def flag : Json → Reading Bool
  | .null => .ok false
  | .bool b => .ok b
  | .text "true" => .ok true
  | .text "false" => .ok false
  | .text s => .error (.notFlag s)
  | _ => .error .noSpelling

/-- The severity with a name. -/
def severityNamed (name : String) : Reading Severity :=
  match Severity.ofName? name with
  | some severity => .ok severity
  | none => .error (.notSeverity name)

/-- A severity, as its name or as an object that holds nothing under its name. -/
def severity : Json → Reading Severity
  | .text name => severityNamed name
  | .object [(name, content)] => do
    let severity ← severityNamed name
    match content with
    | .null => return severity
    | other => throw (.wrongType other "unit")
  | .object _ => .error .notSingleMember
  | other => .error (.wrongType other "string or map")

/-- The items of an array. -/
def items : Json → Reading (List Json)
  | .array items => .ok items
  | other => .error (.wrongType other "a sequence")

/-- The members of an object. -/
def members : Json → Reading (List (String × Json))
  | .object members => .ok members
  | other => .error (.wrongType other "a map")

/-- A list that may be left out by `null`. -/
def optionalItems : Json → Reading (Option (List Json))
  | .null => .ok none
  | other => some <$> items other

/-- A list of texts that may be left out by `null`. -/
def optionalTexts : Json → Reading (Option (List String))
  | .null => .ok none
  | other => do return some (← (← items other).mapM text)

/-! ## Fields -/

/-- A field of an object, if it is there. -/
def field? {α : Type} (members : List (String × Json)) (name : String) (read : Json → Reading α) :
    Reading (Option α) :=
  match Json.memberOf? name members with
  | some value => some <$> read value
  | none => .ok none

/-- A field that must have been there. -/
def require {α : Type} (name : String) : Option α → Reading α
  | some a => .ok a
  | none => .error (.missing name)

/-- The next field of an array, of which `count` were read before. -/
def nextField {α : Type} (wanted : String) (count : Nat) (read : Json → Reading α) :
    List Json → Reading (α × List Json)
  | [] => .error (.tooShort count wanted)
  | value :: rest => do return (← read value, rest)

/-- The next field of an array, or its default after the end. -/
def nextFieldOr {α : Type} (default : α) (read : Json → Reading α) :
    List Json → Reading (α × List Json)
  | [] => .ok (default, [])
  | value :: rest => do return (← read value, rest)

/-- An array of `length` items, of which `rest` were not read. -/
def atEnd (length : Nat) (rest : List Json) : Reading Unit :=
  if rest.isEmpty then .ok () else .error (.tooLong length)

/-! ## Records -/

/-- Whether a record is marked as one that evi could not fill in. -/
def marker : Json → Reading Bool
  | .object members => do return (← field? members "invalid" flag).getD false
  | .array items => do
    let (isInvalid, rest) ← nextFieldOr false flag items
    atEnd items.length rest
    return isInvalid
  | other => .error (.wrongType other "struct Marker")

/-- The fields of a place in an object. They are read in the order of their names; after that
the first one not there is reported. -/
def placeOfMembers (members : List (String × Json)) : Reading SourcePosition := do
  let column ← field? members "column" number
  let file ← field? members "file" text
  let length ← field? members "length" number
  let line ← field? members "line" number
  let file ← require "file" file
  let line ← require "line" line
  let column ← require "column" column
  let length ← require "length" length
  return .ofTool ⟨file⟩ line column length

/-- A place in a file. -/
def place : Json → Reading SourcePosition
  | .object members => placeOfMembers members
  | .array items => do
    let wanted := "struct RawPosition with 4 elements"
    let (file, rest) ← nextField wanted 0 text items
    let (line, rest) ← nextField wanted 1 number rest
    let (column, rest) ← nextField wanted 2 number rest
    let (length, rest) ← nextField wanted 3 number rest
    atEnd items.length rest
    return .ofTool ⟨file⟩ line column length
  | other => .error (.wrongType other "struct RawPosition")

/-- A note: its message and its place side by side in one object. -/
def note : Json → Reading RelatedNote
  | .object members => do
    let message ← require "message" (← field? members "message" text)
    return ⟨← placeOfMembers members, message⟩
  | other => .error (.wrongType other "struct RawNote")

/-- A diagnostic without its notes, and the values of those. -/
def diagnostic : Json → Reading (LintDiagnostic × List Json)
  | .object members => do
    let message ← field? members "message" text
    let related ← field? members "related" optionalItems
    let severity ← field? members "type" severity
    let message ← require "message" message
    let severity ← require "type" severity
    let position ← placeOfMembers members
    return (⟨position, message, severity, []⟩, (related.getD none).getD [])
  | other => .error (.wrongType other "struct RawDiagnostic")

/-- The return type, which has two names. -/
def returnType (members : List (String × Json)) : Reading (Option String) := do
  let spaced ← field? members "return type" text
  match spaced, Json.memberOf? "return_type" members with
  | some _, some _ => throw (.duplicate "return type")
  | some s, none => return some s
  | none, _ => field? members "return_type" text

/-- A function with a given name. -/
def signature (identifier : String) : Json → Reading FunctionSignature
  | .object members => do
    let parameters ← field? members "parameters" optionalTexts
    let returnType ← returnType members
    let variadic ← field? members "variadic" flag
    let returnType ← require "return type" returnType
    return ⟨identifier, returnType, (parameters.getD none).getD [], variadic.getD false⟩
  | .array items => do
    let (returnType, rest) ← nextField "struct RawFunction with 3 elements" 0 text items
    let (parameters, rest) ← nextFieldOr none optionalTexts rest
    let (variadic, rest) ← nextFieldOr false flag rest
    atEnd items.length rest
    return ⟨identifier, returnType, parameters.getD [], variadic⟩
  | other => .error (.wrongType other "struct RawFunction")

end Shape

end EviAssist
