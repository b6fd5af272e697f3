import EviAssist.Yaml.Token

/-!
# YAML nodes

* `Yaml.Node`: a scalar, a sequence or a mapping. Only the tag of a scalar matters.
* `Yaml.Node.unsigned?`, `Yaml.Node.bool?`, `Yaml.Node.text?`, `Yaml.Node.option`: what a node
  stands for where a certain kind of value is wanted.
-/

namespace EviAssist.Yaml

/-- A scalar with its tag, a sequence, or a mapping. -/
inductive Node where
  | scalar (tag : Option String) (style : Style) (text : String)
  | sequence (items : List Node)
  | mapping (members : List (Node × Node))
  deriving Inhabited, Repr

namespace Node

/-- A node of which nothing is written. -/
def empty : Node :=
  .scalar none .plain ""

/-- Whether nothing is written, a tag apart. -/
def isEmpty : Node → Bool
  | scalar _ .plain text => text == ""
  | _ => false

/-- The whole name of a standard tag. -/
def standardTag (name : String) : String :=
  "tag:yaml.org,2002:" ++ name

/-- Whether a text stands for no value. -/
def isNullText (text : String) : Bool :=
  ["null", "Null", "NULL", "~"].contains text

/-- Whether a scalar may stand for a value that is no text: a plain one may, and a literal one
whose tag says so. -/
def isBare (name : String) (tag : Option String) : Style → Bool
  | .plain => true
  | .literal => tag == some (standardTag name)
  | _ => false

/-- A truth value. -/
def bool? : Node → Option Bool
  | scalar tag style text =>
    if !isBare "bool" tag style then none
    else if ["true", "True", "TRUE"].contains text then some true
    else if ["false", "False", "FALSE"].contains text then some false
    else none
  | _ => none

/-- A text; every scalar is one, as written. -/
def text? : Node → Option String
  | scalar _ _ text => some text
  | _ => none

/-- The items where a list is wanted; nothing at all is the empty list. -/
def items? : Node → Option (List Node)
  | sequence items => some items
  | node => if node.isEmpty then some [] else none

/-- The members where a mapping is wanted; nothing at all is the empty mapping. -/
def members? : Node → Option (List (Node × Node))
  | mapping members => some members
  | node => if node.isEmpty then some [] else none

/-- Whether a value is left out where one may be: by nothing, or by a plain word for it. A tag
makes it a value, unless it is the tag of no value; that goes with nothing else. -/
def isLeftOut? : Node → Option Bool
  | scalar none .plain text => some (text == "" || isNullText text)
  | scalar (some tag) .plain text =>
    if tag == standardTag "null" then if isNullText text then some true else none
    else some false
  | _ => some false

/-- A value that may be left out. -/
def option {α : Type} (read : Node → Option α) (node : Node) : Option (Option α) := do
  if ← node.isLeftOut? then return none else return some (← read node)

end Node

end EviAssist.Yaml
