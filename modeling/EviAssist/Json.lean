import EviAssist.Json.Binary64

/-!
# JSON values

The values of RFC 8259. An object keeps its members sorted by name, each name once.

* `Json`: a value.
* `Json.insertMember`, `Json.ofMembers`: objects from members; of two with one name the last
  counts.
* `Json.member?`: a member's value.
-/

namespace EviAssist

/-- A number: whole numbers that fit 64 bits, and doubles. -/
inductive Json.Number where
  | natural (n : Nat)
  | negative (n : Nat)
  | real (isNegative : Bool) (x : Binary64)
  deriving DecidableEq, Inhabited, Repr

/-- A value. -/
inductive Json where
  | null
  | bool (b : Bool)
  | number (n : Json.Number)
  | text (s : String)
  | array (items : List Json)
  | object (members : List (String × Json))
  deriving Inhabited, Repr

namespace Json

/-- Puts a member in its place among sorted ones, in the place of one with the same name. -/
def insertMember (name : String) (value : Json) : List (String × Json) → List (String × Json)
  | [] => [(name, value)]
  | (name', value') :: rest =>
    if name < name' then (name, value) :: (name', value') :: rest
    else if name = name' then (name, value) :: rest
    else (name', value') :: insertMember name value rest

/-- The sorted members of an object written with the given ones. -/
def ofMembers (members : List (String × Json)) : List (String × Json) :=
  members.foldl (fun sorted m => insertMember m.1 m.2 sorted) []

/-- An object from members in any order. -/
def ofList (members : List (String × Json)) : Json :=
  .object (ofMembers members)

/-- An object from those members that have a value. -/
def ofOptions (members : List (String × Option Json)) : Json :=
  ofList (members.filterMap fun m => m.2.map (m.1, ·))

/-- The value of a member with a given name. -/
def memberOf? (name : String) (members : List (String × Json)) : Option Json :=
  (members.find? fun m => m.1 == name).map (·.2)

/-- The value of an object's member. -/
def member? (name : String) : Json → Option Json
  | object members => memberOf? name members
  | _ => none

/-- A whole number. -/
def nat (n : Nat) : Json :=
  .number (.natural n)

end Json

end EviAssist
