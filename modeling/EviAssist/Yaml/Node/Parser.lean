import EviAssist.Yaml.Node
import EviAssist.Yaml.Token.Lexer

/-!
# Nodes from tokens

An anchor names a node, and an alias stands for the node named last; a node cannot stand inside
itself.

* `Yaml.Anchors`: the named nodes.
* `Yaml.node?`, with a function for the entries of each kind of collection: one node.
* `Yaml.document?`: the node of a text with at most one document.
-/

namespace EviAssist.Yaml

/-! ## Anchors and tags -/

/-- The named nodes, the latest first; one that is not yet complete has no node. -/
abbrev Anchors : Type :=
  List (String × Option Node)

/-- Gives the name of a node whose reading begins. -/
def Anchors.begin (anchors : Anchors) : Option String → Anchors
  | some name => (name, none) :: anchors
  | none => anchors

/-- The latest use of a name gets its node, if it has none yet. -/
def Anchors.set (name : String) (node : Node) : Anchors → Anchors
  | [] => []
  | (name', found) :: rest =>
    if name' = name then (name', some (found.getD node)) :: rest
    else (name', found) :: set name node rest

/-- Gives a name its node. -/
def Anchors.complete (anchors : Anchors) (name : Option String) (node : Node) : Anchors :=
  match name with
  | some name => anchors.set name node
  | none => anchors

/-- The handles of tags with what they stand for. -/
abbrev Handles : Type :=
  List (String × String)

/-- The handles that every document has. -/
def Handles.standard : Handles :=
  [("!", "!"), ("!!", Node.standardTag "")]

/-- A whole tag. -/
def Handles.resolve? (handles : Handles) (handle suffix : String) : Option String :=
  if handle = "" then some suffix
  else (handles.lookup handle).map (· ++ suffix)

/-- The anchor and the tag before a node. -/
structure Properties where
  anchor : Option String := none
  tag : Option String := none
  deriving Inhabited, Repr

/-- Reads the properties of a node, each at most once, in either order. -/
def properties? (handles : Handles) : List Token → Option (Properties × List Token)
  | .anchor name :: .tag handle suffix :: rest => do
    return (⟨some name, some (← handles.resolve? handle suffix)⟩, rest)
  | .tag handle suffix :: .anchor name :: rest => do
    return (⟨some name, some (← handles.resolve? handle suffix)⟩, rest)
  | .anchor name :: rest => some ({ anchor := some name }, rest)
  | .tag handle suffix :: rest => do
    return ({ tag := some (← handles.resolve? handle suffix) }, rest)
  | rest => some ({}, rest)

/-- A scalar with its properties; the tag of a lone exclamation mark is none. -/
def Properties.scalar (p : Properties) (style : Style) (text : String) : Node :=
  .scalar (p.tag.filter (· ≠ "!")) style text

/-! ## Nodes -/

/-- A node, the named nodes, and the tokens that follow. -/
abbrev NodeReading : Type :=
  Node × Anchors × List Token

/-- Whether the next token is one of some. -/
def comes (tokens : List Token) : List Token → Bool
  | [] => false
  | token :: _ => tokens.contains token

mutual

/-- One node. `inBlock` tells whether a block may begin here, and `besideKey` whether the entries
of a sequence may stand in the column of the key before them. `fuel` bounds the depth of calls. -/
def node? (handles : Handles) (fuel : Nat) (inBlock besideKey : Bool) (anchors : Anchors)
    (tokens : List Token) : Option NodeReading :=
  match fuel with
  | 0 => none
  | fuel + 1 =>
    match tokens with
    | .alias name :: rest => do return ((← (anchors.lookup name).join), anchors, rest)
    | _ => do
      let (p, tokens) ← properties? handles tokens
      let begun := anchors.begin p.anchor
      let close (reading : Option NodeReading) : Option NodeReading :=
        reading.map fun (node, anchors, rest) => (node, anchors.complete p.anchor node, rest)
      match tokens with
      | .blockEntry :: _ =>
        if besideKey then close (besideKeyEntries? handles fuel begun [] tokens)
        else emptyNode? p begun tokens
      | .scalar style text :: rest => close (some (p.scalar style text, begun, rest))
      | .flowSequence :: rest => close (flowItems? handles fuel begun true [] rest)
      | .flowMapping :: rest => close (flowMembers? handles fuel begun true [] rest)
      | .blockSequence :: rest =>
        if inBlock then close (blockItems? handles fuel begun [] rest)
        else emptyNode? p begun tokens
      | .blockMapping :: rest =>
        if inBlock then close (blockMembers? handles fuel begun [] rest)
        else emptyNode? p begun tokens
      | _ => emptyNode? p begun tokens

/-- A node of which only the properties are written. -/
def emptyNode? (p : Properties) (anchors : Anchors) (tokens : List Token) : Option NodeReading :=
  if p.anchor.isSome || p.tag.isSome then
    let node := Node.scalar p.tag .plain ""
    some (node, anchors.complete p.anchor node, tokens)
  else none

/-- A node, or an empty one when one of the tokens in `stops` comes next. -/
def nodeOrEmpty? (handles : Handles) (fuel : Nat) (inBlock besideKey : Bool) (stops : List Token)
    (anchors : Anchors) (tokens : List Token) : Option NodeReading :=
  match fuel with
  | 0 => none
  | fuel + 1 =>
    if comes stops tokens then some (Node.empty, anchors, tokens)
    else node? handles fuel inBlock besideKey anchors tokens

/-- The entries of a sequence that is indented. -/
def blockItems? (handles : Handles) (fuel : Nat) (anchors : Anchors) (items : List Node)
    (tokens : List Token) : Option NodeReading :=
  match fuel with
  | 0 => none
  | fuel + 1 =>
    match tokens with
    | .blockEntry :: rest => do
      let (item, anchors, rest) ←
        nodeOrEmpty? handles fuel true false [.blockEntry, .blockEnd] anchors rest
      blockItems? handles fuel anchors (items ++ [item]) rest
    | .blockEnd :: rest => some (.sequence items, anchors, rest)
    | _ => none

/-- The entries of a sequence in the column of its key. -/
def besideKeyEntries? (handles : Handles) (fuel : Nat) (anchors : Anchors) (items : List Node)
    (tokens : List Token) : Option NodeReading :=
  match fuel with
  | 0 => none
  | fuel + 1 =>
    match tokens with
    | .blockEntry :: rest => do
      let (item, anchors, rest) ←
        nodeOrEmpty? handles fuel true false [.blockEntry, .key, .value, .blockEnd] anchors rest
      besideKeyEntries? handles fuel anchors (items ++ [item]) rest
    | _ => some (.sequence items, anchors, tokens)

/-- The members of a mapping that is indented. -/
def blockMembers? (handles : Handles) (fuel : Nat) (anchors : Anchors)
    (members : List (Node × Node)) (tokens : List Token) : Option NodeReading :=
  match fuel with
  | 0 => none
  | fuel + 1 =>
    let stops := [Token.key, .value, .blockEnd]
    match tokens with
    | .key :: rest => do
      let (key, anchors, rest) ← nodeOrEmpty? handles fuel true true stops anchors rest
      let (value, anchors, rest) ← blockValue? handles fuel anchors rest
      blockMembers? handles fuel anchors (members ++ [(key, value)]) rest
    | .blockEnd :: rest => some (.mapping members, anchors, rest)
    | _ => none

/-- The value of a member of a mapping that is indented. -/
def blockValue? (handles : Handles) (fuel : Nat) (anchors : Anchors) (tokens : List Token) :
    Option NodeReading :=
  match fuel with
  | 0 => none
  | fuel + 1 =>
    match tokens with
    | .value :: rest => nodeOrEmpty? handles fuel true true [.key, .value, .blockEnd] anchors rest
    | _ => some (Node.empty, anchors, tokens)

/-- The items between brackets; a member alone is a mapping. -/
def flowItems? (handles : Handles) (fuel : Nat) (anchors : Anchors) (isFirst : Bool)
    (items : List Node) (tokens : List Token) : Option NodeReading :=
  match fuel with
  | 0 => none
  | fuel + 1 =>
    match tokens, isFirst with
    | .flowSequenceEnd :: rest, _ => some (.sequence items, anchors, rest)
    | .flowEntry :: rest, false => flowItem? handles fuel anchors items rest
    | tokens, true => flowItem? handles fuel anchors items tokens
    | _, false => none

/-- One more item between brackets, or the end after a comma. -/
def flowItem? (handles : Handles) (fuel : Nat) (anchors : Anchors) (items : List Node)
    (tokens : List Token) : Option NodeReading :=
  match fuel with
  | 0 => none
  | fuel + 1 =>
    match tokens with
    | .flowSequenceEnd :: rest => some (.sequence items, anchors, rest)
    | .key :: rest => do
      let (pair, anchors, rest) ← flowPair? handles fuel anchors rest
      flowItems? handles fuel anchors false (items ++ [pair]) rest
    | _ => do
      let (item, anchors, rest) ← node? handles fuel false false anchors tokens
      flowItems? handles fuel anchors false (items ++ [item]) rest

/-- A member alone between brackets. Where its key is left out, so is the token that follows. -/
def flowPair? (handles : Handles) (fuel : Nat) (anchors : Anchors) (tokens : List Token) :
    Option NodeReading :=
  match fuel with
  | 0 => none
  | fuel + 1 => do
    let stops := [Token.value, .flowEntry, .flowSequenceEnd]
    let (key, anchors, rest) ←
      if comes stops tokens then some (Node.empty, anchors, tokens.drop 1)
      else node? handles fuel false false anchors tokens
    let (value, anchors, rest) ←
      match rest with
      | .value :: rest =>
        nodeOrEmpty? handles fuel false false [.flowEntry, .flowSequenceEnd] anchors rest
      | _ => some (Node.empty, anchors, rest)
    return (.mapping [(key, value)], anchors, rest)

/-- The members between braces. -/
def flowMembers? (handles : Handles) (fuel : Nat) (anchors : Anchors) (isFirst : Bool)
    (members : List (Node × Node)) (tokens : List Token) : Option NodeReading :=
  match fuel with
  | 0 => none
  | fuel + 1 =>
    match tokens, isFirst with
    | .flowMappingEnd :: rest, _ => some (.mapping members, anchors, rest)
    | .flowEntry :: rest, false => flowMember? handles fuel anchors members rest
    | tokens, true => flowMember? handles fuel anchors members tokens
    | _, false => none

/-- One more member between braces, or the end after a comma. -/
def flowMember? (handles : Handles) (fuel : Nat) (anchors : Anchors) (members : List (Node × Node))
    (tokens : List Token) : Option NodeReading :=
  match fuel with
  | 0 => none
  | fuel + 1 =>
    let stops := [Token.flowEntry, .flowMappingEnd]
    match tokens with
    | .flowMappingEnd :: rest => some (.mapping members, anchors, rest)
    | .key :: rest => do
      let (key, anchors, rest) ←
        nodeOrEmpty? handles fuel false false (.value :: stops) anchors rest
      let (value, anchors, rest) ←
        match rest with
        | .value :: rest => nodeOrEmpty? handles fuel false false stops anchors rest
        | _ => some (Node.empty, anchors, rest)
      flowMembers? handles fuel anchors false (members ++ [(key, value)]) rest
    | _ => do
      let (key, anchors, rest) ← node? handles fuel false false anchors tokens
      flowMembers? handles fuel anchors false (members ++ [(key, Node.empty)]) rest

end

/-! ## Documents -/

/-- The directives before a document: their handles, and whether there was a version. Versions
and handles must be known and must not be repeated. -/
def directives? (hasVersion : Bool) (handles : Handles) :
    List Token → Option (Handles × List Token)
  | .version major minor :: rest =>
    if hasVersion || major ≠ 1 || (minor ≠ 1 && minor ≠ 2) then none
    else directives? true handles rest
  | .tagHandle handle expansion :: rest =>
    if (handles.lookup handle).isSome then none
    else directives? hasVersion ((handle, expansion) :: handles) rest
  | rest => some (handles, rest)

/-- Whether a token is a directive. -/
def isDirective : Token → Bool
  | .version _ _ => true
  | .tagHandle _ _ => true
  | _ => false

/-- Whether a document ends here. -/
def endsDocument : List Token → Bool
  | [] => true
  | token :: _ => isDirective token || token == .documentStart || token == .documentEnd

/-- The node of a document after its start. -/
def content? (handles : Handles) (tokens : List Token) : Option (Node × List Token) :=
  (node? (handles ++ Handles.standard) (4 * tokens.length + 4) true false [] tokens).map
    fun (node, _, rest) => (node, rest)

/-- The node of the only document; none when there is no document at all. -/
def ofTokens? (tokens : List Token) : Option (Option Node) := do
  if tokens.isEmpty then return none
  let (node, rest) ←
    if tokens.head?.any fun token => isDirective token || token == .documentStart then do
      match ← directives? false [] tokens with
      | (handles, .documentStart :: rest) =>
        if endsDocument rest then some (Node.empty, rest) else content? handles rest
      | _ => none
    else content? [] tokens
  if rest.all (· == .documentEnd) then return some node else none

/-- The node of a text with at most one document. -/
def document? (cs : List Char) : Option (Option Node) :=
  (tokens? cs).bind ofTokens?

end EviAssist.Yaml
