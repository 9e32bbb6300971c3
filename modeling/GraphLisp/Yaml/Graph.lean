import GraphLisp.Yaml.Tag
import GraphLisp.Yaml.Token
/-!
# The graph of a YAML document

`Graph.ofTokens` puts the tokens of a document together. The nodes are numbered in the order in
which they begin, and parts are given by number, so that an alias is one more reference to the node
with its anchor; that node may still be open, and then contains itself. A node may be left out
where its place is clear, and is then an empty plain scalar.
-/

namespace GraphLisp.Yaml

/-- The text or the parts of a node. -/
inductive Content where
  | scalar (text : String)
  | sequence (items : List Nat)
  | mapping (entries : List (Nat × Nat))
deriving Inhabited

/-- A node of a document. -/
structure Vertex where
  tag : Tag
  content : Content
deriving Inhabited

/-- The nodes of a document by number. -/
abbrev Graph := Array Vertex

namespace Graph

/-- The node that stands for one that was left out. -/
def omitted : Vertex := ⟨.null, .scalar ""⟩

/-- The tokens still to come, the nodes so far, those that have anchors, what handles stand for, and
how many collections are open. -/
structure Parse where
  tokens : List Token
  graph : Graph
  anchors : List (String × Nat)
  handles : List (String × String)
  depth : Nat

/-- A step of putting tokens together. -/
abbrev Step := StateT Parse (Except Refusal)

/-- The document is refused. -/
def refuse {α : Type} : Step α := throw .document

/-- The next token. A document that cannot be taken apart ends here. -/
def peek : Step Token := do
  match (← get).tokens with
  | [] => return .streamEnd
  | .refusal r :: _ => throw r
  | t :: _ => return t

/-- Passes a token. -/
def pass : Step Unit := modify fun s => { s with tokens := s.tokens.drop 1 }

/-- Where a node may be left out: in front of these tokens. -/
inductive Place where
  | blockItem
  | indentlessItem
  | blockKey
  | flowItem
  | flowPairKey
  | flowKey
  | flowValue

/-- Whether the token shows that the node at a place was left out. -/
def Place.isOmitted : Place → Token → Bool
  | .blockItem, .blockEntry | .blockItem, .blockEnd => true
  | .indentlessItem, .blockEntry | .indentlessItem, .key => true
  | .indentlessItem, .value | .indentlessItem, .blockEnd => true
  | .blockKey, .key | .blockKey, .value | .blockKey, .blockEnd => true
  | .flowItem, .flowEntry | .flowItem, .flowSequenceEnd => true
  | .flowPairKey, .value | .flowPairKey, .flowEntry | .flowPairKey, .flowSequenceEnd => true
  | .flowKey, .value | .flowKey, .flowEntry | .flowKey, .flowMappingEnd => true
  | .flowValue, .flowEntry | .flowValue, .flowMappingEnd => true
  | _, _ => false

/-! ## Nodes -/

/-- Adds a node, and returns its number. -/
def add (v : Vertex) : Step Nat := do
  let n := (← get).graph.size
  modify fun s => { s with graph := s.graph.push v }
  return n

/-- Keeps a node under its anchor. -/
def anchorTo (anchor : Option String) (n : Nat) : Step Unit :=
  match anchor with
  | none => return
  | some name => modify fun s => { s with anchors := (name, n) :: s.anchors }

/-- An anchor marks one node only. -/
def checkAnchor (anchor : Option String) : Step Unit := do
  if let some name := anchor then
    if ((← get).anchors.lookup name).isSome then refuse

/-- Adds a scalar. -/
def addScalar (anchor : Option String) (tag : Tag) (text : String) : Step Nat := do
  let n ← add ⟨tag, .scalar text⟩
  anchorTo anchor n
  return n

/-- How many collections may stand inside each other. -/
def maxDepth : Nat := 490

/-- Adds a collection, whose parts may already refer to it. -/
def addCollection (anchor : Option String) (tag : Tag) (parts : Step Content) : Step Nat := do
  if maxDepth ≤ (← get).depth then throw .tooDeep
  let n ← add ⟨tag, .sequence []⟩
  anchorTo anchor n
  modify fun s => { s with depth := s.depth + 1 }
  let content ← parts
  modify fun s =>
    { s with graph := s.graph.setIfInBounds n ⟨tag, content⟩, depth := s.depth - 1 }
  return n

/-- The handles that need no directive. -/
def usualHandles : List (String × String) := [("!", "!"), ("!!", Tag.coreStem)]

/-- The full name of a tag. -/
def tagName (handle : Option String) (suffix : String) : Step String := do
  match handle with
  | none => return suffix
  | some h =>
    match ((← get).handles.lookup h).or (usualHandles.lookup h) with
    | some stem => return stem ++ suffix
    | none => refuse

/-- The anchor and the tag in front of a node, in either order. -/
def properties : Step (Option String × Option String) := do
  match ← peek with
  | .anchor name =>
    pass
    match ← peek with
    | .tag handle suffix =>
      pass
      return (some name, some (← tagName handle suffix))
    | _ => return (some name, none)
  | .tag handle suffix =>
    pass
    match ← peek with
    | .anchor name =>
      pass
      return (some name, some (← tagName handle suffix))
    | _ => return (none, some (← tagName handle suffix))
  | _ => return (none, none)

mutual

/-- A node, by its number. Between brackets there are no blocks; an indentless sequence may stand
only as the key or the value in a block mapping. -/
def node (block indentless : Bool) : Nat → Step Nat
  | 0 => refuse
  | fuel + 1 => do
    if let .alias name ← peek then
      pass
      match (← get).anchors.lookup name with
      | some found => return found
      | none => refuse
    else
      let (anchor, tag) ← properties
      let t ← peek
      checkAnchor anchor
      let sequence (items : Step (List Nat)) : Step Nat :=
        addCollection anchor (.ofCollection tag .seq) (Content.sequence <$> items)
      let mapping (entries : Step (List (Nat × Nat))) : Step Nat :=
        addCollection anchor (.ofCollection tag .map) (Content.mapping <$> entries)
      let empty : Step Nat :=
        if anchor.isSome || tag.isSome then addScalar anchor (.ofScalar tag true "") "" else refuse
      match t with
      | .scalar text plain =>
        pass
        addScalar anchor (.ofScalar tag plain text) text
      | .flowSequenceStart =>
        pass
        sequence (flowItems true fuel)
      | .flowMappingStart =>
        pass
        mapping (flowEntries true fuel)
      | .blockSequenceStart =>
        if block then
          pass
          sequence (blockItems fuel)
        else empty
      | .blockMappingStart =>
        if block then
          pass
          mapping (blockEntries fuel)
        else empty
      | .blockEntry => if indentless then sequence (indentlessItems fuel) else empty
      | _ => empty

/-- A node, or what stands for one that was left out. -/
def nodeAt (place : Place) (block indentless : Bool) : Nat → Step Nat
  | 0 => refuse
  | fuel + 1 => do
    if place.isOmitted (← peek) then add omitted else node block indentless fuel

/-- The items of a block sequence. -/
def blockItems : Nat → Step (List Nat)
  | 0 => refuse
  | fuel + 1 => do
    match ← peek with
    | .blockEntry =>
      pass
      let item ← nodeAt .blockItem true false fuel
      return item :: (← blockItems fuel)
    | .blockEnd =>
      pass
      return []
    | _ => refuse

/-- The items of a sequence that is not further in than the key in front of it. -/
def indentlessItems : Nat → Step (List Nat)
  | 0 => refuse
  | fuel + 1 => do
    match ← peek with
    | .blockEntry =>
      pass
      let item ← nodeAt .indentlessItem true false fuel
      return item :: (← indentlessItems fuel)
    | _ => return []

/-- The value in a block mapping. -/
def blockValue : Nat → Step Nat
  | 0 => refuse
  | fuel + 1 => do
    match ← peek with
    | .value =>
      pass
      nodeAt .blockKey true true fuel
    | _ => add omitted

/-- The entries of a block mapping. -/
def blockEntries : Nat → Step (List (Nat × Nat))
  | 0 => refuse
  | fuel + 1 => do
    match ← peek with
    | .key =>
      pass
      let key ← nodeAt .blockKey true true fuel
      let value ← blockValue fuel
      return (key, value) :: (← blockEntries fuel)
    | .blockEnd =>
      pass
      return []
    | _ => refuse

/-- The value in a pair or a mapping between brackets. -/
def flowValue (place : Place) : Nat → Step Nat
  | 0 => refuse
  | fuel + 1 => do
    match ← peek with
    | .value =>
      pass
      nodeAt place false false fuel
    | _ => add omitted

/-- The items of a sequence in brackets. A pair in it is a mapping of one entry. -/
def flowItems (first : Bool) : Nat → Step (List Nat)
  | 0 => refuse
  | fuel + 1 => do
    if let .flowSequenceEnd ← peek then
      pass
      return []
    else
      if !first then
        match ← peek with
        | .flowEntry => pass
        | _ => refuse
      match ← peek with
      | .flowSequenceEnd =>
        pass
        return []
      | .key =>
        pass
        let pair : Step (List (Nat × Nat)) := do
          let key ← nodeAt .flowPairKey false false fuel
          let value ← flowValue .flowItem fuel
          return [(key, value)]
        let item ← addCollection none .map (Content.mapping <$> pair)
        return item :: (← flowItems false fuel)
      | _ =>
        let item ← node false false fuel
        return item :: (← flowItems false fuel)

/-- The entries of a mapping in braces. -/
def flowEntries (first : Bool) : Nat → Step (List (Nat × Nat))
  | 0 => refuse
  | fuel + 1 => do
    if let .flowMappingEnd ← peek then
      pass
      return []
    else
      if !first then
        match ← peek with
        | .flowEntry => pass
        | _ => refuse
      match ← peek with
      | .flowMappingEnd =>
        pass
        return []
      | .key =>
        pass
        let key ← nodeAt .flowKey false false fuel
        let value ← flowValue .flowValue fuel
        return (key, value) :: (← flowEntries false fuel)
      | _ =>
        let key ← node false false fuel
        return (key, ← add omitted) :: (← flowEntries false fuel)

end

/-! ## Documents -/

/-- Passes the marks that end a document. -/
def passEnds : Nat → Step Unit
  | 0 => return
  | fuel + 1 => do
    if let .documentEnd ← peek then
      pass
      passEnds fuel

/-- Takes the directives in front of a document. There is at most one for the version, whose
first number has to be one, and at most one for each handle. -/
def takeDirectives (versioned : Bool) : Nat → Step Unit
  | 0 => return
  | fuel + 1 => do
    if let .directive d ← peek then
      pass
      match d with
      | .version major =>
        if versioned || major != 1 then refuse
        takeDirectives true fuel
      | .handle name stem =>
        if ((← get).handles.lookup name).isSome then refuse
        modify fun s => { s with handles := (name, stem) :: s.handles }
        takeDirectives versioned fuel
      | .other => takeDirectives versioned fuel

/-- Passes the directives and the mark in front of a document. -/
def opening (fuel : Nat) : Step Unit := do
  modify fun s => { s with handles := [] }
  takeDirectives false fuel
  match ← peek with
  | .documentStart => pass
  | _ => refuse

/-- The document in a stream, by the number of its first node, if there is one. There may be no
second one. -/
def document (fuel : Nat) : Step (Option Nat) := do
  let root ← match ← peek with
    | .streamEnd => pure none
    | .directive _ | .documentStart => do
      opening fuel
      match ← peek with
      | .directive _ | .documentStart | .documentEnd | .streamEnd => some <$> add omitted
      | _ => some <$> node true false fuel
    | _ => some <$> node true false fuel
  passEnds fuel
  match ← peek with
  | .streamEnd => return root
  | _ => do
    opening fuel
    refuse

/-- The nodes of a document, and the number of the first one unless the document is empty. -/
def ofTokens (tokens : List Token) : Except Refusal (Option Nat × Graph) := do
  let (root, s) ← document (4 * tokens.length + 4) ⟨tokens, #[], [], [], 0⟩
  return (root, s.graph)

end Graph

end GraphLisp.Yaml
