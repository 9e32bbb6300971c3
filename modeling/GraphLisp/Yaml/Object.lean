import GraphLisp.Plain
import GraphLisp.Yaml.Graph
import GraphLisp.Yaml.Scalar
/-!
# What the nodes of a YAML document stand for

Every node stands for one object, however often it is referred to. `Object.ofGraph` makes the
objects from the outermost one inwards: scalars at once, and the parts of a collection only after
everything that stands beside the collection. So of several nodes without a value the outermost one
decides why the document is refused, and among equals the first one.
-/

namespace GraphLisp.Yaml

namespace Tag

/-- Whether the tag is one for scalars. -/
def isScalar (t : Tag) : Bool := t ∈ [.null, .bool, .int, .float, .binary, .timestamp, .str]

/-- Whether the tag is one for collections. -/
def isCollection (t : Tag) : Bool := t ∈ [.seq, .map, .set, .omap, .pairs]

end Tag

/-- What a node stands for. Parts are given by number, and so are keys. -/
inductive Object where
  /-- A scalar. One object that is no number is shared by all nodes that are spelt like it. -/
  | leaf (p : Plain) (isCommonNan : Bool)
  | list (items : List Nat)
  | map (entries : List (Nat × Nat))
  | set (members : List Nat)
  | tuple (first second : Nat)
deriving Inhabited

namespace Object

/-- The objects made so far. Those of nodes have the numbers of their nodes, and tuples follow. -/
structure Build where
  graph : Graph
  objects : Array (Option Object)
  /-- The collections whose parts are still to be made, the last one first. -/
  later : List Nat

/-- A step of making objects. -/
abbrev Step := StateT Build (Except Refusal)

/-- The document is refused. -/
def refuse {α : Type} : Step α := throw .document

/-- The node with a number. -/
def vertex (n : Nat) : Step Vertex := return ((← get).graph[n]?).getD default

/-- Puts an object under a number. -/
def put (n : Nat) (o : Object) : Step Unit :=
  modify fun s => { s with objects := s.objects.setIfInBounds n (some o) }

/-- Adds an object that no node stands for. -/
def add (o : Object) : Step Nat := do
  let n := (← get).objects.size
  modify fun s => { s with objects := s.objects.push (some o) }
  return n

/-! ## Merged entries -/

/-- The entries of a node; only a mapping has any. -/
def entriesOf (n : Nat) : Step (List (Nat × Nat)) := do
  match (← vertex n).content with
  | .mapping entries => return entries
  | _ => return []

/-- Changes a node. -/
def change (n : Nat) (f : Vertex → Vertex) : Step Unit :=
  modify fun s => { s with graph := s.graph.modify n f }

/-- Gives a mapping other entries. -/
def setEntries (n : Nat) (entries : List (Nat × Nat)) : Step Unit :=
  change n fun v => { v with content := .mapping entries }

/-- As a key, the sign of a default value is a text. -/
def nameDefaults (entries : List (Nat × Nat)) : Step Unit :=
  entries.forM fun e => change e.1 fun v => if v.tag = .default then { v with tag := .str } else v

/-- The place of the first entry that merges something in, from a place on. -/
def mergePlace? (entries : List (Nat × Nat)) (start : Nat) : Step (Option Nat) := do
  let graph := (← get).graph
  let isMerge (e : Nat × Nat) : Bool := (graph[e.1]?).any (·.tag = .merge)
  return ((entries.drop start).findIdx? isMerge).map (· + start)

/-- Whether a node is a mapping. -/
def isMapping (n : Nat) : Step Bool := do
  match (← vertex n).content with
  | .mapping _ => return true
  | _ => return false

mutual

/-- Replaces the entries of a mapping that merge something in by what they merge in, in front of
the others. Every such entry is taken out before it is looked at, which bounds the fuel. -/
def flatten : Nat → Nat → Step Unit
  | 0, _ => refuse
  | fuel + 1, n => flattenFrom fuel n 0 []

/-- The same from a place on, given what has been merged in. -/
def flattenFrom : Nat → Nat → Nat → List (Nat × Nat) → Step Unit
  | 0, _, _, _ => refuse
  | fuel + 1, n, start, merged => do
    let entries ← entriesOf n
    match ← mergePlace? entries start with
    | none =>
      nameDefaults entries
      if !merged.isEmpty then setEntries n (merged ++ entries)
    | some place =>
      setEntries n (entries.eraseIdx place)
      let more ← mergedFrom fuel ((entries[place]?.map (·.2)).getD 0)
      flattenFrom fuel n place (merged ++ more)

/-- The entries that a node merges in: those of a mapping, or of the mappings in a sequence. The
first of these comes last, and so counts. -/
def mergedFrom : Nat → Nat → Step (List (Nat × Nat))
  | 0, _ => refuse
  | fuel + 1, n => do
    match (← vertex n).content with
    | .scalar _ => refuse
    | .mapping _ =>
      flatten fuel n
      entriesOf n
    | .sequence items =>
      let parts ← items.mapM fun item => do
        if !(← isMapping item) then refuse
        flatten fuel item
        entriesOf item
      return parts.reverse.flatten

end

/-- More steps than it takes to flatten any mapping of a graph. -/
def flattenFuel (graph : Graph) : Nat :=
  let count (v : Vertex) : Nat := match v.content with
    | .mapping entries => entries.length
    | _ => 0
  3 * graph.foldl (fun n v => n + count v) 0 + 3

/-! ## Making objects -/

/-- The text of a node that stands for a scalar: a mapping has the text of its default value. A
mapping that is its own default value has none. -/
def textOf (graph : Graph) : Nat → Nat → Except Refusal String
  | 0, _ => .error .tooDeep
  | fuel + 1, n =>
    match (graph[n]?.map (·.content)).getD default with
    | .scalar text => .ok text
    | .sequence _ => .error .document
    | .mapping entries =>
      match entries.find? fun e => (graph[e.1]?).any (·.tag = .default) with
      | some e => textOf graph fuel e.2
      | none => .error .document

/-- The object of a scalar. -/
def scalar (n : Nat) (v : Vertex) : Step Object := do
  let graph := (← get).graph
  let text ← textOf graph (graph.size + 1) n
  if v.tag = .timestamp && (← isMapping n) then throw .mapAsTimestamp
  let p ← Scalar.read v.tag text
  return .leaf p (v.tag = .float && Scalar.isCommonNan text)

/-- Makes the object of a node, unless it is there; a collection gets its parts later. -/
def make (n : Nat) : Step Unit := do
  if ((← get).objects[n]?.join).isSome then return
  let v ← vertex n
  if v.tag.isScalar then put n (← scalar n v)
  else if v.tag.isCollection then
    put n (.list [])
    modify fun s => { s with later := n :: s.later }
  else refuse

/-- Whether two keys are the same. What is no number is the same as itself. -/
def sameKey (objects : Array (Option Object)) (a b : Nat) : Bool :=
  a == b || match objects[a]?.join, objects[b]?.join with
    | some (.leaf p isCommon), some (.leaf q isCommon') => p.equal q || (isCommon && isCommon')
    | _, _ => false

/-- Binds a key: in its place if the same key is there, else at the end. -/
def bind (objects : Array (Option Object)) (key value : Nat) : List (Nat × Nat) → List (Nat × Nat)
  | [] => [(key, value)]
  | e :: rest =>
    if sameKey objects e.1 key then (e.1, value) :: rest else e :: bind objects key value rest

/-- Makes the keys and values of a mapping. Only a scalar can be a key. -/
def entries (n : Nat) : Step (List (Nat × Nat)) := do
  flatten (flattenFuel (← get).graph) n
  let entry (sofar : List (Nat × Nat)) (e : Nat × Nat) : Step (List (Nat × Nat)) := do
    make e.1
    match (← get).objects[e.1]?.join with
    | some (.leaf _ _) =>
      make e.2
      return bind (← get).objects e.1 e.2 sofar
    | _ => refuse
  (← entriesOf n).foldlM entry []

/-- Makes the pair that a mapping of one entry stands for in a sequence. -/
def pair (n : Nat) : Step Nat := do
  match (← vertex n).content with
  | .mapping [(key, value)] =>
    make key
    make value
    add (.tuple key value)
  | _ => refuse

/-- Makes the parts of a collection. A collection whose tag does not fit is found out here. -/
def fill (n : Nat) : Step Unit := do
  let v ← vertex n
  match v.tag, v.content with
  | .seq, .sequence items =>
    items.forM make
    put n (.list items)
  | .map, .mapping _ => put n (.map (← entries n))
  | .set, .mapping _ => put n (.set ((← entries n).map (·.1)))
  | .omap, .sequence items | .pairs, .sequence items => put n (.list (← items.mapM pair))
  | _, _ => refuse

/-- Makes the parts of collections until none is left. There are no more rounds than nodes. -/
def fillAll : Nat → Step Unit
  | 0 => return
  | fuel + 1 => do
    let now := (← get).later.reverse
    if !now.isEmpty then
      modify fun s => { s with later := [] }
      now.forM fill
      fillAll fuel

/-- The objects of a document whose outermost node has the given number. -/
def ofGraph (root : Nat) (graph : Graph) : Except Refusal (Array (Option Object)) := do
  let all : Step Unit := do
    make root
    fillAll graph.size
  return (← all ⟨graph, Array.replicate graph.size none, []⟩).2.objects

end Object

end GraphLisp.Yaml
