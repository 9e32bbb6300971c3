import GraphLisp.Environment.NodeTable
import GraphLisp.Environment.TripleStore
/-!
# Environments

An environment is a graph of nodes and triples under one id. Its handle 0 is there from the
start and stands for the environment itself. Nodes come to its operations as structures, since a
program may pass anything: what is no live node of the environment is refused.

An operation works on a `Locale`: the environment, and the index of references between
environments that it shares with others. Failing does not by itself undo anything; operations
check first and change afterwards.
-/

namespace GraphLisp

open Std

/-- For each node, the nodes of other environments whose structure mentions it. -/
abbrev CrossReferences := Index Node Node

/-- A graph of nodes and triples. -/
structure Environment where
  id : Int
  nodes : NodeTable
  triples : TripleStore
  /-- Nodes that may not be deleted, whoever uses them. -/
  pins : List Node

namespace Environment

/-- The environment without any node. -/
def blank (id : Int) : Environment := ⟨id, .empty, .empty, []⟩

/-- A new environment, with its self node only. -/
def fresh (id : Int) : Environment :=
  { blank id with
    nodes := { NodeTable.empty with
      cells := NodeTable.empty.cells.insert selfHandle (.plain none)
      next := 1 } }

/-- The node of a handle. -/
def node (e : Environment) (handle : Int) : Node := ⟨e.id, handle⟩

/-- The node that stands for the environment itself. -/
def selfNode (e : Environment) : Node := e.node selfHandle

/-- How many handles are live. -/
def size (e : Environment) : Nat := e.nodes.cells.size

/-- How many triples there are. -/
def tripleCount (e : Environment) : Nat := e.triples.statements.size

/-- The environment as messages show it. -/
def shown (e : Environment) : String :=
  s!"<Environment id={e.id} nodes={e.size} triples={e.tripleCount}>"

/-! ## Questions -/

/-- The node that a structure is, if it is a live node of the environment. -/
def resident (e : Environment) : Structure → Except Fault Node
  | .node n =>
    if n.env ≠ e.id then .error (.foreign n e.id)
    else if n.id ∈ e.nodes.cells then .ok n
    else .error (.absent n e.id)
  | s => .error (.notANode s)

/-- Whether a structure is a live node of the environment. -/
def contains (e : Environment) : Structure → Bool
  | .node n => n.env == e.id && e.nodes.cells.contains n.id
  | _ => false

/-- What a handle stands for; it is bound to be live. -/
def cell (e : Environment) (handle : Int) : Except Fault Cell :=
  match e.nodes.cells[handle]? with
  | some c => .ok c
  | none => .error .missingKey

/-- The statement of a handle; it is bound to have one. -/
def statement (e : Environment) (handle : Int) : Except Fault Statement :=
  match e.triples.statements[handle]? with
  | some st => .ok st
  | none => .error .missingKey

/-- The triple of a handle. -/
def triple (e : Environment) (handle : Int) : Except Fault Triple := do
  let st ← e.statement handle
  return ⟨e.node handle, e.node st.subject, e.node st.predicate, e.node st.object⟩

/-- What a node means: its structure, or itself if it holds none. A triple means its relation. -/
def getStructure (e : Environment) (s : Structure) : Except Fault Structure := do
  let n ← e.resident s
  match ← e.cell n.id with
  | .triple => return (← e.triple n.id).toStructure
  | c => return c.content.getD (.node n)

/-- Whether a structure is kept at the node itself. -/
def hasStructure (e : Environment) (s : Structure) : Except Fault Bool := do
  let n ← e.resident s
  return (← e.cell n.id).content.isSome

/-- What is kept at a node, if it is a node of the environment and holds anything. -/
def content? (e : Environment) (n : Node) : Option Structure :=
  if n.env = e.id then e.nodes.cells[n.id]?.bind (·.content) else none

/-- The node with a name. -/
def lookupName (e : Environment) (name : String) : Option Node := e.nodes.names[name]?.map e.node

/-- The name of a node. -/
def nameOf (e : Environment) : Structure → Option String
  | .node n => if n.env = e.id then e.nodes.nameOf[n.id]? else none
  | _ => none

/-- All nodes in order. -/
def nodeList (e : Environment) : List Node := e.nodes.cells.keys.map e.node

/-- The stand-in for a node of another environment. -/
def imported (e : Environment) : Structure → Option Node
  | .node n => e.nodes.imports[n]?.map e.node
  | _ => none

/-- Whether a node is a stand-in. -/
def isImport (e : Environment) (s : Structure) : Except Fault Bool := do
  let n ← e.resident s
  return (← e.cell n.id).isProxy

/-- The triple that a node denotes, if it denotes one. -/
def tripleOf (e : Environment) (s : Structure) : Except Fault (Option Triple) := do
  let n ← e.resident s
  match ← e.cell n.id with
  | .triple => some <$> e.triple n.id
  | _ => return none

/-- All triples in order. -/
def tripleList (e : Environment) : Except Fault (List Triple) :=
  e.triples.statements.keys.mapM e.triple

/-- A part of a pattern: `none` is a node that is not live, `some none` a wildcard. -/
def patternPart (e : Environment) : Option Structure → Except Fault (Option (Option Int))
  | none => .ok (some none)
  | some (.node n) =>
    if n.env ≠ e.id then .error (.foreign n e.id)
    else if n.id ∈ e.nodes.cells then .ok (some (some n.id))
    else .ok none
  | some s => .error (.badPattern s)

/-- The triples that match a pattern, in order. The parts are looked at in turn: the first one
that is not live settles that nothing matches. -/
def ask (e : Environment) (subject predicate object : Option Structure) :
    Except Fault (List Triple) := do
  let some s ← e.patternPart subject | return []
  let some p ← e.patternPart predicate | return []
  let some o ← e.patternPart object | return []
  (e.triples.select s p o).mapM e.triple

/-- The triples that use a node in any place, in order. -/
def askAny (e : Environment) (s : Structure) : Except Fault (List Triple) := do
  let n ← e.resident s
  (e.triples.involving n.id).mapM e.triple

/-- Every holder with every node of another environment that it mentions. -/
def foreignReferences (e : Environment) : List (Node × Node) :=
  e.nodes.cells.toList.flatMap fun (handle, c) =>
    (c.mentions.filter (·.env ≠ e.id)).map fun target => (e.node handle, target)

end Environment

/-! ## Locales -/

/-- What an operation sees beyond its environment. -/
structure Surroundings where
  /-- Whether a node of another environment is live. -/
  resolves : Node → Bool
  /-- Whether a node denotes an environment in use. -/
  denotes : Node → Bool

/-- An environment on its own: foreign nodes are not looked into. -/
def Surroundings.alone : Surroundings := ⟨fun _ => true, fun _ => false⟩

/-- An environment, and the references between it and others. -/
structure Locale where
  env : Environment
  references : CrossReferences

/-- An operation on an environment in its locale. -/
abbrev Op := EStateM Fault Locale

namespace Locale

/-- Files that the structure at a handle mentions a node. -/
def refer (l : Locale) (handle : Int) (target : Node) : Locale :=
  if target.env = l.env.id then
    { l with env.nodes.referrers := l.env.nodes.referrers.file target.id handle }
  else { l with references := l.references.file target (l.env.node handle) }

/-- Takes back that the structure at a handle mentions a node. -/
def unrefer (l : Locale) (handle : Int) (target : Node) : Locale :=
  if target.env = l.env.id then
    { l with env.nodes.referrers := l.env.nodes.referrers.withdraw target.id handle }
  else { l with references := l.references.withdraw target (l.env.node handle) }

/-- Takes back everything that the structure at a handle mentions. -/
def release (l : Locale) (handle : Int) : Locale :=
  match l.env.nodes.cells[handle]? with
  | none => l
  | some c => c.mentions.foldl (·.unrefer handle) l

/-- Puts something new at a handle. -/
def hold (l : Locale) (handle : Int) (c : Cell) : Locale :=
  let l := l.release handle
  c.mentions.foldl (·.refer handle)
    { l with env.nodes.cells := l.env.nodes.cells.insert handle c }

/-- Removes a handle with its name and whatever it keeps in use. -/
def discardHandle (l : Locale) (handle : Int) : Except Fault Locale := do
  let c ← l.env.cell handle
  let nodes ← l.env.nodes.unbindImport c
  let l := { l with env.nodes := nodes }.release handle
  let nodes ← l.env.nodes.unbindName handle
  return { l with env.nodes := { nodes with cells := nodes.cells.erase handle } }

/-! ## Steps of operations -/

/-- A question to the environment. -/
def query {α : Type} (f : Environment → Except Fault α) : Op α := do
  match f (← get).env with
  | .ok a => return a
  | .error fault => throw fault

/-- A change of the node table that returns something. -/
def onNodes {α : Type} (f : NodeTable → Except Fault (α × NodeTable)) : Op α := do
  match f (← get).env.nodes with
  | .ok (a, nodes) =>
    modify fun l => { l with env.nodes := nodes }
    return a
  | .error fault => throw fault

/-- An operation on the triple store. -/
def onTriples {α : Type} (change : TripleStore.Change α) : Op α := fun l =>
  match change l.env.triples with
  | .ok a triples => .ok a { l with env.triples := triples }
  | .error fault triples => .error fault { l with env.triples := triples }

/-- Removes a handle. -/
def drop (handle : Int) : Op Unit := do
  match (← get).discardHandle handle with
  | .ok l => set l
  | .error fault => throw fault

/-- Gives a handle a name. -/
def name (handle : Int) (name : String) : Op Unit :=
  onNodes fun t => return ((), ← t.bindName handle name)

/-- Gives out the next handle. -/
def allocate : Op Int := onNodes NodeTable.allocate

/-- A structure may only mention live nodes of other environments. -/
def checkForeign (around : Surroundings) (content : Option Structure) : Op Unit := do
  let home := (← get).env.id
  let mentioned := (content.map Structure.mentions).getD []
  match mentioned.find? fun n => n.env ≠ home && !around.resolves n with
  | some n => throw (.unresolvable n)
  | none => return

/-- A structure may only mention live nodes of this environment. -/
def checkLocal (content : Option Structure) : Op Unit := do
  let e := (← get).env
  let mentioned := (content.map Structure.mentions).getD []
  match mentioned.find? fun n => n.env == e.id && !e.nodes.cells.contains n.id with
  | some n => throw (.absentMention n)
  | none => return

/-- Only a node that nothing uses may be deleted. -/
def checkUnused (around : Surroundings) (n : Node) : Op Unit := do
  let l ← get
  if n.id = selfHandle then throw (.selfNode n)
  let users := l.env.triples.involving n.id
  if !users.isEmpty then throw (.usedByTriples n users.length)
  let holders := l.env.nodes.referrers.bucket n.id
  if !holders.isEmpty then throw (.usedByNodes n holders.size)
  let outside := l.references.bucket n
  if !outside.isEmpty then throw (.usedElsewhere n outside.toList)
  if l.env.pins.contains n || around.denotes n then throw (.pinned n)

/-! ## Operations -/

/-- Makes a node, which may have a name and hold a structure. -/
def createNode (around : Surroundings) (name : Option String) (content : Option Structure) :
    Op Node := do
  checkForeign around content
  let taken := (← get).env.nodes.names
  if let some n := name.filter (· ∈ taken) then throw (.nameTaken n)
  checkLocal content
  let handle ← allocate
  if let some n := name then Locale.name handle n
  modify (·.hold handle (.plain content))
  return (← get).env.node handle

/-- Replaces the structure of a node, and returns the one it held. -/
def setStructure (around : Surroundings) (s : Structure) (content : Option Structure) :
    Op (Option Structure) := do
  checkForeign around content
  let n ← query (·.resident s)
  match ← query (·.cell n.id) with
  | .triple => throw (.contentOfTriple n)
  | .proxy _ => throw (.contentOfImport n)
  | .plain previous =>
    checkLocal content
    modify (·.hold n.id (.plain content))
    return previous

/-- Gives a node another name, or takes its name away, and returns the one it had. -/
def rename (s : Structure) (name : Option String) : Op (Option String) := do
  let n ← query (·.resident s)
  let previous := (← get).env.nodes.nameOf[n.id]?
  match name with
  | none => onNodes fun t => return ((), ← t.unbindName n.id)
  | some name => Locale.name n.id name
  return previous

/-- What a deleted node was. -/
structure Remains where
  name : Option String
  cell : Cell

/-- Deletes a node that nothing uses. -/
def deleteNode (around : Surroundings) (s : Structure) : Op Remains := do
  let n ← query (·.resident s)
  match ← query (·.cell n.id) with
  | .triple => throw (.tripleAsNode n)
  | c =>
    checkUnused around n
    let name := (← get).env.nodes.nameOf[n.id]?
    drop n.id
    return ⟨name, c⟩

/-- The stand-in for a node of another environment, and whether it is new. -/
def importNode (around : Surroundings) : Structure → Op (Node × Bool)
  | .node target => do
    let e := (← get).env
    if target.env = e.id then throw (.importOfLocal target)
    checkForeign around (some target)
    match e.nodes.imports[target]? with
    | some handle => return (e.node handle, false)
    | none =>
      let handle ← allocate
      modify fun l => { l with env.nodes.imports := l.env.nodes.imports.insert target handle }
      modify (·.hold handle (.proxy target))
      return (e.node handle, true)
  | s => throw (.importOfNoNode s)

/-- The node of a triple, and whether it is new. -/
def insertTriple (subject predicate object : Structure) : Op (Node × Bool) := do
  let s ← query (·.resident subject)
  let p ← query (·.resident predicate)
  let o ← query (·.resident object)
  let st : Statement := ⟨s.id, p.id, o.id⟩
  let e := (← get).env
  match e.triples.find? st with
  | some handle => return (e.node handle, false)
  | none =>
    let handle ← allocate
    modify fun l => { l with
      env.nodes.cells := l.env.nodes.cells.insert handle .triple
      env.triples := l.env.triples.insert handle st }
    return (e.node handle, true)

/-- The node of a triple, which is made unless it is there. -/
def tell (subject predicate object : Structure) : Op Node := do
  return (← insertTriple subject predicate object).1

/-- Deletes a triple that nothing uses, and returns the relation it was. -/
def deleteTriple (around : Surroundings) (s : Structure) : Op (Node × Node × Node) := do
  let n ← query (·.resident s)
  match ← query (·.cell n.id) with
  | .triple =>
    checkUnused around n
    let st ← onTriples (TripleStore.remove n.id)
    drop n.id
    let e := (← get).env
    return (e.node st.subject, e.node st.predicate, e.node st.object)
  | _ => throw (.notATriple n)

/-! ## Taking operations back -/

/-- Removes a node or a triple that a failed step made. -/
def discard (n : Node) : Op Unit := do
  let n ← query (·.resident n)
  match ← query (·.cell n.id) with
  | .triple => do
    let _ ← onTriples (TripleStore.remove n.id)
    drop n.id
  | _ => drop n.id

/-- A handle can only come back while it is not live. -/
def checkGone (n : Node) : Op Unit := do
  if n.id ∈ (← get).env.nodes.cells then throw (.live n)

/-- Brings a deleted node back under its handle. -/
def reinstateNode (n : Node) (was : Remains) : Op Unit := do
  checkGone n
  if let .proxy target := was.cell then
    modify fun l => { l with env.nodes.imports := l.env.nodes.imports.insert target n.id }
  modify (·.hold n.id was.cell)
  if let some name := was.name then Locale.name n.id name

/-- Brings a deleted triple back under its handle. -/
def reinstateTriple (n : Node) (s p o : Node) : Op Unit := do
  checkGone n
  modify fun l => { l with
    env.nodes.cells := l.env.nodes.cells.insert n.id .triple
    env.triples := l.env.triples.insert n.id ⟨s.id, p.id, o.id⟩ }

end Locale

end GraphLisp
