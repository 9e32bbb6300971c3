import GraphLisp.Environment.Basic
/-!
# Universes

A universe is a set of environments and is itself a graph: the environment with id 0, its root,
has a node for each of them, and the handle of that node is the environment's id. Relations
between environments are triples of the root.

Another universe may have taken over some of the environments. It is an heir then: what is done to
such an environment is done to it as a member of the heir, and both universes see it.
-/

namespace GraphLisp

open Std

/-- A universe that has taken over members of another one. It keeps the references of what it
took over, and says there which nodes are live and which denote environments. -/
structure Heir where
  /-- Which of several universes it is. -/
  index : Nat
  /-- What both universes have: each id in the other universe with the id here. -/
  shared : List (Int × Int)
  /-- The ids in the other universe of what was taken over. -/
  taken : List Int
  members : ExtTreeMap Int Environment
  references : CrossReferences

/-- An heir that sees what has become of a member of the other universe. -/
def Heir.observe (h : Heir) (id : Int) (e : Environment) : Heir :=
  match h.shared.lookup id with
  | some there => { h with members := h.members.insert there e }
  | none => h

/-- Environments by id, and the references between them. -/
structure Universe where
  members : ExtTreeMap Int Environment
  references : CrossReferences
  /-- The universes that have taken over members. -/
  heirs : List Heir

namespace Universe

/-- The universe that has nothing but an empty root. -/
def empty : Universe :=
  ⟨(∅ : ExtTreeMap Int Environment).insert rootId (.fresh rootId), ∅, []⟩

/-! ## Questions -/

/-- The environment with an id. -/
def environment (u : Universe) (id : Int) : Except Fault Environment :=
  match u.members[id]? with
  | some e => .ok e
  | none => .error (.noEnvironment id)

/-- The environment whose nodes denote environments. -/
def root (u : Universe) : Environment := u.members[rootId]?.getD (.fresh rootId)

/-- The ids of all environments in order. -/
def ids (u : Universe) : List Int := u.members.keys

/-- All environments in the order of their ids. -/
def environments (u : Universe) : List Environment := u.members.toList.map (·.2)

/-- The universe as messages show it. -/
def shown (u : Universe) : String :=
  "<MetaEnvironment envs=[" ++ ", ".intercalate (u.ids.map toString) ++ "]>"

/-- Whether a structure is a node of the root that denotes an environment. -/
def denotes (u : Universe) : Structure → Bool
  | .node n => n.env == rootId && u.members.contains n.id
  | _ => false

/-- Whether a node is live in its environment. -/
def resolves (u : Universe) (n : Node) : Bool :=
  match u.members[n.env]? with
  | some e => e.contains n
  | none => false

/-- The heir that took over a member, with the id that the member has there. -/
def heirOf (u : Universe) (id : Int) : Option (Int × Heir) :=
  u.heirs.findSome? fun h =>
    if h.taken.contains id then (h.shared.lookup id).map fun there => (there, h) else none

/-- The heir as a universe of its own. -/
def ofHeir (h : Heir) : Universe := ⟨h.members, h.references, []⟩

/-- The id of the environment that a node denotes. -/
def resolve (u : Universe) : Structure → Except Fault Int
  | .node n => if u.denotes n then .ok n.id else .error (.undenoting n)
  | s => .error (.notAnEnvironmentNode s)

/-- The node that denotes an environment. -/
def envNode (u : Universe) (id : Int) : Except Fault Node := do
  let _ ← u.environment id
  return ⟨rootId, id⟩

/-- The node of the environment with a name. -/
def findEnvironment (u : Universe) (name : String) : Option Node :=
  (u.root.lookupName name).filter fun n => u.members.contains n.id

/-- Names from every environment. -/
def names (u : Universe) : Names := fun n => u.members[n.env]?.bind fun e => e.nameOf n

/-- The triples of the root that lead from one environment to another. -/
def wormholes (u : Universe) (source : Structure) (predicate : Option Structure) :
    Except Fault (List Triple) := do
  let _ ← u.resolve source
  let ts ← u.root.ask (some source) predicate none
  return ts.filter fun t => u.members.contains t.object.id

/-- The nodes of other environments whose structure mentions a node. -/
def holders (u : Universe) (n : Node) : List Node := (u.references.bucket n).toList

/-- What an environment sees of the others. -/
def surroundings (u : Universe) (id : Int) : Surroundings where
  resolves := u.resolves
  denotes n := id == rootId && u.denotes n

/-! ## Operations -/

/-- An operation on a universe. -/
abbrev Change := EStateM Fault Universe

/-- The universe with what an operation left of the locale of a member. -/
def putBack (u : Universe) (id : Int) (l : Locale) : Universe :=
  ⟨u.members.insert id l.env, l.references, u.heirs.map (·.observe id l.env)⟩

/-- The universe with what an operation left of the locale of a member that was taken over. -/
def putBackTaken (u : Universe) (id : Int) (l : Locale) : Universe :=
  { u with
    members := u.members.insert id l.env
    heirs := u.heirs.map fun h =>
      let h := h.observe id l.env
      if h.taken.contains id then { h with references := l.references } else h }

/-- What an operation left, put back. -/
def settle {α : Type} (back : Locale → Universe) :
    EStateM.Result Fault Locale α → EStateM.Result Fault Universe α
  | .ok a l => .ok a (back l)
  | .error fault l => .error fault (back l)

/-- An operation on one of the environments. An environment that was taken over is worked on as a
member of the heir. -/
def within {α : Type} (id : Int) (op : Surroundings → Op α) : Change α := fun u =>
  match u.environment id, u.heirOf id with
  | .error fault, _ => .error fault u
  | .ok e, none => settle (u.putBack id) (op (u.surroundings id) ⟨e, u.references⟩)
  | .ok e, some (there, h) =>
    settle (u.putBackTaken id) (op ((ofHeir h).surroundings there) ⟨e, h.references⟩)

/-- A question to the universe. -/
def query {α : Type} (f : Universe → Except Fault α) : Change α := do
  match f (← get) with
  | .ok a => return a
  | .error fault => throw fault

/-- The references out of an environment, added to those that are known. -/
def wire (references : CrossReferences) (e : Environment) : CrossReferences :=
  e.foreignReferences.foldl (fun refs r => refs.file r.2 r.1) references

/-- The universe around a root, which must have the root's id. -/
def ofRoot (e : Environment) : Except Fault Universe :=
  if e.id ≠ rootId then .error .rootIdentity
  else
    let e := { e with pins := [] }
    .ok ⟨(∅ : ExtTreeMap Int Environment).insert rootId e, wire ∅ e, []⟩

/-- Takes in an environment that a node of the root denotes. -/
def attach (e : Environment) : Change Unit := do
  let u ← get
  if e.id ∈ u.members then throw (.idTaken e.id)
  if !u.root.contains (.node ⟨rootId, e.id⟩) then throw (.noRootNode e.id)
  set { u with members := u.members.insert e.id e, references := wire u.references e }

/-- Makes an environment together with the node that denotes it, and returns its id. -/
def createEnvironment (name : Option String) : Change Int := do
  let n ← within rootId fun around => Locale.createNode around name none
  attach (.fresh n.id)
  return n.id

/-- The environment with a name, which is made if need be. One that is to have no name is looked
up by the word for nothing. -/
def demandEnvironment (name : Option String) : Change Int := do
  match (← get).findEnvironment (name.getD "None") with
  | some n => query (·.resolve n)
  | none => createEnvironment name

/-- An environment that asks to be taken in. -/
inductive Applicant where
  | member (id : Int)
  | outsider (e : Environment)

/-- Takes in an environment that is still empty, and returns the node that denotes it. -/
def register (name : Option String) : Applicant → Change Node
  | .member _ => throw .registered
  | .outsider e => do
    if e.size ≠ 1 then throw .occupied
    let n ← within rootId fun around => Locale.createNode around name none
    if e.nodes.next ≠ 1 then throw .used
    attach { e with id := n.id }
    return n

/-- Relates two environments by a triple of the root. -/
def link (source predicate target : Structure) : Change Node := do
  let _ ← query (·.resolve source)
  let _ ← query (·.resolve target)
  within rootId fun _ => Locale.tell source predicate target

end Universe

end GraphLisp
