import GraphLisp.Environment.Basic
import GraphLisp.Structure.Elements
import GraphLisp.Structure.Nesting
/-!
# Regions

A region is the part of the graph that can be reached from a node along its triples.
`Environment.unfold` writes it as a nested list `(root (p1 c1) (p2 c2) …)`; what is shared in the
graph is written once for each path to it, and a cycle cannot be written at all.
`Locale.rebuild` makes a region from such a list, with new nodes for the heads.
-/

namespace GraphLisp

open Std

namespace Environment

/-- The triples that lead on from a node, in order. -/
def edges (e : Environment) (selected : Option (List Node)) (n : Node) :
    Except Fault (List Triple) := do
  let all ← e.ask (some n) none none
  match selected with
  | none => return all
  | some predicates => return all.filter fun t => predicates.contains t.predicate

/-- Unfolds a node that was reached along `path`. Every node on a path is the subject of some
triple, so as much fuel as there are subjects is never used up. -/
def unfoldFrom (e : Environment) (selected : Option (List Node)) :
    Nat → List Node → Node → Except Fault Structure
  | 0, path, n =>
    if n ∈ path then .error (.cycle n)
    else do
      let ts ← e.edges selected n
      if ts.isEmpty then return .node n else Except.error (Fault.cycle n)
  | fuel + 1, path, n =>
    if n ∈ path then .error (.cycle n)
    else do
      let ts ← e.edges selected n
      if ts.isEmpty then return .node n
      else
        let children ← ts.mapM fun t => do
          return .list [.node t.predicate, ← unfoldFrom e selected fuel (n :: path) t.object]
        return .list (.node n :: children)

/-- What the triples of an environment lead on to, each as an entry of a list. -/
def unfoldAll (e : Environment) (selected : Option (List Node)) :
    Except Fault (List Structure) := do
  let ts := (← e.tripleList).filter fun t => selected.all (·.contains t.predicate)
  ts.mapM fun t => do
    return .list [.node t.predicate, ← e.unfoldFrom selected e.triples.bySubject.size [] t.object]

/-- The region of a node as a list, along the triples with a selected predicate or along all. The
region of nothing has everything that triples lead on to. -/
def unfold (e : Environment) (root : Structure) (selected : Option (List Node)) :
    Except Fault Structure :=
  match root with
  | .node n => e.unfoldFrom selected e.triples.bySubject.size [] n
  | .nothing => do
    let children ← e.unfoldAll selected
    return if children.isEmpty then .nothing else .list (.nothing :: children)
  | s => .error (if s.isTooHigh then .endless else .badPattern s)

end Environment

/-! ## Rebuilding -/

/-- A region while it is being built. -/
structure Building where
  locale : Locale
  /-- What has been made, the newest first. -/
  created : List Node
  /-- The new node for each node that heads a list. -/
  heads : ExtTreeMap Node Node

namespace Building

/-- A step of building. -/
abbrev Step := EStateM Fault Building

/-- An operation on the environment that is built in. -/
def lift {α : Type} (op : Op α) : Step α := fun b =>
  match op b.locale with
  | .ok a l => .ok a { b with locale := l }
  | .error fault l => .error fault { b with locale := l }

/-- Notes that a node has been made. -/
def note (n : Node) : Step Unit := modify fun b => { b with created := n :: b.created }

variable (around : Surroundings)

/-- A new node. -/
def freshNode (content : Option Structure) : Step Node := do
  let n ← lift (Locale.createNode around none content)
  note n
  return n

/-- The node for the head of a list. Each node among the heads gets one new node, which holds
the same structure; a literal gets a node of its own, and so does a head that is missing. -/
def head : Structure → Step Node
  | .node n => do
    match (← get).heads[n]? with
    | some made => return made
    | none =>
      let made ← freshNode around ((← get).locale.env.content? n)
      modify fun b => { b with heads := b.heads.insert n made }
      return made
  | s@(.pair _ _) => throw (.regionHead s)
  | s => freshNode around s.given?

/-- The node of a predicate, which may be given by name. -/
def predicate : Structure → Step Node
  | .node n => return n
  | .sym name => do
    match (← get).locale.env.lookupName name with
    | some n => return n
    | none => throw (.noNodeNamed name)
  | s => throw (.notAPredicate s)

mutual

/-- The node of a structure: a node stands for itself, a list is built, and a literal gets a
node that holds it. -/
def build : Structure → Step Node
  | .node n => return n
  | .pair car cdr => do
    let made ← head around car
    buildEntries (.pair car cdr) made cdr
    return made
  | .nothing => throw .regionOfNothing
  | s => freshNode around (some s)

/-- Adds a triple to a head for each entry of a list. -/
def buildEntries (whole : Structure) (made : Node) : Structure → Step Unit
  | .pair (.pair p (.pair child .nil)) rest => do
    let relation ← predicate p
    let value ← build child
    let (n, new) ← lift (Locale.insertTriple made relation value)
    if new then note n
    buildEntries whole made rest
  | .pair entry _ => throw (.regionEntry entry)
  | .nil => return
  | _ => throw (.improperRegion whole)

end

/-- What building comes to before anything is made after the first node. -/
def first : Structure → Step Node
  | .pair car _ => head around car
  | s => build around s

end Building

namespace Locale

/-- Removes nodes in turn. -/
def discardAll : List Node → Op Unit
  | [] => return
  | n :: rest => do
    discard n
    discardAll rest

/-- Makes the region that a structure describes. What was made stays even if that fails; it is
returned with the root or the failure, the newest first. -/
def raise (around : Surroundings) (s : Structure) : Op (Except Fault Node × List Node) := fun l =>
  match Building.build around s ⟨l, [], ∅⟩ with
  | .ok n b => .ok (.ok n, b.created) b.locale
  | .error fault b => .ok (.error fault, b.created) b.locale

/-- Makes the region that a structure describes for a journal that is given what was made, the newest first. Nothing
can be recorded if nothing writes the environment's id; then making stops at the first node. -/
def raiseRecorded (around : Surroundings) (s : Structure) : Op (Except Fault Node × List Node) := fun l =>
  if Decimal.isWritable l.env.id then raise around s l
  else match Building.first around s ⟨l, [], ∅⟩ with
    | .ok n b => .ok (if b.created.isEmpty then .ok n else .error (.numeral none), []) b.locale
    | .error fault b => .ok (.error fault, []) b.locale

/-- Makes the region that a structure describes, and returns its root. If that fails, what was
made is removed again. -/
def rebuild (around : Surroundings) (s : Structure) : Op Node := do
  match ← raise around s with
  | (.ok n, _) => return n
  | (.error fault, created) =>
    discardAll created
    throw fault

end Locale

end GraphLisp
