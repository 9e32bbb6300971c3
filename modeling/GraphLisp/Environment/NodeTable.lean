import GraphLisp.Fault
import GraphLisp.Index
/-!
# Node tables

A node table says what each live handle of an environment stands for, and which handle a name or
an imported node belongs to. It also files every handle under the handles that its structure
mentions, so that a node in use is recognised without a search. Handles are given out in
ascending order and never twice.
-/

namespace GraphLisp

open Std

/-- The last handle that may be given out, 2^63 - 1. -/
def maxHandle : Int := 9223372036854775807

/-- What a live handle stands for. -/
inductive Cell where
  /-- A node of this environment, which may hold a structure. -/
  | plain (content : Option Structure)
  /-- The local stand-in for a node of another environment. -/
  | proxy (target : Node)
  /-- A stored statement. -/
  | triple

namespace Cell

/-- The structure that is kept at the handle itself. -/
def content : Cell → Option Structure
  | .plain content => content
  | .proxy target => some (.node target)
  | .triple => none

/-- The nodes that the handle keeps in use. -/
def mentions (c : Cell) : List Node := (c.content.map Structure.mentions).getD []

/-- The word for what a handle stands for. -/
def word : Cell → String
  | .plain _ => "node"
  | .proxy _ => "import"
  | .triple => "triple"

/-- Whether the handle is a stand-in. -/
def isProxy : Cell → Bool
  | .proxy _ => true
  | _ => false

end Cell

/-- The live handles of an environment. -/
structure NodeTable where
  cells : ExtTreeMap Int Cell
  /-- The handle of a name. -/
  names : ExtTreeMap String Int
  /-- The name of a handle. -/
  nameOf : ExtTreeMap Int String
  /-- The handles whose structure mentions a handle. -/
  referrers : Index Int Int
  /-- The stand-in for a node of another environment. -/
  imports : ExtTreeMap Node Int
  /-- The next handle to give out. -/
  next : Int

namespace NodeTable

/-- The table without handles. -/
def empty : NodeTable := ⟨∅, ∅, ∅, ∅, ∅, 0⟩

/-- Gives out the next handle, for a node that holds nothing yet. -/
def allocate (t : NodeTable) : Except Fault (Int × NodeTable) :=
  if maxHandle < t.next then .error .handlesExhausted
  else .ok (t.next, { t with cells := t.cells.insert t.next (.plain none), next := t.next + 1 })

/-- Takes away the name of a handle. -/
def unbindName (t : NodeTable) (handle : Int) : Except Fault NodeTable :=
  match t.nameOf[handle]? with
  | none => .ok t
  | some name =>
    if name ∈ t.names then
      .ok { t with names := t.names.erase name, nameOf := t.nameOf.erase handle }
    else .error .missingKey

/-- Gives a handle a name, in place of the one it had. A name belongs to one handle at a time. -/
def bindName (t : NodeTable) (handle : Int) (name : String) : Except Fault NodeTable :=
  match t.names[name]? with
  | some holder => if holder = handle then rebind else .error (.nameTaken name)
  | none => rebind
where
  /-- The name is free, or belongs to the handle already. -/
  rebind : Except Fault NodeTable := do
    let t ← t.unbindName handle
    return { t with names := t.names.insert name handle, nameOf := t.nameOf.insert handle name }

/-- Forgets which node a stand-in stands for. -/
def unbindImport (t : NodeTable) : Cell → Except Fault NodeTable
  | .proxy target =>
    if target ∈ t.imports then .ok { t with imports := t.imports.erase target }
    else .error .missingKey
  | _ => .ok t

end NodeTable

end GraphLisp
