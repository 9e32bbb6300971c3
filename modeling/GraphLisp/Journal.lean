import GraphLisp.Environment.Basic
/-!
# Journals

A journal records the changes of a step, the newest first, each with the place where it was made
and with what it takes to undo it. Every entry has a label with the node in it, which is written once the
change has been made; a change is not recorded if the handle of its node is too long for that. Rolling
back undoes the changes in that order. An entry that cannot be undone is gone all the same, and the
entries before it stay.
-/

namespace GraphLisp

/-- What undoes a change. -/
inductive Undo where
  | created (n : Node)
  | restructured (n : Node) (previous : Option Structure)
  | deletedNode (n : Node) (was : Locale.Remains)
  | deletedTriple (n subject predicate object : Node)

/-- The node that a change was about. -/
def Undo.node : Undo → Node
  | .created n => n
  | .restructured n _ => n
  | .deletedNode n _ => n
  | .deletedTriple n _ _ _ => n

/-- Whether the label of an entry can be written. The ids of the environments of a universe are short. -/
@[irreducible]
def Undo.isLabelled (u : Undo) : Bool := Decimal.isWritable u.node.id

/-- Undoes a change. -/
def Undo.perform (around : Surroundings) : Undo → Op Unit
  | .created n => Locale.discard n
  | .restructured n previous => do
    let _ ← Locale.setStructure around n previous
  | .deletedNode n was => Locale.reinstateNode n was
  | .deletedTriple n s p o => Locale.reinstateTriple n s p o

/-- Changes that can be undone, the newest first. A change is made at a place `κ`. -/
abbrev Journal (κ : Type) := List (κ × Undo)

/-- Undoes every change. -/
def Journal.rollback {κ σ : Type} (perform : κ → Undo → EStateM Fault σ Unit) :
    Journal κ → σ → EStateM.Result Fault (Journal κ × σ) Unit
  | [], s => .ok () ([], s)
  | (place, undo) :: rest, s =>
    match perform place undo s with
    | .ok _ s => rollback perform rest s
    | .error fault s => .error fault (rest, s)

end GraphLisp
