import GraphLisp.Fault
/-!
# Nesting of structures

Structures can be compared however long their lists are, as long as these are not nested too
deeply. To tell many structures apart, the lists may not be too long either.
-/

namespace GraphLisp.Structure

/-- How deeply lists stand inside the elements of each other. -/
def nesting : Structure → Nat
  | .pair a d => max (nesting a + 1) (nesting d)
  | .proc _ body _ => nesting body + 1
  | _ => 0

/-- How deeply pairs stand inside each other. -/
def height : Structure → Nat
  | .pair a d => max (height a) (height d) + 1
  | .proc _ body _ => height body + 1
  | _ => 0

/-- How deeply lists may be nested that are compared. -/
def maxNesting : Nat := 328

/-- How high structures may be that are told apart. -/
def maxHeight : Nat := 490

/-- Compares structures, unless both are nested too deeply. -/
def compared (a b : Structure) : Except Fault Bool :=
  if maxNesting < min a.nesting b.nesting then .error .endless else .ok (a.same b)

/-- Whether a structure is too high to be told from others. -/
def isTooHigh (s : Structure) : Bool := maxHeight < s.height

/-- Structures that have to be told from others. -/
def tellable (all : List Structure) : Except Fault (List Structure) :=
  if all.any isTooHigh then .error .endless else .ok all

/-- Structures without the repetitions, unless one of them is too high. -/
def distinguished (all : List Structure) : Except Fault (List Structure) :=
  (tellable all).map distinct

end GraphLisp.Structure
