import GraphLisp.Fault
/-!
# Elements of a list

Only a proper list has elements; a chain that ends in anything else is refused.
-/

namespace GraphLisp.Structure

/-- The elements of a proper list. -/
def toList (s : Structure) : Except Fault (List Structure) :=
  match s.spine, s with
  | (items, .nil), _ => .ok items
  | _, .pair _ _ => .error (.improperList s)
  | _, _ => .error (.expectedList s)

/-- The head of a form and its arguments. -/
def splitForm (car cdr : Structure) : Except Fault (Structure × List Structure) := do
  return (car, ← cdr.toList)

end GraphLisp.Structure
