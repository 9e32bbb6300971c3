import GraphLisp.Node
import GraphLisp.Scope
/-!
# Structures

A structure is what a node may hold and what a program is written in: an atom, the empty list, a
node, a pair, or a procedure with the scope it was made in. A list is a chain of pairs; it is
proper if the chain ends in the empty list. Where a name is bound to nothing, evaluating it gives
`Structure.nothing`, which can be passed on and can become a part of pairs, but which no node
holds and no snapshot keeps; a structure without such parts is whole.

`Structure.same` is the equality of programs: it looks at everything but the scopes of
procedures. `Structure.mentions` lists the nodes that a structure keeps in use.
-/

namespace GraphLisp

/-- Programs and data. -/
inductive Structure where
  | int (n : Int)
  | bool (b : Bool)
  | str (s : String)
  | sym (name : String)
  | nil
  | node (n : Node)
  | pair (car cdr : Structure)
  | proc (params : List String) (body : Structure) (scope : List (List (String × Structure)))
  /-- The value of what is bound to nothing. -/
  | nothing
deriving Inhabited

namespace Structure

instance : Coe Node Structure := ⟨.node⟩

/-- The structure, if it is one. -/
def given? : Structure → Option Structure
  | .nothing => none
  | s => some s

/-! ## Lists -/

/-- The elements of a chain of pairs, and what the chain ends in. -/
def spine : Structure → List Structure × Structure
  | .pair a d => let (xs, tail) := spine d; (a :: xs, tail)
  | s => ([], s)

/-- A chain of pairs holding `items` and ending in `tail`. -/
def chain (items : List Structure) (tail : Structure) : Structure := items.foldr .pair tail

/-- A proper list. -/
def list (items : List Structure) : Structure := chain items .nil

/-- A proper list is a chain of pairs that ends in the empty list. -/
def isList (s : Structure) : Bool :=
  match s.spine.2 with
  | .nil => true
  | _ => false

/-- Atoms have no parts. -/
def isAtom : Structure → Bool
  | .int _ | .bool _ | .str _ | .sym _ | .nil => true
  | _ => false

/-- Only the empty list and `false` count as false. -/
def truthy : Structure → Bool
  | .nil | .bool false => false
  | _ => true

/-! ## Equality -/

/-- Equality of structures, the scopes of procedures left aside. -/
def same : Structure → Structure → Bool
  | .int m, .int n => m == n
  | .bool b, .bool c => b == c
  | .str s, .str t => s == t
  | .sym s, .sym t => s == t
  | .nil, .nil | .nothing, .nothing => true
  | .node m, .node n => m == n
  | .pair a d, .pair a' d' => same a a' && same d d'
  | .proc ps body _, .proc qs body' _ => ps == qs && same body body'
  | _, _ => false

/-- Structures without the repetitions, the last of equal ones kept. -/
def distinct : List Structure → List Structure
  | [] => []
  | s :: rest =>
    let kept := distinct rest
    if kept.any s.same then kept else s :: kept

/-! ## Mentioned nodes -/

mutual

/-- Every node in a structure, as often as it occurs. A procedure mentions the nodes in its
visible bindings, the last binding first, and then those in its body. -/
def mentions : Structure → List Node
  | .node n => [n]
  | .pair a d => mentions a ++ mentions d
  | .proc _ body scope =>
    (Scope.flatten (mentionsScope scope)).reverse.flatMap (·.2) ++ mentions body
  | _ => []

/-- The nodes mentioned by each value of a scope. -/
def mentionsScope : List (List (String × Structure)) → Scope (List Node)
  | [] => []
  | level :: outer => mentionsLevel level :: mentionsScope outer

/-- The nodes mentioned by each value of a level. -/
def mentionsLevel : List (String × Structure) → Level (List Node)
  | [] => []
  | (name, s) :: rest => (name, mentions s) :: mentionsLevel rest

end

/-! ## Whole structures -/

mutual

/-- Whether nothing is missing in a structure, the bindings included that are visible in the
scopes of its procedures. -/
def isWhole : Structure → Bool
  | .nothing => false
  | .pair a d => isWhole a && isWhole d
  | .proc _ body scope => (Scope.flatten (wholeScope scope)).all (·.2) && isWhole body
  | _ => true

/-- Which values of a scope are whole. -/
def wholeScope : List (List (String × Structure)) → Scope Bool
  | [] => []
  | level :: outer => wholeLevel level :: wholeScope outer

/-- Which values of a level are whole. -/
def wholeLevel : List (String × Structure) → Level Bool
  | [] => []
  | (name, s) :: rest => (name, isWhole s) :: wholeLevel rest

end

end Structure

/-! ## Triples -/

/-- A stored relation between three nodes, and the node that denotes it. -/
structure Triple where
  node : Node
  subject : Node
  predicate : Node
  object : Node
deriving DecidableEq

/-- The relation as a list. -/
def Triple.toStructure (t : Triple) : Structure :=
  .list [.node t.subject, .node t.predicate, .node t.object]

end GraphLisp
