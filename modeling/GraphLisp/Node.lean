import GraphLisp.Decimal.Limit
import Std.Data.ExtTreeMap
import Std.Data.ExtTreeSet
/-!
# Nodes

A node is named by the environment it lives in and by its handle there. Nodes are ordered by
environment, then by handle; every table keyed by nodes lists them in that order.
-/

namespace GraphLisp

/-- The handle `id` within the environment identified by `env`. -/
structure Node where
  env : Int
  id : Int
deriving DecidableEq, Inhabited

/-- Handle 0 of every environment stands for the environment itself. -/
def selfHandle : Int := 0

/-- The environment whose nodes denote environments. -/
def rootId : Int := 0

namespace Node

instance : Ord Node := ⟨compareLex (compareOn Node.env) (compareOn Node.id)⟩

instance : Std.TransOrd Node :=
  inferInstanceAs (Std.TransCmp (compareLex (compareOn Node.env) (compareOn Node.id)))

instance : Std.LawfulEqOrd Node where
  eq_of_compare {a b} h := by
    obtain ⟨henv, hid⟩ := Ordering.then_eq_eq.1 h
    have henv := Std.LawfulEqOrd.eq_of_compare henv
    have hid := Std.LawfulEqOrd.eq_of_compare hid
    cases a; cases b; simp_all

/-- The node as messages show it. -/
def shown (n : Node) : String := s!"Node<{n.env}:{n.id}>"

/-- Whether the numbers of a node can be written. -/
def isWritable (n : Node) : Bool := Decimal.isWritable n.env && Decimal.isWritable n.id

/-- The nodes in order. -/
def sort (ns : List Node) : List Node := ns.mergeSort fun a b => (compare a b).isLE

end Node

end GraphLisp
