import Mathlib.Data.List.Perm.Basic
import GraphLisp.Proofs.Payload
/-!
# Nodes in payloads

The nodes that a structure mentions are those whose payloads occur in its payload, each as often
(`Structure.mentions_perm`). Reading the payload back does not even change their order.
-/

namespace GraphLisp

namespace Plain

mutual

/-- The nodes whose payloads occur in a value, each as often as its payload does. -/
def nodes : Plain → List Node
  | .map [(.text "node", .list [.int env, .int id])] => [⟨env, id⟩]
  | .list items => nodesOfItems items
  | .map entries => nodesOfEntries entries
  | _ => []

/-- The nodes whose payloads occur in the items of a list. -/
def nodesOfItems : List Plain → List Node
  | [] => []
  | p :: rest => nodes p ++ nodesOfItems rest

/-- The nodes whose payloads occur in the values of entries. -/
def nodesOfEntries : List (Plain × Plain) → List Node
  | [] => []
  | (_, p) :: rest => nodes p ++ nodesOfEntries rest

end

theorem nodesOfItems_eq (items : List Plain) : nodesOfItems items = items.flatMap nodes := by
  induction items with
  | nil => rfl
  | cons p rest ih => rw [nodesOfItems, ih, List.flatMap_cons]

theorem nodes_texts (names : List String) : nodes (.list (names.map .text)) = [] := by
  rw [nodes, nodesOfItems_eq, List.flatMap_map, List.flatMap_eq_nil_iff]
  intro name _
  rfl

end Plain

namespace Structure

open Plain

theorem nodes_bindingEntry (b : String × Structure) : (bindingEntry b).nodes = b.2.encode.nodes :=
  List.append_nil _

theorem nodes_pair (car cdr : Structure) : (encode (.pair car cdr)).nodes = car.encode.nodes ++ cdr.encode.nodes := by
  change (car.encode.nodes ++ (cdr.encode.nodes ++ [])) ++ [] = _
  rw [List.append_nil, List.append_nil]

theorem nodes_proc (params : List String) (body : Structure) (scope : Scope Structure) :
    (encode (.proc params body scope)).nodes =
      body.encode.nodes ++ scope.flatten.flatMap fun b => b.2.encode.nodes := by
  rw [encode_proc]
  change (Plain.nodes (.list (params.map .text)) ++ (body.encode.nodes ++
    (Plain.nodes (.list (scope.flatten.map bindingEntry)) ++ []))) ++ [] = _
  rw [nodes_texts, Plain.nodes, nodesOfItems_eq, List.flatMap_map, List.nil_append, List.append_nil, List.append_nil]
  simp only [nodes_bindingEntry]

/-- The nodes that a structure mentions, with repetitions, are those in its payload. -/
theorem mentions_perm (s : Structure) : s.mentions.Perm s.encode.nodes := by
  induction s using induct with
  | pair car cdr ihcar ihcdr =>
    rw [mentions, nodes_pair]
    exact ihcar.append ihcdr
  | proc params body scope ihbody ihscope =>
    -- the body comes last among the mentioned nodes and first in the payload, and the bindings are reversed
    rw [mentions_proc, nodes_proc]
    refine List.perm_append_comm.trans (ihbody.append ?_)
    refine ((List.reverse_perm _).flatMap_right _).trans (List.Perm.flatMap_left _ fun b hb => ?_)
    obtain ⟨level, hl, hb⟩ := Scope.mem_flatten hb
    exact ihscope level hl b hb
  | _ => exact .refl _

end Structure

end GraphLisp
