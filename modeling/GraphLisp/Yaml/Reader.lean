import GraphLisp.Plain.SetOrder
import GraphLisp.Yaml.Object
/-!
# Reading YAML

`Yaml.parse` reads the one document of a text as plain data: the objects of the document are
unfolded from the outermost one on. An object that is met again inside itself is a loop.
-/

namespace GraphLisp.Yaml

namespace Object

/-- Plain data, and whether there are loops inside. -/
abbrev Unfolded := Plain × Bool

/-- The objects that have been unfolded, by number. Only those without loops are kept, since they
are the same wherever they stand. -/
abbrev Known := Array (Option Plain)

/-- What an object is as a value that contains itself. -/
def shape : Object → Shape
  | .map _ => .map
  | .tuple _ _ => .tuple
  | _ => .list

variable (objects : Array (Option Object))

/-- Plain data from the parts of an object. -/
def combine (made : List Plain → Plain) (parts : List Unfolded) : Unfolded :=
  (made (parts.map (·.1)), parts.any (·.2))

/-- Unfolds the object with a number inside of others. These are distinct, so that as much fuel as
there are objects is never used up. -/
def unfold : Nat → List Nat → Nat → StateM Known Unfolded
  | 0, _, n => return (.loop n .list, true)
  | fuel + 1, around, n => do
    let o := (objects[n]?.join).getD (.leaf .null false)
    if around.contains n then return (.loop n o.shape, true)
    else if let some p := (← get)[n]?.join then return (p, false)
    else
      let inner := unfold fuel (n :: around)
      let (p, hasLoops) ← match o with
        | .leaf p _ => pure (p, false)
        | .list items => combine .list <$> items.mapM inner
        | .set members => combine (fun ps => .set (Plain.inSetOrder ps)) <$> members.mapM inner
        | .tuple a b => combine .tuple <$> [a, b].mapM inner
        | .map entries => do
          let keys ← entries.mapM fun e => inner e.1
          let values ← entries.mapM fun e => inner e.2
          pure (combine (fun ps => .map ((keys.map (·.1)).zip ps)) values)
      if hasLoops then return (.knot n p, true)
      else
        modify (·.setIfInBounds n (some p))
        return (p, false)

/-- The plain data of an object. -/
def plain (n : Nat) : Plain :=
  (unfold objects (objects.size + 1) [] n (Array.replicate objects.size none)).1.1

end Object

/-- The value of the document in a text; nothing at all counts as null. -/
def parse (s : String) : Except Refusal Plain := do
  match ← Graph.ofTokens (Token.scan s) with
  | (none, _) => return .null
  | (some root, graph) => return Object.plain (← Object.ofGraph root graph) root

end GraphLisp.Yaml
