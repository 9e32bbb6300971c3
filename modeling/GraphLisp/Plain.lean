import GraphLisp.Decimal.Limit
import GraphLisp.Moment
import GraphLisp.Text.Surrogate
/-!
# Plain data

What a snapshot is made of once its text has been read: numbers, texts, lists and maps. Maps
keep their entries in the order in which the keys first came. A text may also hold values that
no snapshot is made of: moments, bytes, tuples and sets, and values that contain themselves.

A value that contains itself is a knot. It is told from others by its label, and stands inside
itself as a loop that leads to the knot around it with that label. `Plain.opened` puts the knot in
for the loops, so that the parts of a knot can be taken out of it.
-/

namespace GraphLisp

/-- What can contain itself. -/
inductive Shape where
  | list
  | map
  | tuple
deriving DecidableEq

/-- Plain data. A map may have any scalar as a key. -/
inductive Plain where
  | null
  | bool (b : Bool)
  | int (n : Int)
  | float (x : Float)
  | text (s : String)
  | list (items : List Plain)
  | map (entries : List (Plain × Plain))
  | moment (m : Moment)
  | bytes (bs : List UInt8)
  | tuple (items : List Plain)
  | set (members : List Plain)
  /-- A value with loops inside. -/
  | knot (label : Nat) (content : Plain)
  /-- The knot around this place with a label, which contains itself here. -/
  | loop (label : Nat) (shape : Shape)
deriving Inhabited

namespace Plain

/-- A map from texts. -/
def object (fields : List (String × Plain)) : Plain := .map (fields.map fun f => (.text f.1, f.2))

/-- The whole number that a scalar is equal to; `true` is equal to 1 and `false` to 0. -/
def number? : Plain → Option Int
  | .bool b => some (if b then 1 else 0)
  | .int n => some n
  | .float x => (Decimal.Parts.ofFloat x).whole?
  | _ => none

/-- Equality of scalars. Numbers are compared by value, whatever their kind. -/
def equal : Plain → Plain → Bool
  | .null, .null => true
  | .text s, .text t => s == t
  | .float x, .float y => x == y
  | .moment m, .moment n => m.same n
  | .bytes bs, .bytes cs => bs == cs
  | a, b =>
    match a.number?, b.number? with
    | some m, some n => m == n
    | _, _ => false

/-- Whether there is nothing in a value: null, zero, or anything empty. -/
def isVoid : Plain → Bool
  | .null | .bool false | .int 0 | .text "" | .list [] | .map [] => true
  | .bytes [] | .tuple [] | .set [] => true
  | .float x => x == 0
  | _ => false

/-! ## Knots -/

/-- Knots by label. -/
abbrev Knots := List (Nat × Plain)

mutual

/-- A value with knots put in for the loops that lead to them. -/
def close (knots : Knots) : Plain → Plain
  | .loop label shape => (knots.lookup label).getD (.loop label shape)
  | .knot label content => .knot label (content.close knots)
  | .list items => .list (closeItems knots items)
  | .tuple items => .tuple (closeItems knots items)
  | .map entries => .map (closeEntries knots entries)
  | p => p

/-- The items of a list with knots put in for loops. -/
def closeItems (knots : Knots) : List Plain → List Plain
  | [] => []
  | p :: rest => p.close knots :: closeItems knots rest

/-- The entries of a map with knots put in for loops. -/
def closeEntries (knots : Knots) : List (Plain × Plain) → List (Plain × Plain)
  | [] => []
  | (k, p) :: rest => (k, p.close knots) :: closeEntries knots rest

end

/-- A knot as the value with that label, whose parts stand on their own. Any other value is left
as it is. -/
def opened : Plain → Plain
  | .knot label content => content.close [(label, .knot label content)]
  | p => p

/-! ## Parts -/

/-- What a value lists, if it lists anything: the items of a list, the letters of a text, the
keys of a map. -/
def listed? (p : Plain) : Option (List Plain) :=
  match p.opened with
  | .list items | .tuple items | .set items => some items
  | .text s => some ((Text.lettersOf s).map fun l => .text (String.ofList l.spell))
  | .map entries => some (entries.map (·.1))
  | .bytes bs => some (bs.map fun b => .int b.toNat)
  | _ => none

/-- The value under a text key. -/
def find? (entries : List (Plain × Plain)) (key : String) : Option Plain :=
  (entries.find? fun e => match e.1 with | .text k => k == key | _ => false).map (·.2)

/-- Binds a key: in its place if the map has an equal key, else at the end. -/
def put (key value : Plain) : List (Plain × Plain) → List (Plain × Plain)
  | [] => [(key, value)]
  | e :: rest => if e.1.equal key then (e.1, value) :: rest else e :: put key value rest

mutual

/-- How many lists, tuples and maps stand inside each other. -/
def depth : Plain → Nat
  | .list items | .tuple items => depthOfItems items + 1
  | .map entries => depthOfEntries entries + 1
  | .knot _ content => content.depth
  | _ => 0

/-- The greatest depth among items. -/
def depthOfItems : List Plain → Nat
  | [] => 0
  | p :: rest => max p.depth (depthOfItems rest)

/-- The greatest depth among the values of entries. -/
def depthOfEntries : List (Plain × Plain) → Nat
  | [] => 0
  | (_, p) :: rest => max p.depth (depthOfEntries rest)

end

mutual

/-- Whether every number in a value can be written. -/
def isWritable : Plain → Bool
  | .int n => Decimal.isWritable n
  | .list items | .tuple items | .set items => areWritable items
  | .map entries => haveWritable entries
  | .knot _ content => content.isWritable
  | _ => true

/-- Whether every number in the items of a list can be written. -/
def areWritable : List Plain → Bool
  | [] => true
  | p :: rest => p.isWritable && areWritable rest

/-- Whether every number in the entries of a map can be written. -/
def haveWritable : List (Plain × Plain) → Bool
  | [] => true
  | (k, p) :: rest => k.isWritable && p.isWritable && haveWritable rest

end

end Plain

end GraphLisp
