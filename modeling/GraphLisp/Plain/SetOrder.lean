import GraphLisp.Plain
/-!
# The order of sets

A set lists its members as a table with open addressing holds them. The hash of a member settles
a sequence of places, and the member goes to the first one that is free. Only numbers have a hash
that is always the same, so a set with any other member is left in the order in which its members
came.
-/

namespace GraphLisp

namespace Plain

/-- Numbers are hashed modulo this prime, 2^61 - 1. -/
def hashModulus : Nat := Decimal.twoTo 61 - 1

/-- The size of a hash as a number of 64 bits, of which -1 is none. -/
def hashBits (negative : Bool) (residue : Nat) : Nat :=
  if !negative || residue = 0 then residue
  else Decimal.twoTo 64 - (if residue = 1 then 2 else residue)

/-- The hash of a number. Equal numbers have the same one, whatever their kind. -/
def hash? : Plain → Option Nat
  | .bool b => some (if b then 1 else 0)
  | .int n => some (hashBits (n < 0) (n.natAbs % hashModulus))
  | .float x =>
    let p := Decimal.Parts.ofFloat x
    if p.isFinite then
      some (hashBits p.negative
        (p.significand * Decimal.twoTo (p.power % 61).toNat % hashModulus))
    else if p.fraction = 0 then some (hashBits p.negative 314159)
    else none
  | _ => none

end Plain

/-- A table with open addressing, of which a power of two is the size. -/
abbrev ProbeTable := Array (Option Plain)

namespace ProbeTable

/-- How many places next to each other are tried at once. -/
def run : Nat := 10

/-- The least size from a power of two on that is more than a number, after so many doublings. -/
def sizeAbove (n : Nat) : Nat → Nat → Nat
  | 0, size => size
  | fuel + 1, size => if n < size then size else sizeAbove n fuel (2 * size)

/-- The table for some number of members. -/
def ofCount (count : Nat) : ProbeTable :=
  let size := if 5 * count < 21 then 8 else sizeAbove (2 * count) count 8
  Array.replicate size none

/-- The first free place of the sequence from a place on, if there is one within so many runs. -/
def freePlace? (t : ProbeTable) : Nat → Nat → Nat → Option Nat
  | 0, _, _ => none
  | fuel + 1, hash, place =>
    let tried := if place + run ≤ t.size then List.range' place run else [place]
    match tried.find? fun i => t[i]?.join.isNone with
    | some i => some i
    | none =>
      let hash := hash / 32
      freePlace? t fuel hash ((5 * place + 1 + hash) % t.size)

/-- The table with one more member. Once its hash is used up, the places go through the whole
table. -/
def insert (t : ProbeTable) (hash : Nat) (p : Plain) : ProbeTable :=
  match freePlace? t (t.size + 13) hash (hash % t.size) with
  | some i => t.setIfInBounds i (some p)
  | none => t

end ProbeTable

/-- The members of a set in the order in which the set lists them. -/
def Plain.inSetOrder (members : List Plain) : List Plain :=
  match members.mapM fun p => p.hash?.map fun hash => (hash, p) with
  | none => members
  | some hashed =>
    let table := hashed.foldl (fun t m => t.insert m.1 m.2) (ProbeTable.ofCount members.length)
    table.toList.filterMap id

end GraphLisp
