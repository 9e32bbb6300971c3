/-!
# Doubles

A finite double is m · 2^q for a significand m and a power q, both whole. `Parts.ofFloat` takes
it apart, so that everything else can be done in exact arithmetic.
-/

namespace GraphLisp.Decimal

/-- A power of two. -/
def twoTo (k : Nat) : Nat := Nat.pow 2 k

/-- A power of ten. -/
def tenTo (k : Nat) : Nat := Nat.pow 10 k

/-- The parts of a double: its sign, the code of its exponent, and its digits after the point. -/
structure Parts where
  negative : Bool
  code : Nat
  fraction : Nat

namespace Parts

/-- The parts of a double. -/
def ofFloat (x : Float) : Parts :=
  let bits := x.toBits.toNat
  ⟨bits / twoTo 63 == 1, bits / twoTo 52 % twoTo 11, bits % twoTo 52⟩

/-- Whether it is a number. -/
def isFinite (p : Parts) : Bool := p.code != 2047

/-- The significand; a digit one stands before the point unless the double is very small. -/
def significand (p : Parts) : Nat := if p.code = 0 then p.fraction else p.fraction + twoTo 52

/-- The power of two of the last place. -/
def power (p : Parts) : Int := if p.code = 0 then -1074 else Int.ofNat p.code - 1075

/-- The whole number that a double is equal to, if there is one. -/
def whole? (p : Parts) : Option Int :=
  let den := twoTo (-p.power).toNat
  let num := p.significand * twoTo p.power.toNat
  if p.isFinite && num % den == 0 then
    some (if p.negative then -Int.ofNat (num / den) else Int.ofNat (num / den))
  else none

end Parts

end GraphLisp.Decimal
