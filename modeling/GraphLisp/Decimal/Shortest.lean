import GraphLisp.Decimal.Double
/-!
# Shortest decimals

`shortest m q` is the decimal with the fewest digits that reads back as the double m · 2^q, and
of those the nearest one. All comparisons are made in exact arithmetic on the interval of reals that
round to the double; its ends belong to it iff m is even.
-/

namespace GraphLisp.Decimal

/-- The decimal digits · 10^exponent. -/
structure Expansion where
  digits : Nat
  exponent : Int
deriving DecidableEq

/-- A double m · 2^q with its rounding interval, all in quarters of the last place: the double is
4m, and it is rounded to from everything between `low` and `high`. -/
structure Interval where
  value : Nat
  low : Nat
  high : Nat
  closed : Bool
  /-- A quarter of the last place is 2^power. -/
  power : Int

/-- The interval of a double. Below a power of two the neighbour is only half as far away. -/
def interval (m : Nat) (q : Int) : Interval where
  value := 4 * m
  low := if m = twoTo 52 ∧ -1074 < q then 4 * m - 1 else 4 * m - 2
  high := 4 * m + 2
  closed := m % 2 == 0
  power := q - 2

/-- Factors a and b with x · 2^power = y · 10^exponent iff x · a = y · b. -/
def factors (power exponent : Int) : Nat × Nat :=
  (twoTo power.toNat * tenTo (-exponent).toNat, tenTo exponent.toNat * twoTo (-power).toNat)

/-- The nearest multiple of 10^exponent inside the interval, if one of the value's two
neighbours among these multiples lies there. -/
def Interval.multiple? (v : Interval) (exponent : Int) : Option Nat :=
  let (a, b) := factors v.power exponent
  let below := v.value * a / b
  let inside (c : Nat) : Bool :=
    if v.closed then v.low * a ≤ c * b && c * b ≤ v.high * a
    else v.low * a < c * b && c * b < v.high * a
  let down := v.value * a - below * b
  let up := (below + 1) * b - v.value * a
  match inside below && 0 < below, inside (below + 1) with
  | true, true => some (if down < up || (down == up && below % 2 == 0) then below else below + 1)
  | true, false => some below
  | false, true => some (below + 1)
  | false, false => none

/-- The least d with value < 10^d. -/
def Interval.magnitude (v : Interval) : Int :=
  let ds := (List.range 640).map fun i => Int.ofNat i - 325
  let lessThan (d : Int) : Bool := let (a, b) := factors v.power d; v.value * a < b
  (ds.find? lessThan).getD 320

/-- The decimal with the fewest digits in the interval, the one nearest to the value among those.
Seventeen digits always suffice. -/
def Interval.shortest (v : Interval) : Expansion :=
  let top := v.magnitude
  let found := (List.range 17).findSome? fun n =>
    (v.multiple? (top - Int.ofNat (n + 1))).map fun c => Expansion.mk c (top - Int.ofNat (n + 1))
  found.getD ⟨0, 0⟩

/-- A decimal without zeros at the end of its digits. -/
def Expansion.strip (d : Expansion) : Expansion :=
  let zeros := (Nat.toDigits 10 d.digits).reverse.takeWhile (· == '0') |>.length
  if d.digits = 0 then d else ⟨d.digits / tenTo zeros, d.exponent + Int.ofNat zeros⟩

/-- What a double is. -/
inductive Reading where
  | nan
  | infinite (negative : Bool)
  | finite (negative : Bool) (decimal : Expansion)

/-- The shortest decimal of a double. -/
def ofFloat (x : Float) : Reading :=
  let p := Parts.ofFloat x
  if !p.isFinite then if p.fraction = 0 then .infinite p.negative else .nan
  else if p.significand = 0 then .finite p.negative ⟨0, 0⟩
  else .finite p.negative (interval p.significand p.power).shortest.strip

end GraphLisp.Decimal
