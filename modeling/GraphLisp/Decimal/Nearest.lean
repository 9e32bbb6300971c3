import GraphLisp.Decimal.Double
/-!
# Reading decimals

`nearest m e` is the double nearest to the decimal m · 10^e, a tie going to the even
significand. The quotient is formed and rounded in exact arithmetic; only the last step makes a
double out of its bits.
-/

namespace GraphLisp.Decimal

/-- `num / den` rounded to a whole number, a half going to the even neighbour. -/
def roundHalfEven (num den : Nat) : Nat :=
  let q := num / den
  let r := 2 * (num % den)
  if den < r || (r == den && q % 2 == 1) then q + 1 else q

/-- 2^k · num / den as a quotient of whole numbers. -/
def scaled (num den : Nat) (k : Int) : Nat × Nat :=
  if 0 ≤ k then (num * twoTo k.toNat, den) else (num, den * twoTo (-k).toNat)

/-- The bits of the double nearest to the positive quotient `num / den`.

With q the exponent of the last place, the significand is num / den / 2^q rounded; adding it to
the biased exponent's place lets a carry out of the significand raise the exponent by itself. -/
def nearestBits (num den : Nat) : Nat :=
  let size : Int := Int.ofNat num.log2 - Int.ofNat den.log2
  let fine := size - 53
  let (n, d) := scaled num den (-fine)
  let q := max (-1074) (if twoTo 53 * d ≤ n then fine + 1 else fine)
  let (n, d) := scaled num den (-q)
  let bits := (q + 1074).toNat * twoTo 52 + roundHalfEven n d
  min bits 0x7FF0000000000000

/-- The bits of the double nearest to m · 10^e. Decimals beyond the range of doubles are told by
their number of digits, before any power of ten is formed. -/
def decimalBits (m : Nat) (e : Int) : Nat :=
  let top : Int := Int.ofNat (Nat.toDigits 10 m).length + e
  if m = 0 ∨ top < -330 then 0
  else if 310 < top then 0x7FF0000000000000
  else if 0 ≤ e then nearestBits (m * tenTo e.toNat) 1
  else nearestBits m (tenTo (-e).toNat)

/-- The double nearest to ± m · 10^e. -/
def nearest (negative : Bool) (m : Nat) (e : Int) : Float :=
  Float.ofBits (UInt64.ofNat (decimalBits m e + if negative then twoTo 63 else 0))

end GraphLisp.Decimal
