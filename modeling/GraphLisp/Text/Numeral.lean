import GraphLisp.Decimal.Limit
import GraphLisp.Decimal.Nearest
import GraphLisp.Text.Blank
import GraphLisp.Text.Digit
/-!
# Numerals

Free-form numerals: a number may stand between blanks and have a sign, and its digits may come
from any script. A whole number in another base than ten may begin with the mark of that base.
Bytes may be given by hexadecimal digits.
-/

namespace GraphLisp.Text

/-- The value of a hexadecimal digit. -/
def hexDigit? (c : Char) : Option Nat :=
  if '0' ≤ c ∧ c ≤ '9' then some (c.toNat - '0'.toNat)
  else if 'a' ≤ c ∧ c ≤ 'f' then some (c.toNat - 'a'.toNat + 10)
  else if 'A' ≤ c ∧ c ≤ 'F' then some (c.toNat - 'A'.toNat + 10)
  else none

/-- A character of a numeral in ASCII: a digit of another script becomes that digit, and a blank
a space. -/
def latinChar (c : Char) : Char :=
  if c.toNat < 0x7F then c
  else if isBlank c then ' '
  else match digit? c with
    | some d => Char.ofNat (d + '0'.toNat)
    | none => '?'

/-- A space around a numeral. -/
def isNumeralSpace (c : Char) : Bool := c == ' ' || (0x09 ≤ c.toNat && c.toNat ≤ 0x0D)

/-- A numeral in ASCII, without what stands around it. -/
def latinNumeral (cs : List Char) : List Char :=
  let cs := if cs.all (·.toNat < 0x80) then cs else cs.map latinChar
  ((cs.dropWhile isNumeralSpace).reverse.dropWhile isNumeralSpace).reverse

/-- A sign in front of a number, and the rest. -/
def splitSign : List Char → Bool × List Char
  | '-' :: rest => (true, rest)
  | '+' :: rest => (false, rest)
  | cs => (false, cs)

/-- The number that digits of a base spell; `none` if there are none or one of them is no digit. -/
def natInBase? (base : Nat) : List Char → Option Nat
  | [] => none
  | cs => cs.foldl (fun acc c => do
      let n ← acc
      let d ← hexDigit? c
      if d < base then some (base * n + d) else none) (some 0)

/-- The digits after the mark of a base. -/
def dropBaseMark (base : Nat) : List Char → List Char
  | '0' :: mark :: rest =>
    let marks := match base with
      | 2 => ['b', 'B']
      | 8 => ['o', 'O']
      | 16 => ['x', 'X']
      | _ => []
    if mark ∈ marks then rest else '0' :: mark :: rest
  | cs => cs

/-- A size with its sign. -/
def withSign (negative : Bool) (n : Nat) : Int := if negative then -Int.ofNat n else Int.ofNat n

/-- A whole number. In base ten the length of its digits is limited; they are counted up to the
first character that is none. -/
def readInt (base : Nat) (cs : List Char) : Except Decimal.Misread Int :=
  let (negative, body) := splitSign (latinNumeral cs)
  let count := (body.takeWhile Char.isDigit).length
  if base = 10 ∧ Decimal.maxDigits < count then .error (.tooLong count)
  else match natInBase? base (dropBaseMark base body) with
    | some n => .ok (withSign negative n)
    | none => .error .spelling

/-- Bytes from hexadecimal digits, two for each, given where the first character stands. Blanks
may stand between bytes. A character that does not fit is told by its place. -/
def readHexFrom (place : Nat) : List Char → Except Nat (List UInt8)
  | [] => .ok []
  | [c] =>
    if isNumeralSpace c then .ok []
    else .error (if (hexDigit? c).isSome then place + 1 else place)
  | c :: d :: rest =>
    if isNumeralSpace c then readHexFrom (place + 1) (d :: rest)
    else match hexDigit? c, hexDigit? d with
      | some high, some low => do
        return UInt8.ofNat (16 * high + low) :: (← readHexFrom (place + 2) rest)
      | some _, none => .error (place + 1)
      | none, _ => .error place

/-- Bytes from hexadecimal digits. A character outside of ASCII is told first. -/
def readHex (cs : List Char) : Except Nat (List UInt8) :=
  match cs.findIdx? (0x80 ≤ ·.toNat) with
  | some place => .error place
  | none => readHexFrom 0 cs

/-- The power of ten after the digits of a decimal. -/
def readPower? : List Char → Option Int
  | [] => some 0
  | e :: rest =>
    let (negative, digits) := splitSign rest
    if e = 'e' ∨ e = 'E' then
      (natInBase? 10 digits).map (withSign negative)
    else none

/-- A positive infinite double. -/
def infinity : Float := Float.ofBits 0x7FF0000000000000

/-- A negative infinite double. -/
def negativeInfinity : Float := Float.ofBits 0xFFF0000000000000

/-- A double that is no number. -/
def nan : Float := Float.ofBits 0x7FF8000000000000

/-- A decimal in small letters, or a word for a double that no decimal spells. -/
def readFloat? (cs : List Char) : Option Float :=
  let (negative, body) := splitSign (latinNumeral cs)
  let word := String.ofList body
  if word = "inf" ∨ word = "infinity" then some (if negative then negativeInfinity else infinity)
  else if word = "nan" then some nan
  else
    let (whole, rest) := body.span Char.isDigit
    let (places, rest) := match rest with
      | '.' :: rest => rest.span Char.isDigit
      | rest => ([], rest)
    match natInBase? 10 (whole ++ places), readPower? rest with
    | some n, some power => some (Decimal.nearest negative n (power - Int.ofNat places.length))
    | _, _ => none

end GraphLisp.Text
