import GraphLisp.Decimal.Double
/-!
# The length of decimal numerals

Turning long numerals into whole numbers and back takes more than linear time, so that the length
of decimal numerals is limited, whether they are read or written.
-/

namespace GraphLisp.Decimal

/-- How many digits the decimal numeral of a whole number may have. -/
def maxDigits : Nat := 4300

/-- The least number whose numeral is too long. -/
def firstTooLong : Nat := tenTo maxDigits

/-- Whether a whole number can be written. -/
def isWritable (n : Int) : Bool := n.natAbs < firstTooLong

/-- Why a numeral is not read as a whole number. -/
inductive Misread where
  /-- There is something else than digits. -/
  | spelling
  /-- There are too many digits. -/
  | tooLong (digits : Nat)
deriving DecidableEq

/-- What is said of a numeral that is too long; a numeral that is read has a known length. -/
def limitWords (digits : Option Nat) : String :=
  let given := match digits with
    | some n => s!": value has {n} digits"
    | none => ""
  s!"Exceeds the limit ({maxDigits} digits) for integer string conversion" ++ given ++
    "; use sys.set_int_max_str_digits() to increase the limit"

end GraphLisp.Decimal
