/-!
# Blank characters

The characters that count as white space, and trimming by them.
-/

namespace GraphLisp.Text

/-- White space: the characters with that property, and the four information separators. -/
def isBlank (c : Char) : Bool :=
  let n := c.toNat
  (0x09 ≤ n && n ≤ 0x0D) || (0x1C ≤ n && n ≤ 0x20) || n == 0x85 || n == 0xA0 || n == 0x1680 ||
    (0x2000 ≤ n && n ≤ 0x200A) || n == 0x2028 || n == 0x2029 || n == 0x202F || n == 0x205F ||
    n == 0x3000

/-- The text without leading blanks. -/
def dropBlanks (cs : List Char) : List Char := cs.dropWhile isBlank

/-- The text without blanks at either end. -/
def trim (cs : List Char) : List Char := (dropBlanks (dropBlanks cs).reverse).reverse

end GraphLisp.Text
