import GraphLisp.Text.Printable
import GraphLisp.Text.Surrogate
/-!
# Quoted text

How messages show a text: between single quotes, or between double quotes if it holds a single
quote and no double quote. The quote in use and the backslash are escaped, and so is every letter
that is no printable character.
-/

namespace GraphLisp.Text

/-- The digits of a number in base sixteen, at least `width` of them. -/
def hex (width n : Nat) : List Char :=
  let digits := Nat.toDigits 16 n
  List.replicate (width - digits.length) '0' ++ digits

/-- The escape of a letter by its code point. -/
def escapedCode (code : Nat) : List Char :=
  if code < 0x100 then '\\' :: 'x' :: hex 2 code
  else if code < 0x10000 then '\\' :: 'u' :: hex 4 code
  else '\\' :: 'U' :: hex 8 code

/-- One character between quotes. -/
def quotedChar (quote c : Char) : List Char :=
  if c = quote ∨ c = '\\' then ['\\', c]
  else if c = '\n' then ['\\', 'n']
  else if c = '\r' then ['\\', 'r']
  else if c = '\t' then ['\\', 't']
  else if isPrintable c then [c]
  else escapedCode c.toNat

/-- One letter between quotes. -/
def quotedLetter (quote : Char) : Letter → List Char
  | .char c => quotedChar quote c
  | .half unit => escapedCode unit

/-- The quotes that a text gets. -/
def quoteFor (cs : List Char) : Char := if cs.contains '\'' && !cs.contains '"' then '"' else '\''

/-- The text as messages show it. -/
def quoted (s : String) : String :=
  let quote := quoteFor s.toList
  String.ofList (quote :: (lettersOf s).flatMap (quotedLetter quote) ++ [quote])

end GraphLisp.Text
