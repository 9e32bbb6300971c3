import GraphLisp.Decimal.Shortest
import GraphLisp.Plain
import GraphLisp.Text.Quoted
/-!
# Plain data in messages

How messages show plain data: lists in brackets, maps in braces, texts in quotes, and doubles by
the shortest decimal that reads back. A value that is being shown is not shown again inside
itself. `Plain.asText` is the text that a value makes where a name is expected.
-/

namespace GraphLisp

/-- A decimal in positional notation, with at least one digit on either side of the point. -/
def Decimal.Expansion.positional (d : Decimal.Expansion) : String :=
  let ds := Nat.toDigits 10 d.digits
  if 0 ≤ d.exponent then
    String.ofList (ds ++ List.replicate d.exponent.toNat '0' ++ ['.', '0'])
  else
    let places := (-d.exponent).toNat
    let ds := List.replicate (places + 1 - ds.length) '0' ++ ds
    String.ofList (ds.take (ds.length - places) ++ '.' :: ds.drop (ds.length - places))

/-- A decimal with one digit before the point, and an exponent of at least two digits. -/
def Decimal.Expansion.scientific (d : Decimal.Expansion) : String :=
  let ds := Nat.toDigits 10 d.digits
  let power := d.exponent + Int.ofNat ds.length - 1
  let sign := if power < 0 then '-' else '+'
  let tail := Nat.toDigits 10 power.natAbs
  let tail := List.replicate (2 - tail.length) '0' ++ tail
  let fraction := if ds.length = 1 then [] else '.' :: ds.drop 1
  String.ofList (ds.take 1 ++ fraction ++ 'e' :: sign :: tail)

/-- A decimal as it is written: positional from 10^-4 up to below 10^16. -/
def Decimal.Expansion.text (d : Decimal.Expansion) : String :=
  let power := d.exponent + Int.ofNat (Nat.toDigits 10 d.digits).length - 1
  if d.digits = 0 ∨ (-4 ≤ power ∧ power < 16) then d.positional else d.scientific

/-- A double as it is written, given the words for the infinities and for what is no number. -/
def floatText (infinity negativeInfinity nan : String) (x : Float) : String :=
  match Decimal.ofFloat x with
  | .nan => nan
  | .infinite negative => if negative then negativeInfinity else infinity
  | .finite negative d => if negative then "-" ++ d.text else d.text

/-- A byte between quotes. -/
def quotedByte (quote : Char) (b : UInt8) : List Char :=
  let c := Char.ofNat b.toNat
  if c.toNat < 0x7F then Text.quotedChar quote c else '\\' :: 'x' :: Text.hex 2 c.toNat

/-- Bytes as messages show them. -/
def shownBytes (bs : List UInt8) : String :=
  let quote := Text.quoteFor (bs.map fun b => Char.ofNat b.toNat)
  String.ofList ('b' :: quote :: bs.flatMap (quotedByte quote) ++ [quote])

/-- What stands in a message for a value that is being shown already. -/
def Shape.ellipsis : Shape → String
  | .list => "[...]"
  | .map => "\x7b...\x7d"
  | .tuple => "(...)"

namespace Plain

/-- The shape of a value that contains others. -/
def shape : Plain → Shape
  | .map _ => .map
  | .tuple _ => .tuple
  | _ => .list

mutual

/-- Plain data as messages show it, inside the knots with the given labels. -/
def shownWithin (around : List Nat) : Plain → String
  | .null => "None"
  | .bool b => if b then "True" else "False"
  | .int n => toString n
  | .float x => floatText "inf" "-inf" "nan" x
  | .text s => Text.quoted s
  | .list items => "[" ++ ", ".intercalate (shownItems around items) ++ "]"
  | .map entries => "\x7b" ++ ", ".intercalate (shownEntries around entries) ++ "\x7d"
  | .moment m => m.shown
  | .bytes bs => shownBytes bs
  | .tuple [p] => "(" ++ p.shownWithin around ++ ",)"
  | .tuple items => "(" ++ ", ".intercalate (shownItems around items) ++ ")"
  | .set [] => "set()"
  | .set members => "\x7b" ++ ", ".intercalate (shownItems around members) ++ "\x7d"
  | .knot label content =>
    if label ∈ around then content.shape.ellipsis else content.shownWithin (label :: around)
  | .loop _ shape => shape.ellipsis

/-- The items of a list. -/
def shownItems (around : List Nat) : List Plain → List String
  | [] => []
  | p :: rest => p.shownWithin around :: shownItems around rest

/-- The entries of a map. -/
def shownEntries (around : List Nat) : List (Plain × Plain) → List String
  | [] => []
  | (k, v) :: rest =>
    (k.shownWithin around ++ ": " ++ v.shownWithin around) :: shownEntries around rest

end

/-- Plain data as messages show it. -/
def shown (p : Plain) : String := p.shownWithin []

/-- A value as the text that names it: a text names itself. -/
def asText : Plain → String
  | .text s => s
  | .moment m => m.text
  | p => p.shown

end Plain

end GraphLisp
