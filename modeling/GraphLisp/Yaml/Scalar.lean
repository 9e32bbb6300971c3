import GraphLisp.Plain
import GraphLisp.Text.Lower
import GraphLisp.Yaml.Refusal
import GraphLisp.Yaml.Tag
/-!
# Values of YAML scalars

The value of a scalar by its tag. A tag may be given to any text, so that there may be no value.
-/

namespace GraphLisp.Yaml

namespace Scalar

/-- A truth value. -/
def readBool (text : String) : Except Refusal Plain :=
  match Text.lower text with
  | "yes" | "true" | "on" => .ok (.bool true)
  | "no" | "false" | "off" => .ok (.bool false)
  | _ => .error .truth

/-- A whole number in a base. -/
def readDigits (base : Nat) (cs : List Char) : Except Refusal Int :=
  match Text.readInt base cs with
  | .ok n => .ok n
  | .error (.tooLong digits) => .error (.tooLong digits)
  | .error .spelling => .error (.number base (String.ofList cs))

/-- The parts of a number in base sixty, added up from the last one on. -/
def readSixtieths : List (List Char) → Except Refusal Int
  | [] => .ok 0
  | part :: rest => do
    let n ← readDigits 10 part
    return n * 60 ^ rest.length + (← readSixtieths rest)

/-- The size of a whole number. Its first digits tell its base. -/
def readSize (cs : List Char) : Except Refusal Int :=
  match cs with
  | [] => .error .emptyNumber
  | ['0'] => .ok 0
  | '0' :: 'b' :: ds => readDigits 2 ds
  | '0' :: 'x' :: ds => readDigits 16 ds
  | '0' :: _ => readDigits 8 cs
  | cs => if cs.contains ':' then readSixtieths (Tag.splitColons cs) else readDigits 10 cs

/-- A number without its underscores. -/
def joined (text : String) : String := String.ofList (text.toList.filter (· != '_'))

/-- A number as whether it is negative and its size. -/
def signed (text : String) : Except Refusal (Bool × List Char) :=
  match text.toList with
  | [] => .error .emptyNumber
  | cs => .ok (Text.splitSign cs)

/-- A whole number. -/
def readInt (text : String) : Except Refusal Plain := do
  let (negative, cs) ← signed (joined text)
  let n ← readSize cs
  return .int (if negative then -n else n)

/-- A decimal. -/
def readDecimal (cs : List Char) : Except Refusal Float :=
  match Text.readFloat? cs with
  | some x => .ok x
  | none => .error (.double (String.ofList cs))

/-- The doubles in the parts of a number in base sixty. -/
def readDecimals : List (List Char) → Except Refusal (List Float)
  | [] => .ok []
  | part :: rest => do return (← readDecimal part) :: (← readDecimals rest)

/-- A power of sixty as a double, unless it is beyond all of them. -/
def sixtyTo (place : Nat) : Except Refusal Float :=
  let x := Decimal.nearest false (Nat.pow 60 place) 0
  if x.isInf then .error .overflow else .ok x

/-- A number in base sixty, added up from its last part on, which has the given place. -/
def sumSixtieths (place : Nat) (sum : Float) : List Float → Except Refusal Float
  | [] => .ok sum
  | x :: rest => do sumSixtieths (place + 1) (sum + x * (← sixtyTo place)) rest

/-- A double. -/
def readFloat (text : String) : Except Refusal Plain := do
  let (negative, cs) ← signed (Text.lower (joined text))
  let x ←
    if cs = ".inf".toList then pure Text.infinity
    else if cs = ".nan".toList then pure Text.nan
    else if cs.contains ':' then do
      let parts ← readDecimals (Tag.splitColons cs)
      sumSixtieths 0 0.0 parts.reverse
    else readDecimal cs
  return .float (if negative then -x else x)

/-- Whether a double that is no number is spelt as the one that all its nodes share. -/
def isCommonNan (text : String) : Bool :=
  match signed (Text.lower (joined text)) with
  | .ok (_, cs) => cs = ".nan".toList
  | .error _ => false

/-- A date or a moment. -/
def readMoment (text : String) : Except Refusal Plain :=
  match Tag.moment? (Tag.trimmed text.toList) with
  | none => .error .timestamp
  | some (m, _) =>
    match m.flaw? with
    | some flaw => .error (.moment flaw)
    | none => .ok (.moment m)

/-! ## Bytes -/

/-- The value of a digit in base sixty-four. -/
def sextet? (c : Char) : Option Nat :=
  if 'A' ≤ c ∧ c ≤ 'Z' then some (c.toNat - 'A'.toNat)
  else if 'a' ≤ c ∧ c ≤ 'z' then some (c.toNat - 'a'.toNat + 26)
  else if '0' ≤ c ∧ c ≤ '9' then some (c.toNat - '0'.toNat + 52)
  else if c = '+' then some 62
  else if c = '/' then some 63
  else none

/-- The bytes that digits in base sixty-four spell, given how many digits of the group at hand
have come, the bits left over from the last one, and how many signs fill up the group. Four make
a group, and a full group ends the bytes if signs fill it up. -/
def readBytes (place bits pads : Nat) : List Char → Option (List UInt8)
  | [] => if place = 0 then some [] else none
  | c :: rest =>
    if c = '=' then
      if place < 2 then readBytes place bits pads rest
      else if 4 ≤ place + pads + 1 then some []
      else readBytes place bits (pads + 1) rest
    else match sextet? c with
      | none => readBytes place bits pads rest
      | some d =>
        match place with
        | 0 => readBytes 1 d 0 rest
        | 1 => (readBytes 2 (d % 16) 0 rest).map (UInt8.ofNat (bits * 4 + d / 16) :: ·)
        | 2 => (readBytes 3 (d % 4) 0 rest).map (UInt8.ofNat (bits * 16 + d / 4) :: ·)
        | _ => (readBytes 0 0 0 rest).map (UInt8.ofNat (bits * 64 + d) :: ·)

/-- Bytes. -/
def readBinary (text : String) : Except Refusal Plain :=
  let cs := text.toList
  if cs.all (·.toNat < 0x80) then
    match readBytes 0 0 0 cs with
    | some bs => .ok (.bytes bs)
    | none => .error .document
  else .error .document

/-! ## Values -/

/-- The value of a scalar. -/
def read (tag : Tag) (text : String) : Except Refusal Plain :=
  match tag with
  | .null => .ok .null
  | .bool => readBool text
  | .int => readInt text
  | .float => readFloat text
  | .binary => readBinary text
  | .timestamp => readMoment text
  | .str => .ok (.text text)
  | _ => .error .document

end Scalar

end GraphLisp.Yaml
