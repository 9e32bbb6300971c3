import GraphLisp.Plain
import GraphLisp.Text.Numeral
import GraphLisp.Text.Surrogate
/-!
# Reading JSON

`Json.parse` reads one JSON text. Beyond the standard it takes `NaN` and the infinities; of the
values bound to one key the last one counts. A number is whole unless it has a fraction or an
exponent. A text is read from left to right, up to the first thing that is to be refused.
-/

namespace GraphLisp.Json

/-- Why a text is refused. -/
inductive Refusal where
  /-- It is not JSON. -/
  | malformed
  /-- A whole number has too many digits. -/
  | tooLong (digits : Nat)
  /-- There are too many lists and maps inside each other. -/
  | tooDeep
deriving DecidableEq

/-- The refusal of what is not JSON. -/
def malformed {α : Type} : Except Refusal α := .error .malformed

/-- The characters allowed between tokens. -/
def isSpace (c : Char) : Bool := c == ' ' || c == '\n' || c == '\t' || c == '\r'

/-- The text from its first token on. -/
def skip (cs : List Char) : List Char := cs.dropWhile isSpace

/-! ## Strings -/

/-- A part of a string: a character, or a unit of sixteen bits from an escape. -/
inductive Piece where
  | char (c : Char)
  | unit (n : Nat)

/-- The number that the hexadecimal digits spell. -/
def hexNat? (cs : List Char) : Option Nat :=
  cs.foldl (fun acc c => do return 16 * (← acc) + (← Text.hexDigit? c)) (some 0)

/-- The character that an escape of one letter stands for. -/
def escape? : Char → Option Char
  | '"' => some '"'
  | '\\' => some '\\'
  | '/' => some '/'
  | 'b' => some '\x08'
  | 'f' => some '\x0c'
  | 'n' => some '\n'
  | 'r' => some '\r'
  | 't' => some '\t'
  | _ => none

/-- The pieces of a string up to its closing quote, and the text after it. -/
def pieces : List Char → Option (List Piece × List Char)
  | [] => none
  | '"' :: rest => some ([], rest)
  | '\\' :: 'u' :: a :: b :: c :: d :: rest => do
    let n ← hexNat? [a, b, c, d]
    let (ps, rest) ← pieces rest
    return (.unit n :: ps, rest)
  | '\\' :: e :: rest => do
    let c ← escape? e
    let (ps, rest) ← pieces rest
    return (.char c :: ps, rest)
  | c :: rest =>
    if c.toNat < 0x20 then none
    else do
      let (ps, rest) ← pieces rest
      return (.char c :: ps, rest)

/-- The spelling of the pieces; a high and a low surrogate next to each other make one character. -/
def join : List Piece → List Char
  | [] => []
  | .unit high :: .unit low :: rest =>
    if 0xD800 ≤ high ∧ high < 0xDC00 ∧ 0xDC00 ≤ low ∧ low < 0xE000 then
      let c := Char.ofNat (0x10000 + (high - 0xD800) * 0x400 + (low - 0xDC00))
      (Text.Letter.char c).spell ++ join rest
    else (Text.letterOfUnit high).spell ++ join (.unit low :: rest)
  | .unit n :: rest => (Text.letterOfUnit n).spell ++ join rest
  | .char c :: rest => c :: join rest

/-- A string after its opening quote. -/
def string (cs : List Char) : Except Refusal (String × List Char) :=
  match pieces cs with
  | some (ps, rest) => .ok (String.ofList (join ps), rest)
  | none => malformed

/-! ## Numbers -/

/-- The leading digits, and the rest. -/
def digits (cs : List Char) : List Char × List Char := cs.span Char.isDigit

/-- The number that decimal digits spell. -/
def natOf (ds : List Char) : Nat := ds.foldl (fun n c => 10 * n + (c.toNat - '0'.toNat)) 0

/-- The digits after a point, if there are any. -/
def fraction (cs : List Char) : List Char × List Char :=
  match cs with
  | '.' :: rest =>
    match digits rest with
    | ([], _) => ([], cs)
    | found => found
  | _ => ([], cs)

/-- The power of ten after an exponent mark, if digits follow. -/
def exponent (cs : List Char) : Option Int × List Char :=
  match cs with
  | e :: rest =>
    if e = 'e' ∨ e = 'E' then
      let (negative, body) := match rest with
        | '-' :: r => (true, r)
        | '+' :: r => (false, r)
        | r => (false, r)
      match digits body with
      | ([], _) => (none, cs)
      | (ds, after) => (some (Text.withSign negative (natOf ds)), after)
    else (none, cs)
  | [] => (none, [])

/-- A number after its sign. A leading zero stands alone. -/
def unsigned (negative : Bool) (cs : List Char) : Except Refusal (Plain × List Char) :=
  let (whole, rest) := match cs with
    | '0' :: r => (['0'], r)
    | _ => digits cs
  if whole.isEmpty then malformed
  else
    let (places, rest) := fraction rest
    let (power, rest) := exponent rest
    if places.isEmpty && power.isNone then
      if Decimal.maxDigits < whole.length then .error (.tooLong whole.length)
      else .ok (.int (Text.withSign negative (natOf whole)), rest)
    else
      let power := power.getD 0 - Int.ofNat places.length
      .ok (.float (Decimal.nearest negative (natOf (whole ++ places)) power), rest)

/-- A number, infinities included. -/
def number : List Char → Except Refusal (Plain × List Char)
  | '-' :: 'I' :: 'n' :: 'f' :: 'i' :: 'n' :: 'i' :: 't' :: 'y' :: rest =>
    .ok (.float Text.negativeInfinity, rest)
  | '-' :: rest => unsigned true rest
  | cs => unsigned false cs

/-! ## Values -/

/-- The words that are values. -/
def words : List (List Char × Plain) := [
  ("null".toList, .null), ("true".toList, .bool true), ("false".toList, .bool false),
  ("NaN".toList, .float Text.nan), ("Infinity".toList, .float Text.infinity)]

/-- A value that has no parts. -/
def scalar (cs : List Char) : Except Refusal (Plain × List Char) :=
  match words.find? fun w => w.1.isPrefixOf cs with
  | some (word, p) => .ok (p, cs.drop word.length)
  | none => number cs

/-- How many lists and maps may stand inside each other. -/
def maxDepth : Nat := 990

mutual

/-- A value at the start of a text, inside so many lists and maps. Every step inwards or onwards
takes one unit of fuel. -/
def value (depth : Nat) : Nat → List Char → Except Refusal (Plain × List Char)
  | 0, _ => malformed
  | fuel + 1, cs =>
    match cs with
    | '"' :: rest => do
      let (s, rest) ← string rest
      return (.text s, rest)
    | '[' :: rest =>
      if maxDepth ≤ depth then .error .tooDeep
      else match skip rest with
        | ']' :: rest => .ok (.list [], rest)
        | rest => do
          let (items, rest) ← items (depth + 1) fuel rest
          return (.list items, rest)
    | '{' :: rest =>
      if maxDepth ≤ depth then .error .tooDeep
      else match skip rest with
        | '}' :: rest => .ok (.map [], rest)
        | rest => do
          let (entries, rest) ← entries (depth + 1) fuel rest []
          return (.map entries, rest)
    | cs => scalar cs

/-- The items of a list up to its closing bracket. -/
def items (depth : Nat) : Nat → List Char → Except Refusal (List Plain × List Char)
  | 0, _ => malformed
  | fuel + 1, cs => do
    let (p, rest) ← value depth fuel cs
    match skip rest with
    | ',' :: rest => do
      let (ps, rest) ← items depth fuel (skip rest)
      return (p :: ps, rest)
    | ']' :: rest => return ([p], rest)
    | _ => malformed

/-- The entries of a map up to its closing brace, put over those that came before. -/
def entries (depth : Nat) : Nat → List Char → List (Plain × Plain) →
    Except Refusal (List (Plain × Plain) × List Char)
  | 0, _, _ => malformed
  | fuel + 1, cs, before =>
    match cs with
    | '"' :: rest => do
      let (key, rest) ← string rest
      match skip rest with
      | ':' :: rest => do
        let (p, rest) ← value depth fuel (skip rest)
        let sofar := Plain.put (.text key) p before
        match skip rest with
        | ',' :: rest => entries depth fuel (skip rest) sofar
        | '}' :: rest => return (sofar, rest)
        | _ => malformed
      | _ => malformed
    | _ => malformed

end

/-- The value of a text that holds one value and nothing else but spaces. -/
def parse (s : String) : Except Refusal Plain := do
  let cs := s.toList
  let (p, rest) ← value 0 (2 * cs.length + 2) (skip cs)
  if (skip rest).isEmpty then return p else malformed

end GraphLisp.Json
