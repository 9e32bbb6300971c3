import GraphLisp.Moment
import GraphLisp.Text.Numeral
/-!
# Tags of YAML nodes

A tag says what a node stands for. A plain scalar without a tag gets one from its spelling: it is
a text unless it is spelt like one of the other scalars of YAML 1.1. Numbers may have underscores
between their digits and may be written in base sixty, with colons.
-/

namespace GraphLisp.Yaml

/-- What a node stands for. -/
inductive Tag where
  | null
  | bool
  | int
  | float
  | binary
  | timestamp
  | str
  | seq
  | map
  | set
  | omap
  | pairs
  /-- The key that merges another map in. -/
  | merge
  /-- The key of a default value. -/
  | default
  | unknown
deriving DecidableEq, Inhabited

namespace Tag

/-- What the names of the standard tags begin with. -/
def coreStem : String := "tag:yaml.org,2002:"

/-- The standard tags. -/
def core : List (String × Tag) := [("null", .null), ("bool", .bool), ("int", .int),
  ("float", .float), ("binary", .binary), ("timestamp", .timestamp), ("str", .str), ("seq", .seq),
  ("map", .map), ("set", .set), ("omap", .omap), ("pairs", .pairs), ("merge", .merge),
  ("value", .default)]

/-- The tag with a full name. -/
def ofName (name : String) : Tag :=
  ((core.find? fun t => coreStem ++ t.1 == name).map (·.2)).getD .unknown

/-! ## Words -/

/-- Spellings of the truth values. -/
def truthWords : List String :=
  ["yes", "Yes", "YES", "no", "No", "NO", "true", "True", "TRUE", "false", "False", "FALSE",
    "on", "On", "ON", "off", "Off", "OFF"]

/-- Spellings of null; the empty scalar is one. -/
def nullWords : List String := ["", "~", "null", "Null", "NULL"]

/-! ## Integers -/

/-- A digit in the given base, or an underscore. -/
def isDigitIn (base : Nat) (c : Char) : Bool := c == '_' || (Text.hexDigit? c).any (· < base)

/-- The parts of a text between colons. -/
def splitColons (cs : List Char) : List (List Char) :=
  cs.foldr (fun c parts =>
    match c, parts with
    | ':', parts => [] :: parts
    | c, part :: rest => (c :: part) :: rest
    | c, [] => [[c]]) [[]]

/-- A place of a number in base sixty. -/
def isSixtieth : List Char → Bool
  | [a] => a.isDigit
  | [a, b] => '0' ≤ a && a ≤ '5' && b.isDigit
  | _ => false

/-- A digit followed by digits and underscores. -/
def startsWithDigit : List Char → Bool
  | c :: rest => c.isDigit && rest.all (isDigitIn 10)
  | [] => false

/-- Whether an integer is spelt, its sign left aside. -/
def isNat : List Char → Bool
  | '0' :: 'b' :: d :: ds => (d :: ds).all (isDigitIn 2)
  | '0' :: 'x' :: d :: ds => (d :: ds).all (isDigitIn 16)
  | '0' :: ds => ds.all (isDigitIn 8)
  | cs =>
    match splitColons cs with
    | first :: rest => startsWithDigit first && rest.all isSixtieth
    | [] => false

/-! ## Doubles -/

/-- Whether the power of ten after a decimal is spelt right. It needs a sign and digits. -/
def isPower : List Char → Bool
  | [] => true
  | e :: sign :: d :: ds =>
    (e == 'e' || e == 'E') && (sign == '+' || sign == '-') && (d :: ds).all Char.isDigit
  | _ => false

/-- Whether a double is spelt. -/
def isFloat (cs : List Char) : Bool :=
  let body := (Text.splitSign cs).2
  let signed := body.length < cs.length
  let word := String.ofList body
  let (whole, rest) := body.span fun c => isDigitIn 10 c || c == ':'
  let isDecimal := match rest with
    | '.' :: rest =>
      let (places, tail) := rest.span (isDigitIn 10)
      match splitColons whole with
      | [[]] => !signed && places.head?.any Char.isDigit && isPower tail
      | [digits] => startsWithDigit digits && isPower tail
      | first :: others => startsWithDigit first && others.all isSixtieth && tail.isEmpty
      | [] => false
    | _ => false
  word ∈ [".inf", ".Inf", ".INF"] || (!signed && word ∈ [".nan", ".NaN", ".NAN"]) || isDecimal

/-! ## Timestamps -/

/-- A number of `low` to `high` digits, and the rest. -/
def someDigits (low high : Nat) (cs : List Char) : Option (List Char × List Char) :=
  let ds := cs.takeWhile Char.isDigit
  if low ≤ ds.length ∧ ds.length ≤ high then some (ds, cs.drop ds.length) else none

/-- The number that decimal digits spell. -/
def natOf (ds : List Char) : Nat := (Text.natInBase? 10 ds).getD 0

/-- What follows a given character. -/
def after (c : Char) : List Char → Option (List Char)
  | d :: rest => if c = d then some rest else none
  | [] => none

/-- A space or a tab. -/
def isSpace (c : Char) : Bool := c == ' ' || c == '\t'

/-- The distance from universal time at the end of a moment, in seconds. -/
def zone? : List Char → Option Int
  | ['Z'] => some 0
  | sign :: rest => do
    let (hours, rest) ← someDigits 1 2 rest
    let minutes ← match rest with
      | [] => some []
      | rest => do
        let (minutes, rest) ← someDigits 2 2 (← after ':' rest)
        if rest.isEmpty then some minutes else none
    let seconds := Int.ofNat (natOf hours * 3600 + natOf minutes * 60)
    if sign = '+' then some seconds else if sign = '-' then some (-seconds) else none
  | [] => none

/-- The time of day in a moment. Digits beyond the microseconds do not count. -/
def clock? (cs : List Char) : Option Clock := do
  let (hour, rest) ← someDigits 1 2 cs
  let (minute, rest) ← someDigits 2 2 (← after ':' rest)
  let (second, rest) ← someDigits 2 2 (← after ':' rest)
  let (places, rest) := match rest with
    | '.' :: rest => rest.span Char.isDigit
    | rest => ([], rest)
  let micros := natOf ((places ++ List.replicate 6 '0').take 6)
  let clock : Clock := ⟨natOf hour, natOf minute, natOf second, micros, none⟩
  if rest.isEmpty then return clock
  else return { clock with offset := some (← zone? (rest.dropWhile isSpace)) }

/-- The numbers of a date or a moment, and whether its month and day have two digits each. -/
def moment? (cs : List Char) : Option (Moment × Bool) := do
  let (year, rest) ← someDigits 4 4 cs
  let (month, rest) ← someDigits 1 2 (← after '-' rest)
  let (day, rest) ← someDigits 1 2 (← after '-' rest)
  let padded := month.length = 2 && day.length = 2
  let date : Moment := ⟨natOf year, natOf month, natOf day, none⟩
  match rest with
  | [] => return (date, padded)
  | 'T' :: rest | 't' :: rest => return ({ date with clock := some (← clock? rest) }, padded)
  | c :: rest =>
    if isSpace c then
      return ({ date with clock := some (← clock? (rest.dropWhile isSpace)) }, padded)
    else none

/-- Whether a timestamp is spelt. A date alone needs two digits for its month and for its day. -/
def isTimestamp (cs : List Char) : Bool :=
  match moment? cs with
  | some (m, padded) => m.clock.isSome || padded
  | none => false

/-! ## Plain scalars -/

/-- A scalar without a line feed at its end, which is not looked at. -/
def trimmed (cs : List Char) : List Char :=
  match cs.reverse with
  | '\n' :: c :: rest => (c :: rest).reverse
  | _ => cs

/-- What a plain scalar stands for. -/
def ofPlain (text : String) : Tag :=
  let cs := trimmed text.toList
  let word := String.ofList cs
  if word ∈ nullWords then .null
  else if word ∈ truthWords then .bool
  else if isFloat cs then .float
  else if isNat (Text.splitSign cs).2 then .int
  else if isTimestamp cs then .timestamp
  else if word = "<<" then .merge
  else if word = "=" then .default
  else if word ∈ ["!", "&", "*"] then .unknown
  else .str

/-- What a scalar stands for, given its own tag if it has one. The tag `!` leaves it to the
spelling, as in a plain scalar. -/
def ofScalar (own : Option String) (plain : Bool) (text : String) : Tag :=
  match own with
  | none => if plain then ofPlain text else .str
  | some "!" => ofPlain text
  | some name => ofName name

/-- What a collection stands for, given its own tag if it has one. -/
def ofCollection (own : Option String) (usual : Tag) : Tag :=
  match own with
  | none | some "!" => usual
  | some name => ofName name

end Tag

end GraphLisp.Yaml
