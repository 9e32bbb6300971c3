import GraphLisp.Plain.Shown
/-!
# Writing JSON

Two layouts: compact, on one line, and pretty, with one item or entry to a line and two spaces
for each level. Characters other than quotes, backslashes and controls are written as they are.
-/

namespace GraphLisp.Json

/-- A character inside a string. -/
def writtenChar (c : Char) : List Char :=
  match c with
  | '"' => ['\\', '"']
  | '\\' => ['\\', '\\']
  | '\n' => ['\\', 'n']
  | '\r' => ['\\', 'r']
  | '\t' => ['\\', 't']
  | '\x08' => ['\\', 'b']
  | '\x0c' => ['\\', 'f']
  | c => if c.toNat < 0x20 then '\\' :: 'u' :: Text.hex 4 c.toNat else [c]

/-- A string in its quotes. -/
def writtenString (s : String) : String :=
  String.ofList ('"' :: s.toList.flatMap writtenChar ++ ['"'])

/-- A double; what is no finite number has a word. -/
def writtenFloat (x : Float) : String := floatText "Infinity" "-Infinity" "NaN" x

/-- A value without parts; one that the format has no place for is written as its text. -/
def writtenScalar : Plain → String
  | .null => "null"
  | .bool b => if b then "true" else "false"
  | .int n => toString n
  | .float x => writtenFloat x
  | .text s => writtenString s
  | .list _ => "[]"
  | .map _ => "\x7b\x7d"
  | p => writtenString p.asText

/-- A key. Every key is written as a string. -/
def writtenKey : Plain → String
  | .text s => writtenString s
  | p => writtenString (writtenScalar p)

mutual

/-- The compact text of a value. -/
def compact : Plain → String
  | .list (p :: rest) => "[" ++ ", ".intercalate (compact p :: compactItems rest) ++ "]"
  | .map ((k, p) :: rest) =>
    let entry := writtenKey k ++ ": " ++ compact p
    "\x7b" ++ ", ".intercalate (entry :: compactEntries rest) ++ "\x7d"
  | p => writtenScalar p

/-- The compact texts of the items of a list. -/
def compactItems : List Plain → List String
  | [] => []
  | p :: rest => compact p :: compactItems rest

/-- The compact texts of the entries of a map. -/
def compactEntries : List (Plain × Plain) → List String
  | [] => []
  | (k, p) :: rest => (writtenKey k ++ ": " ++ compact p) :: compactEntries rest

end

/-- The start of a line at a level. -/
def newline (level : Nat) : String := "".pushn '\n' 1 |>.pushn ' ' (2 * level)

/-- Lines between an opening and a closing mark. -/
def block (level : Nat) (opening closing : String) (lines : List String) : String :=
  opening ++ newline (level + 1) ++ ("," ++ newline (level + 1)).intercalate lines ++
    newline level ++ closing

mutual

/-- The pretty text of a value at a level. -/
def pretty (level : Nat) : Plain → String
  | .list (p :: rest) =>
    block level "[" "]" (pretty (level + 1) p :: prettyItems (level + 1) rest)
  | .map ((k, p) :: rest) =>
    block level "\x7b" "\x7d"
      ((writtenKey k ++ ": " ++ pretty (level + 1) p) :: prettyEntries (level + 1) rest)
  | p => writtenScalar p

/-- The pretty texts of the items of a list. -/
def prettyItems (level : Nat) : List Plain → List String
  | [] => []
  | p :: rest => pretty level p :: prettyItems level rest

/-- The pretty texts of the entries of a map. -/
def prettyEntries (level : Nat) : List (Plain × Plain) → List String
  | [] => []
  | (k, p) :: rest => (writtenKey k ++ ": " ++ pretty level p) :: prettyEntries level rest

end

end GraphLisp.Json
