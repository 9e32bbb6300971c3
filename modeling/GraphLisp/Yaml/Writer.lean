import GraphLisp.Plain.Shown
import GraphLisp.Yaml.Cursor
import GraphLisp.Yaml.Tag
/-!
# Writing YAML

Lists and maps are written as blocks, with two spaces for each level; a list under a key stays at
the level of the key. A text is written plain where it reads back as that text, else in single
quotes, else in double quotes with escapes. Long texts are folded at a space once a line is past
column 80.
-/

namespace GraphLisp.Yaml

/-- The column past which a text is folded. -/
def width : Nat := 80

/-- A new line with so many spaces. -/
def margin (indent : Nat) : List Char := '\n' :: List.replicate indent ' '

/-! ## Styles -/

/-- How a text is written. -/
inductive Style where
  | plain
  | single
  | double
deriving DecidableEq

/-- Whether a character can only be written as an escape. -/
def isSpecial (c : Char) : Bool := !(c == '\n' || (0x20 ≤ c.toNat && c.toNat ≤ 0x7E))

/-- A break right after a space, or a space right after a break. -/
def hasJoint (first second : Char) : List Char → Bool
  | a :: b :: rest => (a == first && b == second) || hasJoint first second (b :: rest)
  | _ => false

/-- A sign that cannot begin a plain scalar. -/
def isOpeningSign (c : Char) : Bool :=
  c ∈ ['#', ',', '[', ']', '{', '}', '&', '*', '!', '|', '>', '\'', '"', '%', '@', '\x60']

/-- Whether a colon before a gap, or a number sign after one, stands in a text. -/
def hasInnerSign : List Char → Bool
  | a :: b :: rest => (b == '#' && isGap (some a)) || (b == ':' && isGap rest.head?) ||
      hasInnerSign (b :: rest)
  | _ => false

/-- Whether the signs in a text make it anything but a plain scalar. -/
def hasSign (cs : List Char) : Bool :=
  let opening := match cs with
    | [] => false
    | c :: rest => isOpeningSign c || ((c == '?' || c == ':' || c == '-') && isGap rest.head?)
  opening || hasInnerSign cs || "---".toList.isPrefixOf cs || "...".toList.isPrefixOf cs

/-- Whether a plain scalar reads back as a text. -/
def readsAsText (s : String) : Bool := Tag.ofPlain s = .str

/-- The style of a text. -/
def textStyle (s : String) : Style :=
  let cs := s.toList
  let isEdge (c : Option Char) : Bool := c == some ' ' || c == some '\n'
  let isSafe := !hasSign cs && !isEdge cs.head? && !isEdge cs.getLast? && !cs.contains '\n'
  if cs.any isSpecial || hasJoint ' ' '\n' cs || hasJoint '\n' ' ' cs then .double
  else if isSafe && readsAsText s then .plain
  else .single

/-! ## Scalars -/

/-- A stretch of a text. -/
inductive Run where
  | spaces (count : Nat)
  | breaks (count : Nat)
  | word (cs : List Char)

/-- A text as stretches, neighbours of different kinds. -/
def runs : List Char → List Run
  | [] => []
  | c :: rest =>
    match c, runs rest with
    | ' ', .spaces n :: more => .spaces (n + 1) :: more
    | ' ', more => .spaces 1 :: more
    | '\n', .breaks n :: more => .breaks (n + 1) :: more
    | '\n', more => .breaks 1 :: more
    | c, .word cs :: more => .word (c :: cs) :: more
    | c, more => .word [c] :: more

/-- Writes the stretches of a plain or single-quoted text from a column on. A single space inside
the text is where a long line may end. -/
def writeRuns (fold : Bool) (indent : Nat) : Bool → Nat → List Run → List Char
  | _, _, [] => []
  | first, column, .spaces n :: rest =>
    if n = 1 ∧ width < column ∧ fold ∧ !first ∧ !rest.isEmpty then
      margin indent ++ writeRuns fold indent false indent rest
    else List.replicate n ' ' ++ writeRuns fold indent false (column + n) rest
  | _, _, .breaks n :: rest =>
    List.replicate n '\n' ++ margin indent ++ writeRuns fold indent false indent rest
  | _, column, .word cs :: rest =>
    let cs := cs.flatMap fun c => if c = '\'' then ['\'', '\''] else [c]
    cs ++ writeRuns fold indent false (column + cs.length) rest

/-- The stretches of a plain text. -/
def writeWords (fold : Bool) (indent : Nat) : Nat → List Run → List Char
  | _, [] => []
  | column, .spaces n :: rest =>
    if n = 1 ∧ width < column ∧ fold then
      margin indent ++ writeWords fold indent indent rest
    else List.replicate n ' ' ++ writeWords fold indent (column + n) rest
  | column, .breaks _ :: rest => writeWords fold indent column rest
  | column, .word cs :: rest => cs ++ writeWords fold indent (column + cs.length) rest

/-- The letter of an escape. -/
def escapeLetter? (c : Char) : Option Char :=
  match c with
  | '\x00' => some '0'
  | '\x07' => some 'a'
  | '\x08' => some 'b'
  | '\t' => some 't'
  | '\n' => some 'n'
  | '\x0b' => some 'v'
  | '\x0c' => some 'f'
  | '\r' => some 'r'
  | '\x1b' => some 'e'
  | '"' => some '"'
  | '\\' => some '\\'
  | '\u0085' => some 'N'
  | '\u00a0' => some '_'
  | '\u2028' => some 'L'
  | '\u2029' => some 'P'
  | _ => none

/-- Digits in upper case. -/
def upperHex (digits n : Nat) : List Char := (Text.hex digits n).map Char.toUpper

/-- The escape of a letter that needs one inside double quotes. -/
def escaped? (l : Text.Letter) : Option (List Char) :=
  let letter := match l with
    | .char c => escapeLetter? c
    | .half _ => none
  match letter with
  | some letter => some ['\\', letter]
  | none =>
    if 0x20 ≤ l.code ∧ l.code ≤ 0x7E then none
    else if l.code ≤ 0xFF then some ('\\' :: 'x' :: upperHex 2 l.code)
    else if l.code ≤ 0xFFFF then some ('\\' :: 'u' :: upperHex 4 l.code)
    else some ('\\' :: 'U' :: upperHex 8 l.code)

/-- A new line inside double quotes, and the column after it. A space that comes next needs a
backslash. -/
def doubleMargin (indent : Nat) (next : Option Text.Letter) : List Char × Nat :=
  if next = some (.char ' ') then ('\\' :: margin indent ++ ['\\'], indent + 1)
  else ('\\' :: margin indent, indent)

/-- Writes a text in double quotes from a column on. A long line may end in front of a space, or
next to an escape. -/
def writeDouble (fold : Bool) (indent : Nat) : Bool → Bool → Nat → List Text.Letter → List Char
  | _, _, _, [] => []
  | first, afterEscape, column, l :: rest =>
    let mayFold := fold && !first && !rest.isEmpty
    match escaped? l with
    | some escape =>
      let column := column + escape.length
      if mayFold && width + 1 < column then
        let (gap, column) := doubleMargin indent rest.head?
        escape ++ gap ++ writeDouble fold indent false true column rest
      else escape ++ writeDouble fold indent false true column rest
    | none =>
      if mayFold && (l == .char ' ' || afterEscape) && width < column then
        let (gap, column) := doubleMargin indent (some l)
        gap ++ l.spell ++ writeDouble fold indent false false (column + 1) rest
      else l.spell ++ writeDouble fold indent false false (column + 1) rest

/-- A text in its style, from a column on. -/
def writeText (style : Style) (fold : Bool) (indent column : Nat) (s : String) : List Char :=
  let cs := s.toList
  match style with
  | .plain => writeWords fold indent column (runs cs)
  | .single => '\'' :: writeRuns fold indent true (column + 1) (runs cs) ++ ['\'']
  | .double => '"' :: writeDouble fold indent true false (column + 1) (Text.letters cs) ++ ['"']

/-- A double; its exponent comes after a point. -/
def writeFloat (x : Float) : String :=
  let text := floatText ".inf" "-.inf" ".nan" x
  if text.contains 'e' && !text.contains '.' then text.replace "e" ".0e" else text

/-- The text and the style of a scalar, and the length of the tag that it could have. -/
def scalarText : Plain → String × Style × Nat
  | .null => ("null", .plain, 6)
  | .bool b => (if b then "true" else "false", .plain, 6)
  | .int n => (toString n, .plain, 5)
  | .float x => (writeFloat x, .plain, 7)
  | .text s => (s, textStyle s, 5)
  | .list _ => ("[]", .plain, 0)
  | .map _ => ("\x7b\x7d", .plain, 0)
  | p => (p.asText, .plain, 0)

/-! ## Blocks -/

/-- What stands in front of a node on its line. -/
inductive Lead where
  /-- Nothing. -/
  | start
  /-- A mark that a block may follow on the same line. -/
  | mark
  /-- A simple key and its colon. -/
  | key
deriving DecidableEq

/-- A scalar or an empty collection. -/
def writeScalar (p : Plain) (indent : Nat) (lead : Lead) (column : Nat) : List Char :=
  let (text, style, _) := scalarText p
  let deeper := indent + 2
  if lead = .start then writeText style true deeper column text
  else ' ' :: writeText style true deeper (column + 1) text

/-- A break that a key on a line of its own may not hold, which is any but a carriage return. -/
def isKeyBreak (c : Char) : Bool := isBreak c && c != '\r'

/-- A key on its line, if it is short and simple. -/
def simpleKey? (k : Plain) : Option (List Char) :=
  let (text, style, tag) := scalarText k
  let length := (Text.lettersOf text).length
  if length + tag < 128 && text != "" && !text.any isKeyBreak then
    some (writeText style false 0 0 text)
  else none

/-- The indentation of the block that a list or a map makes. -/
def blockIndent (indent : Nat) (lead : Lead) (isList : Bool) : Nat :=
  match lead with
  | .start => indent
  | .mark => indent + 2
  | .key => if isList then indent else indent + 2

/-- What stands in front of the first line of a block. -/
def opening (indent : Nat) : Lead → List Char
  | .start => []
  | .mark => [' ']
  | .key => margin indent

mutual

/-- A value, given the indentation around it and the column that it starts at. -/
def write (indent : Nat) (lead : Lead) (column : Nat) : Plain → List Char
  | .list (p :: rest) =>
    let inner := blockIndent indent lead true
    opening inner lead ++ '-' :: write inner .mark (inner + 1) p ++ writeItems inner rest
  | .map ((k, p) :: rest) =>
    let inner := blockIndent indent lead false
    let entry := match simpleKey? k with
      | some key => key ++ ':' :: write inner .key (inner + key.length + 1) p
      | none =>
        '?' :: writeScalar k inner .mark (inner + 1) ++ margin inner ++
          ':' :: write inner .mark (inner + 1) p
    opening inner lead ++ entry ++ writeEntries inner rest
  | p => writeScalar p indent lead column

/-- Further items of a list. -/
def writeItems (indent : Nat) : List Plain → List Char
  | [] => []
  | p :: rest => margin indent ++ '-' :: write indent .mark (indent + 1) p ++ writeItems indent rest

/-- Further entries of a map. -/
def writeEntries (indent : Nat) : List (Plain × Plain) → List Char
  | [] => []
  | (k, p) :: rest =>
    let entry := match simpleKey? k with
      | some key => key ++ ':' :: write indent .key (indent + key.length + 1) p
      | none =>
        '?' :: writeScalar k indent .mark (indent + 1) ++ margin indent ++
          ':' :: write indent .mark (indent + 1) p
    margin indent ++ entry ++ writeEntries indent rest

end

/-- Whether a value is a scalar in plain style, after which a document has to be ended. -/
def isBareScalar (p : Plain) : Bool :=
  match p with
  | .list _ | .map _ => false
  | p => (scalarText p).2.1 = .plain

/-- The document of a value. -/
def text (p : Plain) : String :=
  String.ofList (write 0 .start 0 p ++ (if isBareScalar p then "\n...\n" else "\n").toList)

end GraphLisp.Yaml
