/-!
# Positions in a YAML document

A cursor is the rest of a document with the place where it starts. Lines end with a line feed, a
carriage return, both of them in that order, or one of three further break characters.
-/

namespace GraphLisp.Yaml

/-- A character that ends a line. -/
def isBreak (c : Char) : Bool :=
  c == '\n' || c == '\r' || c == '\u0085' || c == '\u2028' || c == '\u2029'

/-- Whether a line ends here: at a break or at the end of the document. -/
def isLineEnd : Option Char → Bool
  | none => true
  | some c => isBreak c

/-- Whether a word ends here: at a space, a tab or the end of a line. -/
def isGap : Option Char → Bool
  | none => true
  | some c => c == ' ' || c == '\t' || isBreak c

/-- Whether the text begins with a mark between documents, on its own. -/
def isDocumentMark : List Char → Bool
  | '-' :: '-' :: '-' :: rest => isGap rest.head?
  | '.' :: '.' :: '.' :: rest => isGap rest.head?
  | _ => false

/-- The rest of a document, and where it starts. -/
structure Cursor where
  rest : List Char
  index : Nat
  line : Nat
  column : Nat

namespace Cursor

/-- The next character. -/
def peek (c : Cursor) : Option Char := c.rest.head?

/-- The character after so many others. -/
def peekAt (c : Cursor) (n : Nat) : Option Char := c.rest[n]?

/-- Passes one character. -/
def advance (c : Cursor) : Cursor :=
  match c.rest with
  | [] => c
  | ch :: rest =>
    if isBreak ch && !(ch == '\r' && rest.head? == some '\n') then
      ⟨rest, c.index + 1, c.line + 1, 0⟩
    else if ch = '\uFEFF' then ⟨rest, c.index + 1, c.line, c.column⟩
    else ⟨rest, c.index + 1, c.line, c.column + 1⟩

/-- Passes so many characters. -/
def drop : Nat → Cursor → Cursor
  | 0, c => c
  | n + 1, c => drop n c.advance

/-- The characters up to the first one that fails a test, and the rest. -/
def span (p : Char → Bool) (c : Cursor) : List Char × Cursor :=
  let found := c.rest.takeWhile p
  (found, c.drop found.length)

/-- Passes the characters up to the first one that fails a test. -/
def skip (p : Char → Bool) (c : Cursor) : Cursor := (c.span p).2

/-- Passes the characters up to the end of the line. -/
def restOfLine (c : Cursor) : List Char × Cursor := c.span fun ch => !isBreak ch

/-- Passes the end of a line, and says what it counts as. -/
def takeBreak (c : Cursor) : Option (Char × Cursor) :=
  match c.rest with
  | '\r' :: '\n' :: _ => some ('\n', c.advance.advance)
  | '\u2028' :: _ => some ('\u2028', c.advance)
  | '\u2029' :: _ => some ('\u2029', c.advance)
  | ch :: _ => if isBreak ch then some ('\n', c.advance) else none
  | [] => none

/-- Passes line ends with what comes in front of each, and says what they count as. Every line
end takes one unit of fuel. -/
def takeBreaks (before : Cursor → Cursor) : Nat → Cursor → List Char × Cursor
  | 0, c => ([], before c)
  | fuel + 1, c =>
    match (before c).takeBreak with
    | none => ([], before c)
    | some (ch, c) =>
      let (rest, c) := takeBreaks before fuel c
      (ch :: rest, c)

end Cursor

end GraphLisp.Yaml
