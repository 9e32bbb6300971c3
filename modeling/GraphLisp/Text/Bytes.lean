import GraphLisp.Text.Surrogate
/-!
# Bytes that spell a text

One to four bytes spell a character. Any bytes can be read in pieces: characters, and between them
stray bytes, as many at a time as could begin a character. Where the bytes are to be shown, each
piece that is stray gives one replacement character. Where they are a name, each stray byte gives
half of a surrogate pair of its own, so that the name gives back its bytes.
-/

namespace GraphLisp.Text

/-- A part of what bytes spell. -/
inductive Piece where
  | char (c : Char)
  /-- Bytes that spell no character: as many as begin one, or a byte that begins none. -/
  | stray (bytes : List Nat)

/-- The beginning of a character. -/
structure Begun where
  /-- The bytes of it, the last one first. -/
  bytes : List Nat
  /-- The number that they spell so far. -/
  code : Nat
  /-- How many bytes are still to come. -/
  owed : Nat
  /-- The least that the next byte may be. -/
  low : Nat
  /-- The greatest that the next byte may be. -/
  high : Nat

/-- What a byte begins: a whole character, part of one, or none. -/
def opening (b : Nat) : List Piece × Option Begun :=
  if b < 0x80 then ([.char (Char.ofNat b)], none)
  else if b < 0xC2 then ([.stray [b]], none)
  else if b < 0xE0 then ([], some ⟨[b], b - 0xC0, 1, 0x80, 0xBF⟩)
  else if b = 0xE0 then ([], some ⟨[b], 0, 2, 0xA0, 0xBF⟩)
  else if b = 0xED then ([], some ⟨[b], 0xD, 2, 0x80, 0x9F⟩)
  else if b < 0xF0 then ([], some ⟨[b], b - 0xE0, 2, 0x80, 0xBF⟩)
  else if b = 0xF0 then ([], some ⟨[b], 0, 3, 0x90, 0xBF⟩)
  else if b < 0xF4 then ([], some ⟨[b], b - 0xF0, 3, 0x80, 0xBF⟩)
  else if b = 0xF4 then ([], some ⟨[b], 4, 3, 0x80, 0x8F⟩)
  else ([.stray [b]], none)

/-- The pieces that a further byte completes, and what is begun after it. -/
def Begun.add (p : Begun) (b : Nat) : List Piece × Option Begun :=
  if p.low ≤ b ∧ b ≤ p.high then
    let code := p.code * 64 + (b - 0x80)
    if p.owed ≤ 1 then ([.char (Char.ofNat code)], none)
    else ([], some ⟨b :: p.bytes, code, p.owed - 1, 0x80, 0xBF⟩)
  else
    let (pieces, begun) := opening b
    (.stray p.bytes.reverse :: pieces, begun)

/-- The pieces of bytes, after the beginning of a character. -/
def piecesAfter : Option Begun → List Nat → List Piece
  | none, [] => []
  | some p, [] => [.stray p.bytes.reverse]
  | begun, b :: rest =>
    let (pieces, begun) := begun.elim (opening b) (·.add b)
    pieces ++ piecesAfter begun rest

/-- The pieces of bytes. -/
def pieces (b : ByteArray) : List Piece := piecesAfter none (b.toList.map UInt8.toNat)

/-! ## Showing bytes -/

/-- The character in place of what is none. -/
def replacement : Char := Char.ofNat 0xFFFD

/-- The text of bytes, with a replacement character for each piece that is stray. -/
def showBytes (b : ByteArray) : String :=
  ofChars ((pieces b).map fun
    | .char c => c
    | .stray _ => replacement)

/-! ## Names of files -/

/-- The half that stands for the byte 0. Only bytes from 0x80 on can be stray. -/
def strayHalf : Nat := 0xDC00

/-- The letters of a piece of a name. -/
def Piece.letters : Piece → List Letter
  | .char c => [.char c]
  | .stray bytes => bytes.map fun b => .half (strayHalf + b)

/-- The bytes of a letter in a name. Only the halves that stand for stray bytes have any. -/
def Letter.bytes? : Letter → Option (List Nat)
  | .char c => some ((String.singleton c).toUTF8.toList.map UInt8.toNat)
  | .half unit =>
    if strayHalf + 0x80 ≤ unit ∧ unit < strayHalf + 0x100 then some [unit - strayHalf] else none

/-- The bytes of a name. -/
def nameBytes? (name : String) : Option (List Nat) :=
  ((lettersOf name).mapM Letter.bytes?).map List.flatten

/-- The name that bytes spell. -/
def nameOfBytes (bytes : List Nat) : String :=
  String.ofList (((piecesAfter none bytes).flatMap Piece.letters).flatMap Letter.spell)

/-- Whether numbers come before others, or are the same: the first that differ decide. -/
def areAtMost : List Nat → List Nat → Bool
  | [], _ => true
  | _ :: _, [] => false
  | m :: ms, n :: ns => m < n || (m == n && areAtMost ms ns)

/-- Whether a text comes before another one, by the code points of the letters, or is the same. -/
def isAtMost (s t : String) : Bool :=
  areAtMost ((lettersOf s).map Letter.code) ((lettersOf t).map Letter.code)

end GraphLisp.Text
