/-!
# Halves of surrogate pairs

An escape may name one half of a surrogate pair, which is no character. So a text is a list of
letters, each a character or such a half, spelt out in a string: a mark, which is the last of all
code points, and after it what the mark stands for. Every other character spells itself.
`letters_spell` says that the letters can be told from the spelling.
-/

namespace GraphLisp.Text

/-- A character, or half of a surrogate pair by its number. -/
inductive Letter where
  | char (c : Char)
  | half (unit : Nat)
deriving DecidableEq

/-- The first of the halves. -/
def firstHalf : Nat := 0xD800

/-- The character in front of what would otherwise spell something else. -/
def mark : Char := Char.ofNat 0x10FFFF

/-- The character that stands for a half after a mark. -/
def standIn (unit : Nat) : Char := Char.ofNat (0xE000 + (unit - firstHalf))

/-- The spelling of a letter. -/
def Letter.spell : Letter → List Char
  | .char c => if c = mark then [mark, mark] else [c]
  | .half unit => [mark, standIn unit]

/-- The letter that a character after a mark stands for. -/
def marked (c : Char) : Letter :=
  if c = mark then .char mark else .half (c.toNat - 0xE000 + firstHalf)

/-- The letters of a spelling. -/
def letters : List Char → List Letter
  | [] => []
  | [c] => [.char c]
  | c :: d :: rest => if c = mark then marked d :: letters rest else .char c :: letters (d :: rest)

/-- The letter of a code unit. -/
def letterOfUnit (unit : Nat) : Letter :=
  if firstHalf ≤ unit ∧ unit < firstHalf + 0x800 then .half unit else .char (Char.ofNat unit)

/-- The code point that a letter is written by. -/
def Letter.code : Letter → Nat
  | .char c => c.toNat
  | .half unit => unit

/-- Characters, spelt. -/
def spell (cs : List Char) : List Char := cs.flatMap fun c => (Letter.char c).spell

/-- The text of characters. -/
def ofChars (cs : List Char) : String := String.ofList (spell cs)

/-- The letters of a text. -/
def lettersOf (s : String) : List Letter := letters s.toList

/-- The characters of a text, unless there is a half among its letters. -/
def chars? (s : String) : Option (List Char) :=
  (lettersOf s).mapM fun
    | .char c => some c
    | .half _ => none

/-- The text of bytes that spell characters. -/
def ofBytes? (b : ByteArray) : Option String := (String.fromUTF8? b).map fun s => ofChars s.toList

/-- The bytes that spell the characters of a text. Halves have none. -/
def toBytes? (s : String) : Option ByteArray := (chars? s).map fun cs => (String.ofList cs).toUTF8

/-- What stands before and after the first occurrence of some letters. -/
def around? (part : List Letter) : List Letter → Option (List Letter × List Letter)
  | [] => if part.isEmpty then some ([], []) else none
  | l :: rest =>
    if part.isPrefixOf (l :: rest) then some ([], (l :: rest).drop part.length)
    else (around? part rest).map fun (before, after) => (l :: before, after)

/-- A text with the first occurrence of another one replaced, if there is one. -/
def replaceFirst? (old new s : String) : Option String :=
  (around? (lettersOf old) (lettersOf s)).map fun (before, after) =>
    String.ofList ((before ++ lettersOf new ++ after).flatMap Letter.spell)

/-! ## Letters and their spelling -/

theorem letters_spell_char (c : Char) (rest : List Char) :
    letters ((Letter.char c).spell ++ rest) = .char c :: letters rest := by
  by_cases h : c = mark
  · subst h; simp [Letter.spell, letters, marked]
  · cases rest <;> simp [Letter.spell, letters, h]

/-- The letters of spelt characters are these characters. -/
theorem letters_spell (cs : List Char) : letters (spell cs) = cs.map .char := by
  induction cs with
  | nil => rfl
  | cons c cs ih =>
    simp only [spell, List.flatMap_cons, List.map_cons] at ih ⊢
    rw [letters_spell_char, ih]

end GraphLisp.Text
