import GraphLisp.Print
import GraphLisp.Proofs.Structure.Flattened
import Std.Data.String.ToInt
/-!
# Printed text determines the structure

Without names, the text of a structure can be read in one way only, as long as its symbols do not look
like something else (`Structure.isLegible`). The proof reads two equal texts side by side: what is in front
must be the same, and so are the rests. Words (numbers, truth values, nodes and symbols) end where a space or
a parenthesis begins, strings end at the first quote that is not escaped, and lists where their
parenthesis is closed.
-/

namespace GraphLisp

/-! ## Texts side by side -/

theorem takeWhile_front {p : Char → Bool} {w r : List Char} (hw : ∀ c ∈ w, p c = true)
    (hr : ∀ c ∈ r.head?, p c = false) : (w ++ r).takeWhile p = w := by
  rw [List.takeWhile_append_of_pos hw]
  cases r with
  | nil => simp
  | cons c r => simp [hr c rfl]

/-- Where the letters in front that pass a test end depends on the text only. -/
theorem append_cut {p : Char → Bool} {w w' r r' : List Char} (hw : ∀ c ∈ w, p c = true) (hw' : ∀ c ∈ w', p c = true)
    (hr : ∀ c ∈ r.head?, p c = false) (hr' : ∀ c ∈ r'.head?, p c = false) (h : w ++ r = w' ++ r') :
    w = w' ∧ r = r' := by
  have hfront : w = w' := by
    rw [← takeWhile_front hw hr, h, takeWhile_front hw' hr']
  subst hfront
  exact ⟨rfl, List.append_cancel_left h⟩

/-- Characters that end a word. -/
def isDelimiter (c : Char) : Bool := c == ' ' || c == '(' || c == ')' || c == '"'

/-- What can follow a structure in a text: nothing, the next element, or the end of the list. -/
def Closes (rest : List Char) : Prop := ∀ c ∈ rest.head?, c = ' ' ∨ c = ')'

theorem closes_nil : Closes [] := nofun

theorem closes_space (rest : List Char) : Closes (' ' :: rest) := by
  simp [Closes]

theorem closes_parenthesis (rest : List Char) : Closes (')' :: rest) := by
  simp [Closes]

theorem Closes.delimits {rest : List Char} (h : Closes rest) : ∀ c ∈ rest.head?, (!isDelimiter c) = false := by
  intro c hc
  rcases h c hc with rfl | rfl
  · rfl
  · rfl

/-! ## Strings -/

namespace Structure

theorem stringChar_cons (c : Char) : ∃ d cs, stringChar c = d :: cs ∧ d ≠ '"' := by
  unfold stringChar
  split
  · exact ⟨_, _, rfl, by decide⟩
  · exact ⟨_, _, rfl, by decide⟩
  · exact ⟨_, _, rfl, by decide⟩
  · next hquote _ => exact ⟨_, _, rfl, hquote⟩

/-- A character inside a string is told from any other, whatever follows. -/
theorem stringChar_cut {c d : Char} {r r' : List Char} (h : stringChar c ++ r = stringChar d ++ r') :
    c = d ∧ r = r' := by
  -- an escape is told by its second letter, and no other character looks like its first
  unfold stringChar at h
  split at h <;> split at h <;> grind

/-- A string ends at the first quote that is not escaped. -/
theorem stringChars_cut {s t r r' : List Char}
    (h : s.flatMap stringChar ++ '"' :: r = t.flatMap stringChar ++ '"' :: r') : s = t ∧ r = r' := by
  induction s generalizing t with
  | nil =>
    cases t with
    | nil => exact ⟨rfl, List.tail_eq_of_cons_eq h⟩
    | cons d t =>
      obtain ⟨e, cs, hd, he⟩ := stringChar_cons d
      rw [List.flatMap_cons, hd] at h
      cases he (List.head_eq_of_cons_eq h).symm
  | cons c s ih =>
    cases t with
    | nil =>
      obtain ⟨e, cs, hc, he⟩ := stringChar_cons c
      rw [List.flatMap_cons, hc] at h
      cases he (List.head_eq_of_cons_eq h)
    | cons d t =>
      rw [List.flatMap_cons, List.flatMap_cons, List.append_assoc, List.append_assoc] at h
      obtain ⟨rfl, hrest⟩ := stringChar_cut h
      obtain ⟨rfl, hr⟩ := ih hrest
      exact ⟨rfl, hr⟩

/-! ## Words -/

/-- Digits, perhaps after a minus. -/
def isNumeral : List Char → Bool
  | '-' :: ds => !ds.isEmpty && ds.all Char.isDigit
  | ds => !ds.isEmpty && ds.all Char.isDigit

/-- A name that cannot be taken for anything but a symbol. Blanks other than the space do no harm. -/
def isReadable (name : String) : Bool :=
  !name.isEmpty && name.toList.all (!isDelimiter ·) && name.toList.head? != some '$' && name != "." &&
    name != "true" && name != "false" && !isNumeral name.toList

/-- Whether a structure consists of atoms with readable symbols, nodes and pairs. -/
def isLegible : Structure → Bool
  | .sym name => isReadable name
  | .pair a d => a.isLegible && d.isLegible
  | .proc _ _ _ | .nothing => false
  | _ => true

/-- What kinds of words there are. -/
inductive Word where
  | number
  | truth
  | node
  | symbol
deriving DecidableEq

/-- The kind of a word by its letters. -/
def Word.of (w : List Char) : Word :=
  if isNumeral w then .number
  else if w = "true".toList ∨ w = "false".toList then .truth
  else if w.head? = some '$' then .node
  else .symbol

/-- The kind of the word that a structure prints as, if it prints as one. -/
def word? : Structure → Option Word
  | .int _ => some .number
  | .bool _ => some .truth
  | .node _ => some .node
  | .sym _ => some .symbol
  | _ => none

/-- The letters of a printed structure. -/
def text (s : Structure) : List Char := (s.print .none).toList

theorem text_int (n : Int) : (int n).text = n.repr.toList := rfl

theorem text_bool (b : Bool) : (bool b).text = if b then "true".toList else "false".toList := by
  cases b <;> rfl

theorem text_sym (name : String) : (sym name).text = name.toList := rfl

theorem text_str (s : String) : (str s).text = '"' :: (s.toList.flatMap stringChar ++ ['"']) := by
  change (stringText s).toList = _
  simp [stringText]

theorem text_node (n : Node) : (node n).text = '$' :: (n.env.repr.toList ++ ':' :: n.id.repr.toList) := by
  have hdollar : (toString "$").toList = ['$'] := by decide
  have hcolon : (toString ":").toList = [':'] := by decide
  change (nodeText n).toList = _
  simp [nodeText, hdollar, hcolon]

/-- The letters of a whole number. -/
theorem toList_repr (n : Int) :
    n.repr.toList = if 0 ≤ n then Nat.toDigits 10 n.toNat else '-' :: Nat.toDigits 10 (-n).toNat := by
  rw [Int.repr_eq_if]
  split
  · rw [Nat.toList_repr]
  · rw [String.toList_append, Nat.toList_repr]
    rfl

theorem isDigit_of_mem {n : Nat} {c : Char} (h : c ∈ Nat.toDigits 10 n) : c.isDigit = true :=
  Nat.isDigit_of_mem_toDigits (by decide) (by decide) h

/-- A whole number consists of digits and perhaps a minus. -/
theorem mem_repr {n : Int} {c : Char} (h : c ∈ n.repr.toList) : c.isDigit = true ∨ c = '-' := by
  rw [toList_repr] at h
  split at h
  · exact .inl (isDigit_of_mem h)
  · rcases List.mem_cons.1 h with rfl | h
    · exact .inr rfl
    · exact .inl (isDigit_of_mem h)

theorem ne_of_mem_repr {n : Int} {c d : Char} (h : c ∈ n.repr.toList) (hd : d.isDigit = false) (hminus : d ≠ '-') :
    c ≠ d := by
  rintro rfl
  rcases mem_repr h with hdigit | heq
  · cases hdigit.symm.trans hd
  · exact hminus heq

theorem repr_colon {n : Int} : ∀ c ∈ n.repr.toList, (c != ':') = true := by
  intro c hc
  simp [ne_of_mem_repr hc]

theorem repr_plain {n : Int} : ∀ c ∈ n.repr.toList, (!isDelimiter c) = true := by
  intro c hc
  simp [isDelimiter, ne_of_mem_repr hc]

theorem isNumeral_repr (n : Int) : isNumeral n.repr.toList = true := by
  have hdigits : ∀ n : Nat, (!(Nat.toDigits 10 n).isEmpty && (Nat.toDigits 10 n).all Char.isDigit) = true := by
    intro n
    rw [Bool.and_eq_true, List.all_eq_true]
    constructor
    · simp [Nat.toDigits_ne_nil]
    · intro c hc
      exact isDigit_of_mem hc
  rw [toList_repr]
  split
  · unfold isNumeral
    split
    · next ds heq =>
      -- a minus in front would be one of the digits
      have hminus : '-' ∈ Nat.toDigits 10 n.toNat := by simp [heq]
      cases isDigit_of_mem hminus
    · exact hdigits _
  · exact hdigits _

/-- The kind of a word shows in its letters. -/
theorem word_text {s : Structure} {w : Word} (hs : s.isLegible = true) (hw : s.word? = some w) : Word.of s.text = w := by
  cases s with
  | int n =>
    cases hw
    rw [text_int, Word.of, if_pos (isNumeral_repr n)]
  | bool b =>
    cases hw
    cases b <;> decide
  | node n =>
    cases hw
    rw [text_node]
    simp [Word.of, isNumeral, Char.isDigit]
  | sym name =>
    cases hw
    simp only [isLegible, isReadable, Bool.and_eq_true, bne_iff_ne, Bool.not_eq_true'] at hs
    obtain ⟨⟨⟨⟨⟨-, hdollar⟩, -⟩, htrue⟩, hfalse⟩, hnumeral⟩ := hs
    rw [text_sym]
    simp only [Word.of, String.toList_inj, hnumeral, htrue, hfalse, hdollar, or_false, if_false, Bool.false_eq_true]
  | str | nil | pair | proc | nothing => cases hw

/-- A word has no delimiters. -/
theorem text_plain {s : Structure} {w : Word} (hs : s.isLegible = true) (hw : s.word? = some w) :
    ∀ c ∈ s.text, (!isDelimiter c) = true := by
  cases s with
  | int n => exact repr_plain
  | bool b =>
    have hall : (bool b).text.all (!isDelimiter ·) = true := by cases b <;> rfl
    exact List.all_eq_true.1 hall
  | node n =>
    intro c hc
    rw [text_node] at hc
    simp only [List.mem_cons, List.mem_append] at hc
    rcases hc with rfl | hc | rfl | hc
    · rfl
    · exact repr_plain c hc
    · rfl
    · exact repr_plain c hc
  | sym name =>
    simp only [isLegible, isReadable, Bool.and_eq_true, List.all_eq_true] at hs
    exact hs.1.1.1.1.1.2
  | str | nil | pair | proc | nothing => cases hw

theorem text_ne_nil {s : Structure} {w : Word} (hs : s.isLegible = true) (hw : s.word? = some w) : s.text ≠ [] := by
  intro h
  cases s with
  | int n =>
    have hnumeral := isNumeral_repr n
    rw [← text_int, h] at hnumeral
    cases hnumeral
  | bool b => cases b <;> cases h
  | node n =>
    rw [text_node] at h
    cases h
  | sym name =>
    rw [text_sym, String.toList_eq_nil_iff] at h
    subst h
    cases hs
  | str | nil | pair | proc | nothing => cases hw

/-- A word is told from any other. -/
theorem eq_of_text {a b : Structure} {w w' : Word} (ha : a.isLegible = true) (hb : b.isLegible = true)
    (hw : a.word? = some w) (hw' : b.word? = some w') (h : a.text = b.text) : a = b := by
  have hkind : w = w' := by
    rw [← word_text ha hw, h, word_text hb hw']
  subst hkind
  cases a with
  | int n =>
    cases b with
    | int m => rw [Int.repr_inj.1 (String.toList_inj.1 h)]
    | _ => cases hw.trans hw'.symm
  | bool v =>
    cases b with
    | bool v' =>
      have hv : v = v' := by cases v <;> cases v' <;> simp_all [text_bool]
      rw [hv]
    | _ => cases hw.trans hw'.symm
  | node n =>
    cases b with
    | node m =>
      rw [text_node, text_node] at h
      obtain ⟨henv, hid⟩ := append_cut repr_colon repr_colon (by simp) (by simp) (List.tail_eq_of_cons_eq h)
      have henv := Int.repr_inj.1 (String.toList_inj.1 henv)
      have hid := Int.repr_inj.1 (String.toList_inj.1 (List.tail_eq_of_cons_eq hid))
      obtain ⟨env, id⟩ := n
      obtain rfl : env = m.env := henv
      obtain rfl : id = m.id := hid
      rfl
    | _ => cases hw.trans hw'.symm
  | sym name =>
    cases b with
    | sym name' =>
      have hname : name = name' := String.toList_inj.1 h
      rw [hname]
    | _ => cases hw.trans hw'.symm
  | str | nil | pair | proc | nothing => cases hw

/-! ## Lists -/

/-- The letters between the first element of a list and its closing parenthesis. -/
def tail (d : Structure) : List Char := (d.printRest .none).flatMap fun t => ' ' :: t.toList

theorem text_nil : nil.text = ['(', ')'] := rfl

theorem toList_spaced (t : String) (ts : List String) :
    (" ".intercalate (t :: ts)).toList = t.toList ++ ts.flatMap fun t => ' ' :: t.toList := by
  induction ts generalizing t with
  | nil => simp
  | cons u ts ih =>
    rw [String.intercalate_cons_cons, String.toList_append, String.toList_append, ih, List.flatMap_cons,
      List.append_assoc]
    rfl

theorem text_pair (a d : Structure) : (pair a d).text = '(' :: (a.text ++ (d.tail ++ [')'])) := by
  unfold text tail
  rw [print, String.toList_append, String.toList_append, toList_spaced, List.append_assoc, List.append_assoc]
  rfl

theorem tail_pair (a d : Structure) : (pair a d).tail = ' ' :: (a.text ++ d.tail) := by
  unfold tail
  rw [printRest, List.flatMap_cons]
  rfl

/-- What a list can end in other than the empty list. -/
def isEnd : Structure → Bool
  | .nil | .pair _ _ => false
  | _ => true

theorem tail_end {d : Structure} (hd : d.isEnd = true) : d.tail = ' ' :: '.' :: ' ' :: d.text := by
  cases d with
  | nil | pair => cases hd
  | int | bool | str | sym | node | proc | nothing => simp [tail, text, printRest, print]

/-- The first letter of a text. -/
theorem text_cons {s : Structure} (hs : s.isLegible = true) :
    ∃ c cs, s.text = c :: cs ∧ c ≠ ')' ∧ isDelimiter c = s.word?.isNone := by
  cases hw : s.word? with
  | some w =>
    have hplain := text_plain hs hw
    obtain ⟨c, cs, hc⟩ := List.exists_cons_of_ne_nil (text_ne_nil hs hw)
    rw [hc] at hplain
    have hhead : isDelimiter c = false := by simpa using hplain c List.mem_cons_self
    refine ⟨c, cs, hc, ?_, hhead⟩
    rintro rfl
    cases hhead
  | none =>
    cases s with
    | int | bool | sym | node => cases hw
    | str s => exact ⟨_, _, text_str s, by decide, rfl⟩
    | nil => exact ⟨_, _, text_nil, by decide, rfl⟩
    | pair a d => exact ⟨_, _, text_pair a d, by decide, rfl⟩
    | proc | nothing => cases hs

/-- A word in front of a text ends at the same place as what else may be in front of it. -/
theorem word_cut {a b : Structure} {w : Word} {r r' : List Char} (ha : a.isLegible = true) (hb : b.isLegible = true)
    (hw : a.word? = some w) (hr : Closes r) (hr' : Closes r') (h : a.text ++ r = b.text ++ r') :
    a = b ∧ r = r' := by
  cases hw' : b.word? with
  | some w' =>
    obtain ⟨htext, hrest⟩ := append_cut (text_plain ha hw) (text_plain hb hw') hr.delimits hr'.delimits h
    exact ⟨eq_of_text ha hb hw hw' htext, hrest⟩
  | none =>
    obtain ⟨c, cs, hc, -, hdelimiter⟩ := text_cons ha
    obtain ⟨d, ds, hd, -, hdelimiter'⟩ := text_cons hb
    rw [hc, hd] at h
    obtain rfl : c = d := List.head_eq_of_cons_eq h
    rw [hw, hdelimiter', hw'] at hdelimiter
    cases hdelimiter

/-- No structure prints as the dot in front of the end of a list. -/
theorem text_ne_dot {a : Structure} {r r' : List Char} (ha : a.isLegible = true) (hr : Closes r) :
    a.text ++ r ≠ '.' :: ' ' :: r' := by
  intro h
  cases hw : a.word? with
  | some w =>
    -- the word would end where the dot does, and the only words of that kind are symbols, none of them a dot
    have hdot : ∀ c ∈ ['.'], (!isDelimiter c) = true := by simp [isDelimiter]
    obtain ⟨htext, -⟩ := append_cut (text_plain ha hw) hdot hr.delimits (closes_space r').delimits h
    have hkind := word_text ha hw
    rw [htext] at hkind
    obtain rfl : Word.symbol = w := hkind
    cases a with
    | sym name =>
      obtain rfl : name = "." := String.toList_inj.1 htext
      exact absurd ha (by decide)
    | int | bool | str | nil | node | pair | proc | nothing => cases hw
  | none =>
    obtain ⟨c, cs, hc, -, hdelimiter⟩ := text_cons ha
    rw [hc] at h
    obtain rfl : c = '.' := List.head_eq_of_cons_eq h
    rw [hw] at hdelimiter
    cases hdelimiter

/-- No other structure can be in front of a text that has the structure in front. -/
def Told (a : Structure) : Prop :=
  ∀ ⦃b r r'⦄, a.isLegible = true → b.isLegible = true → Closes r → Closes r' → a.text ++ r = b.text ++ r' →
    a = b ∧ r = r'

/-- No other rest of a list can be in front of its parenthesis. -/
def ToldTail (d : Structure) : Prop :=
  ∀ ⦃d' r r'⦄, d.isLegible = true → d'.isLegible = true → d.tail ++ ')' :: r = d'.tail ++ ')' :: r' →
    d = d' ∧ r = r'

theorem closes_tail (d : Structure) (r : List Char) : Closes (d.tail ++ ')' :: r) := by
  cases d with
  | nil => exact closes_parenthesis r
  | pair a d =>
    rw [tail_pair]
    exact closes_space _
  | int | bool | str | sym | node | proc | nothing =>
    rw [tail_end rfl]
    exact closes_space _

theorem isLegible_pair {a d : Structure} : (pair a d).isLegible = true ↔ a.isLegible = true ∧ d.isLegible = true := by
  rw [isLegible, Bool.and_eq_true]

/-- The first element of a list and what follows it, up to the closing parenthesis. -/
theorem told_items {a d a' d' : Structure} {r r' : List Char} (iha : Told a) (ihd : ToldTail d)
    (hs : (pair a d).isLegible = true) (hs' : (pair a' d').isLegible = true)
    (h : a.text ++ (d.tail ++ ')' :: r) = a'.text ++ (d'.tail ++ ')' :: r')) : pair a d = pair a' d' ∧ r = r' := by
  obtain ⟨ha, hd⟩ := isLegible_pair.1 hs
  obtain ⟨ha', hd'⟩ := isLegible_pair.1 hs'
  obtain ⟨rfl, htail⟩ := iha ha ha' (closes_tail d r) (closes_tail d' r') h
  obtain ⟨rfl, hrest⟩ := ihd hd hd' htail
  exact ⟨rfl, hrest⟩

/-- Where the other text has a word in front, the word decides. -/
theorem told_of_no_word {a : Structure}
    (h : ∀ ⦃b r r'⦄, a.isLegible = true → b.isLegible = true → b.word? = none → a.text ++ r = b.text ++ r' →
      a = b ∧ r = r') : Told a := by
  intro b r r' ha hb hr hr' htext
  cases hw : b.word? with
  | some w =>
    obtain ⟨hba, hrest⟩ := word_cut hb ha hw hr' hr htext.symm
    exact ⟨hba.symm, hrest.symm⟩
  | none => exact h ha hb hw htext

theorem told_word {a : Structure} {w : Word} (hw : a.word? = some w) : Told a := by
  intro b r r' ha hb hr hr' h
  exact word_cut ha hb hw hr hr' h

theorem told_str (s : String) : Told (.str s) := by
  apply told_of_no_word
  intro b r r' _ hb hw h
  rw [text_str] at h
  cases b with
  | str t =>
    rw [text_str] at h
    simp only [List.cons_append, List.append_assoc, List.nil_append, List.cons.injEq, true_and] at h
    obtain ⟨hst, hrest⟩ := stringChars_cut h
    rw [String.toList_inj.1 hst]
    exact ⟨rfl, hrest⟩
  | nil => cases h
  | pair a d =>
    rw [text_pair] at h
    cases h
  | int | bool | sym | node => cases hw
  | proc | nothing => cases hb

/-- The first element of a list is no closing parenthesis. -/
theorem text_pair_ne_nil {a d : Structure} {r r' : List Char} (hs : (pair a d).isLegible = true) :
    (pair a d).text ++ r ≠ nil.text ++ r' := by
  intro h
  obtain ⟨c, cs, hc, hne, -⟩ := text_cons (isLegible_pair.1 hs).1
  rw [text_pair, text_nil, hc] at h
  exact hne (List.head_eq_of_cons_eq (List.tail_eq_of_cons_eq h))

theorem told_nil : Told .nil := by
  apply told_of_no_word
  intro b r r' _ hb hw h
  cases b with
  | nil => exact ⟨rfl, List.append_cancel_left h⟩
  | str s =>
    rw [text_str] at h
    cases h
  | pair a d => exact absurd h.symm (text_pair_ne_nil hb)
  | int | bool | sym | node => cases hw
  | proc | nothing => cases hb

theorem told_pair {a d : Structure} (iha : Told a) (ihd : ToldTail d) : Told (.pair a d) := by
  apply told_of_no_word
  intro b r r' hs hb hw h
  cases b with
  | pair a' d' =>
    rw [text_pair, text_pair] at h
    simp only [List.cons_append, List.append_assoc, List.nil_append, List.cons.injEq, true_and] at h
    exact told_items iha ihd hs hb h
  | nil => exact absurd h (text_pair_ne_nil hs)
  | str s =>
    rw [text_pair, text_str] at h
    cases h
  | int | bool | sym | node => cases hw
  | proc | nothing => cases hb

/-- What follows an element is nothing, a further element, or the end after a dot. -/
theorem tail_cases (d : Structure) : d = .nil ∨ (∃ a e, d = .pair a e) ∨ d.isEnd = true := by
  cases d with
  | nil => exact .inl rfl
  | pair a e => exact .inr (.inl ⟨a, e, rfl⟩)
  | int | bool | str | sym | node | proc | nothing => exact .inr (.inr rfl)

/-- A further element is not taken for the dot in front of the end. -/
theorem tail_pair_ne_end {a e d : Structure} {r r' : List Char} (hs : (pair a e).isLegible = true) (hd : d.isEnd = true) :
    (pair a e).tail ++ ')' :: r ≠ d.tail ++ ')' :: r' := by
  intro h
  rw [tail_pair, tail_end hd, List.cons_append, List.append_assoc] at h
  exact text_ne_dot (isLegible_pair.1 hs).1 (closes_tail e r) (List.tail_eq_of_cons_eq h)

theorem toldTail_nil : ToldTail .nil := by
  intro d r r' _ hd h
  rcases tail_cases d with rfl | ⟨a, e, rfl⟩ | hend
  · exact ⟨rfl, List.tail_eq_of_cons_eq h⟩
  · rw [tail_pair] at h
    cases h
  · rw [tail_end hend] at h
    cases h

theorem toldTail_pair {a e : Structure} (iha : Told a) (ihe : ToldTail e) : ToldTail (.pair a e) := by
  intro d r r' hs hd h
  rcases tail_cases d with rfl | ⟨a', e', rfl⟩ | hend
  · rw [tail_pair] at h
    cases h
  · rw [tail_pair, tail_pair, List.cons_append, List.cons_append, List.append_assoc, List.append_assoc] at h
    exact told_items iha ihe hs hd (List.tail_eq_of_cons_eq h)
  · exact absurd h (tail_pair_ne_end hs hend)

theorem toldTail_end {d : Structure} (hend : d.isEnd = true) (ih : Told d) : ToldTail d := by
  intro d' r r' hd hd' h
  rcases tail_cases d' with rfl | ⟨a, e, rfl⟩ | hend'
  · rw [tail_end hend] at h
    cases h
  · exact absurd h.symm (tail_pair_ne_end hd' hend)
  · rw [tail_end hend, tail_end hend'] at h
    simp only [List.cons_append, List.cons.injEq, true_and] at h
    obtain ⟨rfl, hrest⟩ := ih hd hd' (closes_parenthesis r) (closes_parenthesis r') h
    exact ⟨rfl, List.tail_eq_of_cons_eq hrest⟩

/-- Every structure is told from what follows it, as an element and as the rest of a list. -/
theorem told (s : Structure) : Told s ∧ ToldTail s := by
  -- both at once: a pair has its second part as the rest of a list, and the end of a list is an element after the dot
  induction s using induct with
  | int | bool | sym | node => exact ⟨told_word rfl, toldTail_end rfl (told_word rfl)⟩
  | str s => exact ⟨told_str s, toldTail_end rfl (told_str s)⟩
  | nil => exact ⟨told_nil, toldTail_nil⟩
  | pair a d iha ihd => exact ⟨told_pair iha.1 ihd.2, toldTail_pair iha.1 ihd.2⟩
  | proc | nothing =>
    constructor
    · rintro b r r' ⟨⟩
    · rintro d r r' ⟨⟩

/-- Legible structures are equal only if they are the same. -/
theorem eq_of_same {a b : Structure} (ha : a.isLegible = true) (h : a.same b = true) : a = b := by
  induction a using induct generalizing b with
  | pair a d iha ihd =>
    cases b with
    | pair a' d' =>
      obtain ⟨ha, hd⟩ := isLegible_pair.1 ha
      rw [same, Bool.and_eq_true] at h
      rw [iha ha h.1, ihd hd h.2]
    | int | bool | str | sym | nil | node | proc | nothing => cases h
  | int | bool | str | sym | nil | node => cases b <;> simp_all [same]
  | proc | nothing => cases ha

/-- The printed text determines the structure: among structures made of numbers, truth values, any strings, empty
lists, nodes, readable symbols and pairs of such, two print alike without names only if they are equal,
and then they are the same. -/
theorem printed_alike {a b : Structure} (ha : a.isLegible = true) (hb : b.isLegible = true) :
    (a.print .none = b.print .none ↔ a.same b = true) ∧ (a.same b = true ↔ a = b) := by
  have hsame : a.same b = true ↔ a = b := by
    constructor
    · exact eq_of_same ha
    · rintro rfl
      exact same_self a
  refine ⟨?_, hsame⟩
  rw [hsame]
  constructor
  · intro h
    have htext : a.text ++ [] = b.text ++ [] := by
      rw [text, text, h]
    exact ((told a).1 ha hb closes_nil closes_nil htext).1
  · rintro rfl
    rfl

/-- A list that ends in a symbol after a string with a line break. -/
def broken : Structure := .pair (.str "(\n \" . ") (.pair .nil (.sym "-"))

/-- The same list with a backslash and a letter in place of the line break. -/
def unbroken : Structure := .pair (.str "(\\n \" . ") (.pair .nil (.sym "-"))

theorem broken_printed : broken.isLegible = true ∧ unbroken.isLegible = true ∧
    broken.print .none ≠ unbroken.print .none := by
  have hbroken : broken.isLegible = true := by decide
  have hunbroken : unbroken.isLegible = true := by decide
  refine ⟨hbroken, hunbroken, ?_⟩
  intro h
  have hsame := (printed_alike hbroken hunbroken).1.1 h
  exact absurd hsame (by decide)

end Structure

end GraphLisp
