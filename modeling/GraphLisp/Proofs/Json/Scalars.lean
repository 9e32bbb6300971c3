import GraphLisp.Json.Reader
import GraphLisp.Json.Writer
import Mathlib.Data.List.TakeDrop
/-!
# Strings and numbers read back

What is written for a string or a whole number is read back, whatever follows a string, and as long
as what follows a number is no part of one.
-/

namespace GraphLisp.Json

/-! ## Strings -/

theorem hexNat_hex : ∀ n < 0x20, ∃ a b c d, Text.hex 4 n = [a, b, c, d] ∧ hexNat? [a, b, c, d] = some n := by
  have hlength : ∀ n < 0x20, (Text.hex 4 n).length = 4 ∧ hexNat? (Text.hex 4 n) = some n := by decide
  intro n hn
  obtain ⟨hl, hx⟩ := hlength n hn
  match h : Text.hex 4 n, hl with
  | [a, b, c, d], _ => exact ⟨a, b, c, d, rfl, h ▸ hx⟩

theorem join_char (c : Char) (ps : List Piece) : join (.char c :: ps) = c :: join ps := by
  cases ps <;> rfl

/-- A unit that stands for a control character is that character. -/
theorem join_control {n : Nat} (hn : n < 0x20) (ps : List Piece) :
    join (.unit n :: ps) = Char.ofNat n :: join ps := by
  have hspell : (Text.letterOfUnit n).spell = [Char.ofNat n] := by
    revert n; decide
  cases ps with
  | nil => simp [join, hspell]
  | cons p ps =>
    cases p with
    | char c => simp [join, hspell]
    | unit low =>
      rw [join, if_neg (by omega), hspell]
      rfl

/-- A written character is read as one piece, which stands for it. -/
theorem pieces_writtenChar (c : Char) {cs rest : List Char} {ps : List Piece}
    (h : pieces cs = some (ps, rest)) :
    ∃ p, pieces (writtenChar c ++ cs) = some (p :: ps, rest) ∧ join (p :: ps) = c :: join ps := by
  unfold writtenChar
  split
  iterate 7 exact ⟨.char _, by simp [pieces, escape?, h], join_char _ _⟩
  split
  · next hn =>
    obtain ⟨a, b, c', d, hhex, hnat⟩ := hexNat_hex c.toNat hn
    refine ⟨.unit c.toNat, ?_, ?_⟩
    · rw [hhex]
      simp [pieces, hnat, h]
    · rw [join_control hn, Char.ofNat_toNat]
  · next hq hb _ _ _ _ _ hn =>
    refine ⟨.char c, ?_, join_char _ _⟩
    rw [List.singleton_append, pieces.eq_def]
    split <;> simp_all

theorem pieces_written (cs rest : List Char) :
    ∃ ps, pieces (cs.flatMap writtenChar ++ '"' :: rest) = some (ps, rest) ∧ join ps = cs := by
  induction cs with
  | nil => exact ⟨[], rfl, rfl⟩
  | cons c cs ih =>
    obtain ⟨ps, hps, hjoin⟩ := ih
    obtain ⟨p, hp, hj⟩ := pieces_writtenChar c hps
    refine ⟨p :: ps, ?_, ?_⟩
    · rw [List.flatMap_cons, List.append_assoc, hp]
    · rw [hj, hjoin]

theorem writtenString_toList (s : String) :
    (writtenString s).toList = '"' :: (s.toList.flatMap writtenChar ++ ['"']) := by
  simp [writtenString]

/-- A written string is read back after its opening quote. -/
theorem string_written (s : String) (rest : List Char) :
    string (s.toList.flatMap writtenChar ++ '"' :: rest) = .ok (s, rest) := by
  obtain ⟨ps, hps, hjoin⟩ := pieces_written s.toList rest
  unfold string
  rw [hps]
  simp [hjoin]

/-! ## Numbers -/

/-- What follows a value: the end of the text, of an item or of a line. -/
inductive Stops : List Char → Prop where
  | nil : Stops []
  | comma (rest : List Char) : Stops (',' :: rest)
  | line (rest : List Char) : Stops ('\n' :: rest)

theorem digits_append {ds rest : List Char} (hd : ∀ c ∈ ds, c.isDigit = true) (hr : Stops rest) :
    digits (ds ++ rest) = (ds, rest) := by
  unfold digits
  rw [List.span_eq_takeWhile_dropWhile, List.takeWhile_append_of_pos hd, List.dropWhile_append_of_pos hd]
  cases hr <;> simp

/-- The digits of a number other than zero begin with none. -/
theorem toDigits_cons {n : Nat} (hn : 0 < n) : ∃ c cs, Nat.toDigits 10 n = c :: cs ∧ c ≠ '0' := by
  induction n using Nat.strongRecOn with
  | ind n ih =>
    rw [Nat.toDigits_eq_if (by decide)]
    split
    · next hlt =>
      have hdigit : ∀ n < 10, 0 < n → n.digitChar ≠ '0' := by decide
      exact ⟨_, [], rfl, hdigit n hlt hn⟩
    · obtain ⟨c, cs, hcs, hc⟩ := ih (n / 10) (by omega) (by omega)
      exact ⟨c, cs ++ [_], by rw [hcs]; rfl, hc⟩

theorem isDigit_toDigits {n : Nat} : ∀ c ∈ Nat.toDigits 10 n, c.isDigit = true :=
  fun _ => Nat.isDigit_of_mem_toDigits (by decide) (by decide)

theorem natOf_toDigits {n : Nat} : natOf (Nat.toDigits 10 n) = n := by
  rw [natOf, ← Nat.ofDigitChars_eq_foldl, Nat.ofDigitChars_ten_toDigits]

theorem length_toDigits {n k : Nat} (hk : 0 < k) (hn : n < Decimal.tenTo k) :
    (Nat.toDigits 10 n).length ≤ k :=
  (Nat.length_toDigits_le_iff (by decide) hk).mpr hn

/-- The digits of a number are read up to what follows them. -/
theorem unsigned_digits (negative : Bool) {n : Nat} (hn : n < Decimal.firstTooLong) {rest : List Char}
    (hr : Stops rest) :
    unsigned negative (Nat.toDigits 10 n ++ rest) = .ok (.int (Text.withSign negative n), rest) := by
  have hlong : ¬Decimal.maxDigits < (Nat.toDigits 10 n).length :=
    Nat.not_lt.mpr (length_toDigits (by decide) hn)
  have hfraction : fraction rest = ([], rest) := by cases hr <;> rfl
  have hexponent : exponent rest = (none, rest) := by cases hr <;> rfl
  have hdigits : digits (Nat.toDigits 10 n ++ rest) = (Nat.toDigits 10 n, rest) :=
    digits_append isDigit_toDigits hr
  have hnat := natOf_toDigits (n := n)
  rcases Nat.eq_zero_or_pos n with rfl | hpos
  · simp [unsigned, hfraction, hexponent, Decimal.maxDigits, natOf, Nat.toDigits_zero]
  · obtain ⟨c, cs, hcs, hc⟩ := toDigits_cons hpos
    rw [hcs] at hdigits hlong hnat ⊢
    rw [List.cons_append] at hdigits ⊢
    rw [List.length_cons] at hlong
    simp [unsigned, hc, hdigits, hfraction, hexponent, hnat, hlong]

/-- What is read as a number if it begins with a digit. -/
theorem number_digit {c : Char} (hc : c.isDigit = true) (cs : List Char) :
    number (c :: cs) = unsigned false (c :: cs) ∧ number ('-' :: c :: cs) = unsigned true (c :: cs) := by
  have hsign : c ≠ '-' := by rintro rfl; contradiction
  have hword : c ≠ 'I' := by rintro rfl; contradiction
  constructor
  · unfold number
    split <;> simp_all
  · unfold number
    split <;> simp_all

theorem number_digits (n : Nat) (rest : List Char) :
    number (Nat.toDigits 10 n ++ rest) = unsigned false (Nat.toDigits 10 n ++ rest) ∧
      number ('-' :: (Nat.toDigits 10 n ++ rest)) = unsigned true (Nat.toDigits 10 n ++ rest) := by
  obtain ⟨c, cs, h⟩ := List.exists_cons_of_ne_nil (Nat.toDigits_ne_nil (n := n) (b := 10))
  rw [h]
  exact number_digit (isDigit_toDigits c (h ▸ List.mem_cons_self)) (cs ++ rest)

/-- A written number is read back. -/
theorem number_written {n : Int} (hn : Decimal.isWritable n = true) {rest : List Char} (hr : Stops rest) :
    number ((toString n).toList ++ rest) = .ok (.int n, rest) := by
  have hn : n.natAbs < Decimal.firstTooLong := of_decide_eq_true hn
  rw [Int.toString_eq_repr, Int.repr_eq_if]
  split
  · have hnat : n.toNat < Decimal.firstTooLong := by omega
    have hint : Text.withSign false n.toNat = n := by
      rw [Text.withSign]
      exact Int.toNat_of_nonneg ‹0 ≤ n›
    rw [Nat.toList_repr, (number_digits _ rest).1, unsigned_digits false hnat hr, hint]
  · have hnat : (-n).toNat < Decimal.firstTooLong := by omega
    have hint : Text.withSign true (-n).toNat = n := by
      rw [Text.withSign, if_pos rfl, Int.ofNat_eq_natCast]
      omega
    rw [String.toList_append, Nat.toList_repr, List.append_assoc]
    change number ('-' :: (Nat.toDigits 10 (-n).toNat ++ rest)) = _
    rw [(number_digits _ rest).2, unsigned_digits true hnat hr, hint]

end GraphLisp.Json
