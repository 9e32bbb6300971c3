import GraphLisp.Proofs.Json.Values
import GraphLisp.Proofs.Text.Surrogate
/-!
# Bytes of what is written

What is written for data of JSON's own kinds has bytes if the texts in it have: between them stand marks,
digits and blanks (`pretty_spelling`).
-/

namespace GraphLisp

open Text

namespace Plain

mutual

/-- Whether every text in a value spells characters. -/
def isSpelled : Plain → Bool
  | .text s => decide (Spelling s.toList)
  | .list items | .tuple items | .set items => areSpelled items
  | .map entries => haveSpelled entries
  | .knot _ content => content.isSpelled
  | _ => true

/-- Whether every text in the items of a list spells characters. -/
def areSpelled : List Plain → Bool
  | [] => true
  | p :: rest => p.isSpelled && areSpelled rest

/-- Whether every text in the entries of a map spells characters. -/
def haveSpelled : List (Plain × Plain) → Bool
  | [] => true
  | (k, p) :: rest => k.isSpelled && p.isSpelled && haveSpelled rest

end

theorem areSpelled_iff {items : List Plain} : areSpelled items = true ↔ ∀ p ∈ items, p.isSpelled = true := by
  induction items with
  | nil => simp [areSpelled]
  | cons p rest ih => simp [areSpelled, ih]

theorem isSpelled_object {fields : List (String × Plain)} :
    (object fields).isSpelled = true ↔ ∀ f ∈ fields, Spelling f.1.toList ∧ f.2.isSpelled = true := by
  rw [object, isSpelled]
  induction fields with
  | nil => simp [haveSpelled]
  | cons f rest ih => simp [haveSpelled, isSpelled, ih]

end Plain

namespace Json

/-! ## Parts of what is written -/

theorem mark_notMem_writtenChar {c : Char} (hc : c ≠ mark) : mark ∉ writtenChar c := by
  have hhex : ∀ n < 0x20, mark ∉ hex 4 n := by decide
  unfold writtenChar
  split
  iterate 7 decide
  split
  · next hn =>
    simp only [List.mem_cons, not_or]
    exact ⟨by decide, by decide, hhex _ hn⟩
  · exact fun h => hc (List.mem_singleton.1 h).symm

/-- Writing what spells characters leaves it a spelling. -/
theorem spelling_written {cs : List Char} (h : Spelling cs) : Spelling (cs.flatMap writtenChar) := by
  obtain ⟨ds, rfl⟩ := h
  induction ds with
  | nil => exact .nil
  | cons d ds ih =>
    rw [spell, List.flatMap_cons, ← spell, List.flatMap_append]
    refine .append ?_ ih
    by_cases hd : d = mark
    · subst hd
      exact ⟨[mark], by decide⟩
    · rw [Letter.spell, if_neg hd, List.flatMap_singleton]
      exact .of_unmarked (mark_notMem_writtenChar hd)

theorem spelling_string {s : String} (h : Spelling s.toList) : Spelling (writtenString s).toList := by
  have hquote : Spelling ['"'] := .of_unmarked (by decide)
  rw [writtenString_toList]
  exact hquote.append ((spelling_written h).append hquote)

theorem spelling_number (n : Int) : Spelling (toString n).toList := by
  have hdigits : ∀ k : Nat, Spelling (Nat.toDigits 10 k) := by
    refine fun k => .of_unmarked fun h => ?_
    have hmark : mark.isDigit = true := isDigit_toDigits mark h
    exact absurd hmark (by decide)
  rw [Int.toString_eq_repr, Int.repr_eq_if]
  split
  · rw [Nat.toList_repr]
    exact hdigits _
  · have hsign : Spelling "-".toList := .of_unmarked (by decide)
    rw [String.toList_append, Nat.toList_repr]
    exact hsign.append (hdigits _)

theorem spelling_indent (level : Nat) : Spelling (indent level) := by
  refine .of_unmarked fun h => ?_
  rcases List.mem_cons.1 h with h | h
  · exact absurd h (by decide)
  · exact absurd (List.eq_of_mem_replicate h) (by decide)

/-- Lines that spell characters do so one below the other. -/
theorem spelling_rows (level : Nat) {lines : List String} (h : ∀ line ∈ lines, Spelling line.toList) :
    Spelling (rows level lines) := by
  have hcomma : Spelling [','] := .of_unmarked (by decide)
  induction lines with
  | nil => exact .nil
  | cons line rest ih =>
    obtain ⟨hline, hrest⟩ := List.forall_mem_cons.1 h
    cases rest with
    | nil => rwa [rows_singleton]
    | cons next rest =>
      rw [rows_cons]
      exact hline.append (hcomma.append ((spelling_indent level).append (ih hrest)))

/-- Lines between marks, one level further in. -/
theorem spelling_block (level : Nat) {opening closing : Char} (ho : opening ≠ mark) (hc : closing ≠ mark)
    {lines : List String} (h : ∀ line ∈ lines, Spelling line.toList) :
    Spelling (opening :: (indent (level + 1) ++ (rows (level + 1) lines ++ (indent level ++ [closing])))) := by
  have hmark : ∀ c : Char, c ≠ mark → Spelling [c] := fun c hne =>
    .of_unmarked fun hmem => hne (List.mem_singleton.1 hmem).symm
  have hinside := (spelling_rows (level + 1) h).append ((spelling_indent level).append (hmark closing hc))
  exact (hmark opening ho).append ((spelling_indent (level + 1)).append hinside)

/-! ## Values -/

/-- What is written for data whose texts spell characters spells characters. -/
theorem pretty_spelling {p : Plain} (h : Native p) (ht : p.isSpelled = true) (level : Nat) :
    Spelling (pretty level p).toList := by
  induction h generalizing level with
  | null =>
    rw [pretty_null]
    exact .of_unmarked (by decide)
  | bool b =>
    rw [pretty_bool]
    cases b <;> exact .of_unmarked (by decide)
  | int n =>
    rw [pretty_int]
    exact spelling_number n
  | text s =>
    rw [Plain.isSpelled, decide_eq_true_iff] at ht
    rw [pretty_text]
    exact spelling_string ht
  | @list items _ ih =>
    rw [Plain.isSpelled, Plain.areSpelled_iff] at ht
    cases items with
    | nil =>
      rw [pretty_no_items]
      exact .of_unmarked (by decide)
    | cons p ps =>
      rw [pretty_list]
      refine spelling_block level (by decide) (by decide) fun line hline => ?_
      obtain ⟨q, hq, rfl⟩ := List.mem_map.1 hline
      exact ih q hq (ht q hq) (level + 1)
  | @map fields _ _ ih =>
    rw [Plain.isSpelled_object] at ht
    cases fields with
    | nil =>
      rw [pretty_no_fields]
      exact .of_unmarked (by decide)
    | cons f fs =>
      rw [pretty_object]
      refine spelling_block level (by decide) (by decide) fun line hline => ?_
      obtain ⟨g, hg, rfl⟩ := List.mem_map.1 hline
      have hcolon : Spelling ": ".toList := .of_unmarked (by decide)
      rw [entryLine, String.toList_append, String.toList_append]
      exact ((spelling_string (ht g hg).1).append hcolon).append (ih g hg (ht g hg).2 (level + 1))

end Json

end GraphLisp
