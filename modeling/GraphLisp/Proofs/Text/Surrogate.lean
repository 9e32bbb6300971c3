import GraphLisp.Text.Surrogate
/-!
# Texts and their bytes

The bytes of a text are read back as that text, unless it ends in a mark that stands for nothing. A text
has bytes if it spells characters (`toBytes?_of_spelling`).
-/

namespace GraphLisp.Text

/-- The character of a letter that is one. -/
def Letter.char? : Letter → Option Char
  | .char c => some c
  | .half _ => none

theorem letters_eq_nil_iff {cs : List Char} : letters cs = [] ↔ cs = [] := by
  constructor
  · intro h
    unfold letters at h
    split at h
    · rfl
    · cases h
    · split at h <;> cases h
  · rintro rfl
    rfl

/-- A text whose letters are characters is their spelling, unless it ends in a mark that stands for
nothing. -/
theorem spell_letters {cs ds : List Char} (hlast : cs.getLast? ≠ some mark)
    (h : (letters cs).mapM Letter.char? = some ds) : spell ds = cs := by
  induction cs using letters.induct generalizing ds with
  | case1 =>
    cases h
    rfl
  | case2 c =>
    cases h
    have hc : c ≠ mark := fun hc => hlast (congrArg some hc)
    simp [spell, Letter.spell, hc]
  | case3 d rest ih =>
    have hrest : rest.getLast? ≠ some mark := by
      cases rest with
      | nil => simp
      | cons e rest => rwa [List.getLast?_cons_cons, List.getLast?_cons_cons] at hlast
    rw [letters, if_pos rfl, List.mapM_cons] at h
    simp only [Option.bind_eq_bind, Option.bind_eq_some_iff] at h
    obtain ⟨c, hc, es, hes, h⟩ := h
    cases h
    have hd : d = mark := by
      refine Decidable.byContradiction fun hd => ?_
      rw [marked, if_neg hd] at hc
      cases hc
    subst hd
    rw [marked, if_pos rfl] at hc
    cases hc
    rw [spell, List.flatMap_cons, ← spell, ih hrest hes]
    rfl
  | case4 c d rest hc ih =>
    rw [letters, if_neg hc, List.mapM_cons] at h
    simp only [Option.bind_eq_bind, Option.bind_eq_some_iff] at h
    obtain ⟨c', hc', es, hes, h⟩ := h
    cases h
    cases hc'
    rw [spell, List.flatMap_cons, ← spell, ih (by rwa [List.getLast?_cons_cons] at hlast) hes, Letter.spell,
      if_neg hc]
    rfl

theorem fromUTF8?_toUTF8 (s : String) : String.fromUTF8? s.toUTF8 = some s := by
  rw [String.fromUTF8?, String.toUTF8_eq_toByteArray, dif_pos s.isValidUTF8]
  rfl

/-- The bytes of a text are read back. -/
theorem ofBytes?_of_toBytes? {s : String} {b : ByteArray} (hlast : s.toList.getLast? ≠ some mark)
    (h : toBytes? s = some b) : ofBytes? b = some s := by
  obtain ⟨cs, hcs, rfl⟩ := Option.map_eq_some_iff.mp h
  have hspell : spell cs = s.toList := spell_letters hlast hcs
  rw [ofBytes?, fromUTF8?_toUTF8, Option.map_some, ofChars, String.toList_ofList, hspell, String.ofList_toList]

/-! ## Spellings -/

/-- These are the spelling of characters: no half is among their letters, and no mark stands for nothing. -/
def Spelling (cs : List Char) : Prop := ∃ ds, spell ds = cs

theorem Spelling.nil : Spelling [] := ⟨[], rfl⟩

theorem Spelling.append {cs ds : List Char} (hc : Spelling cs) (hd : Spelling ds) : Spelling (cs ++ ds) := by
  obtain ⟨xs, rfl⟩ := hc
  obtain ⟨ys, rfl⟩ := hd
  exact ⟨xs ++ ys, List.flatMap_append⟩

/-- Characters other than the mark spell themselves. -/
theorem Spelling.of_unmarked {cs : List Char} (h : mark ∉ cs) : Spelling cs := by
  refine ⟨cs, ?_⟩
  induction cs with
  | nil => rfl
  | cons c cs ih =>
    rw [List.mem_cons, not_or] at h
    rw [spell, List.flatMap_cons, ← spell, ih h.2, Letter.spell, if_neg (Ne.symm h.1)]
    rfl

theorem spelling_iff (cs : List Char) : spell ((letters cs).filterMap Letter.char?) = cs ↔ Spelling cs := by
  refine ⟨fun h => ⟨_, h⟩, ?_⟩
  rintro ⟨ds, rfl⟩
  have hchars : (ds.map Letter.char).filterMap Letter.char? = ds := by
    rw [List.filterMap_map]
    exact List.filterMap_some
  rw [letters_spell, hchars]

instance (cs : List Char) : Decidable (Spelling cs) := decidable_of_iff _ (spelling_iff cs)

/-- What spells characters has their bytes. -/
theorem toBytes?_of_spelling {s : String} (h : Spelling s.toList) : ∃ b, toBytes? s = some b := by
  obtain ⟨ds, hds⟩ := h
  have hchars : chars? s = some ds := by
    rw [chars?, lettersOf, ← hds, letters_spell, List.mapM_map]
    exact (List.mapM_pure (f := id)).trans (congrArg some (List.map_id ds))
  exact ⟨_, by rw [toBytes?, hchars, Option.map_some]⟩

end GraphLisp.Text
