import GraphLisp.Proofs.Json.Scalars
import GraphLisp.Proofs.Plain
import Mathlib.Data.List.Nodup
/-!
# Plain data read back

`parse_pretty`: what is written for data of JSON's own kinds, one item or entry to a line, is read
back. The reader spends at most two units of fuel on a character.
-/

namespace GraphLisp

namespace Json

/-- Data of JSON's own kinds, doubles left out: the keys of a map are texts that differ. -/
inductive Native : Plain → Prop where
  | null : Native .null
  | bool (b : Bool) : Native (.bool b)
  | int (n : Int) : Native (.int n)
  | text (s : String) : Native (.text s)
  | list {items : List Plain} (h : ∀ p ∈ items, Native p) : Native (.list items)
  | map {fields : List (String × Plain)} (hkeys : (fields.map (·.1)).Nodup)
      (h : ∀ f ∈ fields, Native f.2) : Native (.object fields)

/-! ## Spaces -/

/-- The characters at the start of a line. -/
def indent (level : Nat) : List Char := '\n' :: List.replicate (2 * level) ' '

theorem toList_newline (level : Nat) : (newline level).toList = indent level := by
  have hpush : ∀ (n : Nat) (s : String), (s.pushn ' ' n).toList = s.toList ++ List.replicate n ' ' := by
    intro n s
    induction n with
    | zero => simp [String.pushn_eq_repeat_push, Nat.repeat]
    | succ n ih =>
      rw [String.pushn_eq_repeat_push, Nat.repeat, ← String.pushn_eq_repeat_push, String.toList_push, ih,
        List.append_assoc, List.replicate_succ']
  rw [newline, hpush]
  rfl

/-- What a value, an item or a key begins with. -/
def Opens (cs : List Char) : Prop :=
  ∃ c rest, cs = c :: rest ∧ isSpace c = false ∧ c ≠ ']' ∧ c ≠ '\x7d'

theorem skip_solid {c : Char} (hc : isSpace c = false) (rest : List Char) : skip (c :: rest) = c :: rest := by
  simp [skip, hc]

theorem skip_indent (level : Nat) (cs : List Char) : skip (indent level ++ cs) = skip cs := by
  have hspace : ∀ c ∈ indent level, isSpace c = true := by
    intro c hc
    rcases List.mem_cons.mp hc with rfl | hc
    · rfl
    · rw [List.eq_of_mem_replicate hc]
      rfl
  rw [skip, List.dropWhile_append_of_pos hspace, skip]

theorem Opens.skip {cs : List Char} (h : Opens cs) (rest : List Char) : skip (cs ++ rest) = cs ++ rest := by
  obtain ⟨c, ds, rfl, hc, -⟩ := h
  exact skip_solid hc (ds ++ rest)

theorem Stops.indent (level : Nat) (cs : List Char) : Stops (indent level ++ cs) := .line _

/-! ## Values -/

section
variable (level : Nat)

theorem pretty_null : pretty level .null = "null" := by simp [pretty, writtenScalar]

theorem pretty_bool (b : Bool) : pretty level (.bool b) = if b then "true" else "false" := by
  simp [pretty, writtenScalar]

theorem pretty_int (n : Int) : pretty level (.int n) = toString n := by simp [pretty, writtenScalar]

theorem pretty_text (s : String) : pretty level (.text s) = writtenString s := by simp [pretty, writtenScalar]

theorem pretty_no_items : pretty level (.list []) = "[]" := by simp [pretty, writtenScalar]

theorem pretty_no_fields : pretty level (.object []) = "\x7b\x7d" := by
  simp [Plain.object, pretty, writtenScalar]

end

theorem opens_string (s : String) : Opens (writtenString s).toList := by
  rw [writtenString_toList]
  exact ⟨'"', _, rfl, rfl, by decide, by decide⟩

/-- What a number begins with. -/
def Leads (c : Char) : Prop := c.isDigit = true ∨ c = '-'

instance (c : Char) : Decidable (Leads c) := inferInstanceAs (Decidable (_ ∨ _))

theorem Leads.ne {c d : Char} (h : Leads c) (hd : ¬Leads d) : c ≠ d := by
  rintro rfl
  exact hd h

theorem number_leads (n : Int) : ∃ c cs, (toString n).toList = c :: cs ∧ Leads c := by
  rw [Int.toString_eq_repr, Int.repr_eq_if]
  split
  · rw [Nat.toList_repr]
    obtain ⟨c, cs, h⟩ := List.exists_cons_of_ne_nil (Nat.toDigits_ne_nil (n := n.toNat) (b := 10))
    exact ⟨c, cs, h, .inl (isDigit_toDigits c (h ▸ List.mem_cons_self))⟩
  · exact ⟨'-', _, String.toList_append .., .inr rfl⟩

theorem opens_number (n : Int) : Opens (toString n).toList := by
  obtain ⟨c, cs, hcs, hc⟩ := number_leads n
  refine ⟨c, cs, hcs, ?_, hc.ne (by decide), hc.ne (by decide)⟩
  have hspace : c ≠ ' ' := hc.ne (by decide)
  have hline : c ≠ '\n' := hc.ne (by decide)
  have htab : c ≠ '\t' := hc.ne (by decide)
  have hreturn : c ≠ '\r' := hc.ne (by decide)
  simp [isSpace, hspace, hline, htab, hreturn]

/-! ## Lines -/

/-- Lines one below the other. -/
def rows (level : Nat) (lines : List String) : List Char := (("," ++ newline level).intercalate lines).toList

theorem rows_singleton (level : Nat) (line : String) : rows level [line] = line.toList := by
  rw [rows, String.intercalate_singleton]

theorem rows_cons (level : Nat) (line next : String) (lines : List String) :
    rows level (line :: next :: lines) =
      line.toList ++ ',' :: (indent level ++ rows level (next :: lines)) := by
  simp [rows, String.intercalate_cons_cons, toList_newline]

theorem opens_rows (level : Nat) {line : String} (h : Opens line.toList) (lines : List String) :
    Opens (rows level (line :: lines)) := by
  cases lines with
  | nil => rwa [rows_singleton]
  | cons next lines =>
    obtain ⟨c, cs, hcs, hc⟩ := h
    exact ⟨c, _, by rw [rows_cons, hcs, List.cons_append], hc⟩

theorem toList_block (level : Nat) (opening closing : String) (lines : List String) :
    (block level opening closing lines).toList =
      opening.toList ++ (indent (level + 1) ++ (rows (level + 1) lines ++ (indent level ++ closing.toList))) := by
  simp [block, rows, toList_newline]

/-- The text of a list that is not empty. -/
theorem pretty_list (level : Nat) (p : Plain) (ps : List Plain) :
    (pretty level (.list (p :: ps))).toList =
      '[' :: (indent (level + 1) ++ (rows (level + 1) ((p :: ps).map (pretty (level + 1))) ++
        (indent level ++ [']']))) := by
  have hitems : prettyItems (level + 1) ps = ps.map (pretty (level + 1)) := by
    induction ps with
    | nil => rfl
    | cons p rest ih => rw [prettyItems, ih, List.map_cons]
  rw [pretty, toList_block, hitems]
  rfl

/-- The line of an entry. -/
def entryLine (level : Nat) (f : String × Plain) : String := writtenString f.1 ++ ": " ++ pretty level f.2

/-- The text of a map that is not empty. -/
theorem pretty_object (level : Nat) (f : String × Plain) (fs : List (String × Plain)) :
    (pretty level (.object (f :: fs))).toList =
      '\x7b' :: (indent (level + 1) ++ (rows (level + 1) ((f :: fs).map (entryLine (level + 1))) ++
        (indent level ++ ['\x7d']))) := by
  have hfields : prettyEntries (level + 1) (fs.map fun f => (.text f.1, f.2)) =
      fs.map (entryLine (level + 1)) := by
    induction fs with
    | nil => rfl
    | cons f rest ih =>
      rw [List.map_cons, prettyEntries, ih]
      rfl
  rw [Plain.object, List.map_cons, pretty, toList_block, hfields]
  rfl

theorem opens_pretty (level : Nat) {p : Plain} (h : Native p) : Opens (pretty level p).toList := by
  cases h with
  | null =>
    rw [pretty_null]
    exact ⟨'n', "ull".toList, rfl, rfl, by decide, by decide⟩
  | bool b =>
    rw [pretty_bool]
    cases b
    · exact ⟨'f', "alse".toList, rfl, rfl, by decide, by decide⟩
    · exact ⟨'t', "rue".toList, rfl, rfl, by decide, by decide⟩
  | int n =>
    rw [pretty_int]
    exact opens_number n
  | text s =>
    rw [pretty_text]
    exact opens_string s
  | @list items =>
    cases items with
    | nil =>
      rw [pretty_no_items]
      exact ⟨'[', [']'], rfl, rfl, by decide, by decide⟩
    | cons p rest => exact ⟨'[', _, pretty_list level p rest, rfl, by decide, by decide⟩
  | @map fields =>
    cases fields with
    | nil =>
      rw [pretty_no_fields]
      exact ⟨'\x7b', ['\x7d'], rfl, rfl, by decide, by decide⟩
    | cons f rest => exact ⟨'\x7b', _, pretty_object level f rest, rfl, by decide, by decide⟩

/-! ## Reading -/

/-- What is written for a value is read back with two units of fuel for a character. -/
def Reads (p : Plain) : Prop :=
  ∀ level depth fuel rest, depth + p.depth ≤ maxDepth → p.isWritable = true →
    2 * (pretty level p).toList.length ≤ fuel → Stops rest →
      value depth fuel ((pretty level p).toList ++ rest) = .ok (p, rest)

/-- The scalars that begin with no mark of a string, a list or a map. -/
theorem value_scalar {c : Char} (hc : c ≠ '"' ∧ c ≠ '[' ∧ c ≠ '\x7b') (depth fuel : Nat) (cs : List Char) :
    value depth (fuel + 1) (c :: cs) = scalar (c :: cs) := by
  obtain ⟨hq, hl, hm⟩ := hc
  rw [value] <;>
  · rintro rest ⟨⟩
    contradiction

theorem reads_null : Reads .null := by
  intro level depth fuel rest _ _ hf _
  rw [pretty_null] at hf ⊢
  obtain ⟨fuel, rfl⟩ : ∃ k, fuel = k + 1 := ⟨fuel - 1, by simp at hf; omega⟩
  exact value_scalar (by decide) ..

theorem reads_bool (b : Bool) : Reads (.bool b) := by
  intro level depth fuel rest _ _ hf _
  rw [pretty_bool] at hf ⊢
  obtain ⟨fuel, rfl⟩ : ∃ k, fuel = k + 1 := ⟨fuel - 1, by cases b <;> simp at hf <;> omega⟩
  cases b <;> exact value_scalar (by decide) ..

theorem reads_text (s : String) : Reads (.text s) := by
  intro level depth fuel rest _ _ hf _
  rw [pretty_text, writtenString_toList] at hf ⊢
  obtain ⟨fuel, rfl⟩ : ∃ k, fuel = k + 1 := ⟨fuel - 1, by simp at hf; omega⟩
  rw [List.cons_append, List.append_assoc, value]
  dsimp only [List.cons_append, List.nil_append]
  rw [string_written]
  rfl

/-- A number is none of the words. -/
theorem scalar_leads {c : Char} (h : Leads c) (cs : List Char) : scalar (c :: cs) = number (c :: cs) := by
  have hletter : ∀ d : Char, ¬Leads d → d ≠ c := fun d hd => (h.ne hd).symm
  simp [scalar, words, hletter 'n' (by decide), hletter 't' (by decide), hletter 'f' (by decide),
    hletter 'N' (by decide), hletter 'I' (by decide)]

theorem reads_int (n : Int) : Reads (.int n) := by
  intro level depth fuel rest _ hw hf hr
  have hnumber := number_written hw hr
  obtain ⟨c, cs, hcs, hc⟩ := number_leads n
  rw [pretty_int, hcs] at hf
  rw [hcs] at hnumber
  obtain ⟨fuel, rfl⟩ : ∃ k, fuel = k + 1 := ⟨fuel - 1, by rw [List.length_cons] at hf; omega⟩
  rw [pretty_int, hcs, List.cons_append,
    value_scalar ⟨hc.ne (by decide), hc.ne (by decide), hc.ne (by decide)⟩, scalar_leads hc]
  exact hnumber

/-! ## Lists -/

/-- The items of a list are read back up to its closing bracket. -/
theorem items_read (level inner depth fuel : Nat) (p : Plain) (ps : List Plain) (rest : List Char)
    (hr : ∀ q ∈ p :: ps, Reads q) (hn : ∀ q ∈ p :: ps, Native q)
    (hd : ∀ q ∈ p :: ps, depth + q.depth ≤ maxDepth) (hw : ∀ q ∈ p :: ps, q.isWritable = true)
    (hf : 2 * (rows level ((p :: ps).map (pretty level))).length + 1 ≤ fuel) :
    items depth fuel (rows level ((p :: ps).map (pretty level)) ++ (indent inner ++ ']' :: rest)) =
      .ok (p :: ps, rest) := by
  obtain ⟨fuel, rfl⟩ : ∃ k, fuel = k + 1 := ⟨fuel - 1, by omega⟩
  induction ps generalizing p fuel with
  | nil =>
    rw [List.map_singleton, rows_singleton] at hf ⊢
    have hp := hr p List.mem_cons_self level depth fuel (indent inner ++ ']' :: rest)
      (hd p List.mem_cons_self) (hw p List.mem_cons_self) (by omega) (.indent ..)
    rw [items, hp]
    dsimp only [bind, Except.bind]
    rw [skip_indent, skip_solid (by decide)]
    rfl
  | cons q qs ih =>
    rw [List.map_cons, List.map_cons, rows_cons, ← List.map_cons] at hf ⊢
    simp only [List.length_append, List.length_cons] at hf
    obtain ⟨fuel, rfl⟩ : ∃ k, fuel = k + 1 := ⟨fuel - 1, by omega⟩
    have hp := hr p List.mem_cons_self level depth (fuel + 1)
      (',' :: (indent level ++ (rows level ((q :: qs).map (pretty level)) ++ (indent inner ++ ']' :: rest))))
      (hd p List.mem_cons_self) (hw p List.mem_cons_self) (by omega) (.comma _)
    have hrest := ih q (fun r h => hr r (.tail _ h)) (fun r h => hn r (.tail _ h)) (fun r h => hd r (.tail _ h))
      (fun r h => hw r (.tail _ h)) fuel (by omega)
    have hopens := opens_rows level (opens_pretty level (hn q (by simp))) (qs.map (pretty level))
    have hskip := (skip_indent level _).trans (hopens.skip (indent inner ++ ']' :: rest))
    rw [← List.map_cons] at hskip
    rw [List.append_assoc, List.cons_append, List.append_assoc, items, hp]
    dsimp only [bind, Except.bind]
    rw [skip_solid (by decide)]
    simp only [hskip, hrest]
    rfl

theorem reads_list {items : List Plain} (hn : ∀ p ∈ items, Native p) (hr : ∀ p ∈ items, Reads p) :
    Reads (.list items) := by
  intro level depth fuel rest hd hw hf _
  rw [Plain.depth] at hd
  rw [Plain.isWritable, Plain.areWritable_iff] at hw
  cases items with
  | nil =>
    rw [pretty_no_items] at hf ⊢
    obtain ⟨fuel, rfl⟩ : ∃ k, fuel = k + 1 := ⟨fuel - 1, by simp at hf; omega⟩
    change value depth (fuel + 1) ('[' :: ']' :: rest) = _
    rw [value, if_neg (by omega)]
    rfl
  | cons p ps =>
    rw [pretty_list] at hf ⊢
    simp only [List.length_append, List.length_cons, List.length_nil] at hf
    obtain ⟨fuel, rfl⟩ : ∃ k, fuel = k + 1 := ⟨fuel - 1, by omega⟩
    have hdepth : ∀ q ∈ p :: ps, depth + 1 + q.depth ≤ maxDepth := by
      intro q hq
      have := Plain.depth_le_items hq
      omega
    have hrest := items_read (level + 1) level (depth + 1) fuel p ps rest hr hn hdepth hw (by omega)
    have hopens := opens_rows (level + 1) (opens_pretty (level + 1) (hn p (by simp)))
      (ps.map (pretty (level + 1)))
    have hskip := (skip_indent (level + 1) _).trans (hopens.skip (indent level ++ ']' :: rest))
    obtain ⟨c, cs, hcs, -, hc, -⟩ := hopens
    rw [List.map_cons, hcs] at hrest ⊢
    rw [hcs] at hskip
    rw [List.cons_append, List.append_assoc, List.append_assoc, List.append_assoc, List.singleton_append,
      value, if_neg (by omega), hskip]
    split
    · next h => exact absurd (List.cons.inj h).1 hc
    · rw [hrest]
      rfl

/-! ## Maps -/

/-- A key that is not among the fields of a map is bound after them. -/
theorem put_field {done : List (String × Plain)} {f : String × Plain} (h : f.1 ∉ done.map (·.1)) :
    Plain.put (.text f.1) f.2 (done.map fun g => (.text g.1, g.2)) =
      (done ++ [f]).map fun g => (.text g.1, g.2) := by
  rw [Plain.put_absent, List.map_append, List.map_singleton]
  intro e he
  obtain ⟨g, hg, rfl⟩ := List.mem_map.mp he
  exact beq_false_of_ne fun hkey => h (List.mem_map.mpr ⟨g, hg, hkey⟩)

theorem toList_entryLine (level : Nat) (f : String × Plain) :
    (entryLine level f).toList =
      '"' :: (f.1.toList.flatMap writtenChar ++ '"' :: ':' :: ' ' :: (pretty level f.2).toList) := by
  simp [entryLine, writtenString_toList]

/-- An entry is read back and bound, whatever follows it. -/
theorem entry_read (level depth fuel : Nat) (f : String × Plain) (before : List (Plain × Plain))
    {rest : List Char} (hr : Reads f.2) (hn : Native f.2) (hd : depth + f.2.depth ≤ maxDepth)
    (hw : f.2.isWritable = true) (hf : 2 * (entryLine level f).length ≤ fuel) (hs : Stops rest) :
    entries depth (fuel + 1) ((entryLine level f).toList ++ rest) before =
      match skip rest with
      | ',' :: rest => entries depth fuel (skip rest) (Plain.put (.text f.1) f.2 before)
      | '\x7d' :: rest => .ok (Plain.put (.text f.1) f.2 before, rest)
      | _ => malformed := by
  have hlength : (pretty level f.2).toList.length ≤ (entryLine level f).length := by
    rw [← String.length_toList, toList_entryLine]
    simp
    omega
  have hvalue := hr level depth fuel rest hd hw (by omega) hs
  have hskip : skip (' ' :: ((pretty level f.2).toList ++ rest)) = (pretty level f.2).toList ++ rest :=
    (opens_pretty level hn).skip rest
  rw [toList_entryLine, List.cons_append, List.append_assoc, entries]
  dsimp only [List.cons_append]
  rw [string_written]
  dsimp only [bind, Except.bind]
  rw [skip_solid (by decide)]
  simp only [hskip, hvalue]
  rfl

/-- The entries of a map are read back up to its closing brace, and put after other ones. -/
theorem entries_read (level inner depth fuel : Nat) (done : List (String × Plain)) (f : String × Plain)
    (fs : List (String × Plain)) (rest : List Char) (hkeys : ((done ++ f :: fs).map (·.1)).Nodup)
    (hr : ∀ g ∈ f :: fs, Reads g.2) (hn : ∀ g ∈ f :: fs, Native g.2)
    (hd : ∀ g ∈ f :: fs, depth + g.2.depth ≤ maxDepth) (hw : ∀ g ∈ f :: fs, g.2.isWritable = true)
    (hf : 2 * (rows level ((f :: fs).map (entryLine level))).length + 1 ≤ fuel) :
    entries depth fuel (rows level ((f :: fs).map (entryLine level)) ++ (indent inner ++ '\x7d' :: rest))
      (done.map fun g => (.text g.1, g.2)) =
        .ok ((done ++ f :: fs).map fun g => (.text g.1, g.2), rest) := by
  obtain ⟨fuel, rfl⟩ : ∃ k, fuel = k + 1 := ⟨fuel - 1, by omega⟩
  induction fs generalizing done f fuel with
  | nil =>
    have habsent : f.1 ∉ done.map (·.1) := by
      rw [List.map_append] at hkeys
      exact fun h => List.disjoint_of_nodup_append hkeys h List.mem_cons_self
    rw [List.map_singleton, rows_singleton] at hf ⊢
    rw [entry_read level depth fuel f _ (hr f (by simp)) (hn f (by simp)) (hd f (by simp)) (hw f (by simp))
      (by rw [String.length_toList] at hf; omega) (.indent ..), skip_indent, skip_solid (by decide),
      put_field habsent]
    rfl
  | cons g gs ih =>
    have habsent : f.1 ∉ done.map (·.1) := by
      rw [List.map_append] at hkeys
      exact fun h => List.disjoint_of_nodup_append hkeys h List.mem_cons_self
    rw [List.map_cons, List.map_cons, rows_cons, ← List.map_cons] at hf ⊢
    simp only [List.length_append, List.length_cons, String.length_toList] at hf
    obtain ⟨fuel, rfl⟩ : ∃ k, fuel = k + 1 := ⟨fuel - 1, by omega⟩
    have hrest := ih (done ++ [f]) g (by rwa [List.append_assoc]) (fun r h => hr r (.tail _ h))
      (fun r h => hn r (.tail _ h)) (fun r h => hd r (.tail _ h)) (fun r h => hw r (.tail _ h)) fuel (by omega)
    have hopens : Opens (rows level ((g :: gs).map (entryLine level))) := by
      refine opens_rows level ?_ _
      exact ⟨'"', _, toList_entryLine level g, rfl, by decide, by decide⟩
    have hskip := (skip_indent level _).trans (hopens.skip (indent inner ++ '\x7d' :: rest))
    rw [List.append_assoc, List.cons_append, List.append_assoc,
      entry_read level depth (fuel + 1) f _ (hr f (by simp)) (hn f (by simp)) (hd f (by simp))
        (hw f (by simp)) (by omega) (.comma _), skip_solid (by decide)]
    simp only [hskip, put_field habsent, hrest]
    rw [List.append_assoc]
    rfl

theorem reads_object {fields : List (String × Plain)} (hkeys : (fields.map (·.1)).Nodup)
    (hn : ∀ f ∈ fields, Native f.2) (hr : ∀ f ∈ fields, Reads f.2) : Reads (.object fields) := by
  intro level depth fuel rest hd hw hf _
  have hdepth : ∀ f ∈ fields, depth + 1 + f.2.depth ≤ maxDepth := by
    intro f hf
    have := Plain.depth_le_entries (List.mem_map_of_mem (f := fun f => (Plain.text f.1, f.2)) hf)
    rw [Plain.object, Plain.depth] at hd
    dsimp only at this
    omega
  have hwritable : ∀ f ∈ fields, f.2.isWritable = true := by
    intro f hf
    rw [Plain.object, Plain.isWritable, Plain.haveWritable_iff] at hw
    exact (hw _ (List.mem_map_of_mem (f := fun f => (Plain.text f.1, f.2)) hf)).2
  have hlevel : ¬maxDepth ≤ depth := by
    rw [Plain.object, Plain.depth] at hd
    omega
  cases fields with
  | nil =>
    rw [pretty_no_fields] at hf ⊢
    obtain ⟨fuel, rfl⟩ : ∃ k, fuel = k + 1 := ⟨fuel - 1, by simp at hf; omega⟩
    change value depth (fuel + 1) ('\x7b' :: '\x7d' :: rest) = _
    rw [value, if_neg hlevel]
    rfl
  | cons f fs =>
    rw [pretty_object] at hf ⊢
    simp only [List.length_append, List.length_cons, List.length_nil] at hf
    obtain ⟨fuel, rfl⟩ : ∃ k, fuel = k + 1 := ⟨fuel - 1, by omega⟩
    have hrest := entries_read (level + 1) level (depth + 1) fuel [] f fs rest hkeys hr hn hdepth hwritable
      (by omega)
    have hopens : Opens (rows (level + 1) ((f :: fs).map (entryLine (level + 1)))) := by
      refine opens_rows (level + 1) ?_ _
      exact ⟨'"', _, toList_entryLine (level + 1) f, rfl, by decide, by decide⟩
    have hskip := (skip_indent (level + 1) _).trans (hopens.skip (indent level ++ '\x7d' :: rest))
    obtain ⟨c, cs, hcs, -, -, hc⟩ := hopens
    rw [hcs] at hrest hskip ⊢
    rw [List.cons_append, List.append_assoc, List.append_assoc, List.append_assoc, List.singleton_append,
      value, if_neg hlevel, hskip]
    split
    · next h => exact absurd (List.cons.inj h).1 hc
    · rw [List.map_nil] at hrest
      rw [hrest]
      rfl

/-! ## Texts -/

theorem Native.reads {p : Plain} (h : Native p) : Reads p := by
  induction h with
  | null => exact reads_null
  | bool b => exact reads_bool b
  | int n => exact reads_int n
  | text s => exact reads_text s
  | list hn ih => exact reads_list hn ih
  | map hkeys hn ih => exact reads_object hkeys hn ih

/-- The text written for data of JSON's own kinds is read back, unless numbers are too long or lists and
maps too deep. -/
theorem parse_pretty {p : Plain} (h : Native p) (hw : p.isWritable = true) (hd : p.depth ≤ maxDepth) :
    parse (pretty 0 p) = .ok p := by
  have hskip := (opens_pretty 0 h).skip []
  have hread := h.reads 0 0 (2 * (pretty 0 p).toList.length + 2) [] (by omega) hw (by omega) .nil
  rw [List.append_nil] at hskip hread
  rw [parse]
  dsimp only
  rw [hskip, hread]
  rfl

end Json

end GraphLisp
