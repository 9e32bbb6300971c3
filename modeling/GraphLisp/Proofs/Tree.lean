import GraphLisp.Proofs.Check
import GraphLisp.Proofs.Plain
import GraphLisp.Proofs.Structure
import GraphLisp.Proofs.Text.Surrogate
/-!
# Trees

Snapshots are made of trees: null, booleans, numbers and texts, and lists and maps of these, where the keys
of a map are no lists or maps themselves. Whatever tree is decoded, there is an end to it: it is a structure
or it is refused as damaged (`Plain.decode_tells`).
-/

namespace GraphLisp

namespace Plain

/-- What can be the key of a map. -/
def isScalar : Plain → Bool
  | .null | .bool _ | .int _ | .float _ | .text _ => true
  | _ => false

/-- Lists and maps of scalars. -/
inductive Tree : Plain → Prop where
  | scalar {p : Plain} (h : p.isScalar = true) : Tree p
  | list {items : List Plain} (h : ∀ p ∈ items, Tree p) : Tree (.list items)
  | map {entries : List (Plain × Plain)} (hkeys : ∀ e ∈ entries, e.1.isScalar = true)
      (h : ∀ e ∈ entries, Tree e.2) : Tree (.map entries)

@[simp] theorem tree_null : Tree .null := .scalar rfl

@[simp] theorem tree_bool (b : Bool) : Tree (.bool b) := .scalar rfl

@[simp] theorem tree_int (n : Int) : Tree (.int n) := .scalar rfl

@[simp] theorem tree_text (s : String) : Tree (.text s) := .scalar rfl

@[simp] theorem tree_list_iff {items : List Plain} : Tree (.list items) ↔ ∀ p ∈ items, Tree p := by
  refine ⟨fun h => ?_, .list⟩
  cases h with
  | scalar h => cases h
  | list h => exact h

theorem tree_map_iff {entries : List (Plain × Plain)} :
    Tree (.map entries) ↔ ∀ e ∈ entries, e.1.isScalar = true ∧ Tree e.2 := by
  refine ⟨fun h => ?_, fun h => .map (fun e he => (h e he).1) fun e he => (h e he).2⟩
  cases h with
  | scalar h => cases h
  | map hkeys h => exact fun e he => ⟨hkeys e he, h e he⟩

@[simp] theorem tree_object_iff {fields : List (String × Plain)} :
    Tree (.object fields) ↔ ∀ f ∈ fields, Tree f.2 := by
  rw [object, tree_map_iff, List.forall_mem_map]
  exact forall₂_congr fun f _ => and_iff_right rfl

theorem Tree.opened {p : Plain} (h : p.Tree) : p.opened = p := by
  cases h with
  | scalar h => cases p <;> first | rfl | cases h
  | list _ => rfl
  | map _ _ => rfl

/-- A part of a tree: a tree that is not deeper, with numbers that can be written if all can. -/
structure Part (p q : Plain) : Prop where
  tree : q.Tree
  depth : q.depth ≤ p.depth
  writable : p.isWritable = true → q.isWritable = true

theorem Part.trans {p q r : Plain} (h : p.Part q) (h' : q.Part r) : p.Part r :=
  ⟨h'.tree, Nat.le_trans h'.depth h.depth, fun hp => h'.writable (h.writable hp)⟩

theorem depth_scalar {p : Plain} (h : p.isScalar = true) : p.depth = 0 := by
  cases p <;> first | rfl | cases h

theorem part_item {items : List Plain} (h : (list items).Tree) {p : Plain} (hp : p ∈ items) :
    (list items).Part p ∧ p.depth < (list items).depth := by
  have hdepth : p.depth < (list items).depth := by
    rw [depth]
    exact Nat.lt_succ_of_le (depth_le_items hp)
  refine ⟨⟨tree_list_iff.1 h p hp, Nat.le_of_lt hdepth, fun hw => ?_⟩, hdepth⟩
  rw [isWritable] at hw
  exact areWritable_iff.1 hw p hp

theorem part_entry {entries : List (Plain × Plain)} (h : (map entries).Tree) {e : Plain × Plain} (he : e ∈ entries) :
    (map entries).Part e.1 ∧ (map entries).Part e.2 ∧ e.2.depth < (map entries).depth := by
  obtain ⟨hkey, htree⟩ := tree_map_iff.1 h e he
  have hdepth : e.2.depth < (map entries).depth := by
    rw [depth]
    exact Nat.lt_succ_of_le (depth_le_entries he)
  have hwritable : (map entries).isWritable = true → e.1.isWritable = true ∧ e.2.isWritable = true := by
    intro hw
    rw [isWritable] at hw
    exact haveWritable_iff.1 hw e he
  refine ⟨⟨.scalar hkey, ?_, fun hw => (hwritable hw).1⟩,
    ⟨htree, Nat.le_of_lt hdepth, fun hw => (hwritable hw).2⟩, hdepth⟩
  rw [depth_scalar hkey]
  exact Nat.zero_le _

theorem mem_of_find?_eq {entries : List (Plain × Plain)} {key : String} {p : Plain} (h : find? entries key = some p) :
    ∃ e ∈ entries, e.2 = p := by
  unfold find? at h
  obtain ⟨e, he, rfl⟩ := Option.map_eq_some_iff.1 h
  exact ⟨e, List.mem_of_find?_eq_some he, rfl⟩

/-- The value under a key is a part. -/
theorem part_find? {entries : List (Plain × Plain)} (h : (map entries).Tree) {key : String} {p : Plain}
    (hp : find? entries key = some p) : (map entries).Part p ∧ p.depth < (map entries).depth := by
  obtain ⟨e, he, rfl⟩ := mem_of_find?_eq hp
  exact (part_entry h he).2

/-- What a tree lists are parts of it. -/
theorem part_listed? {p : Plain} (h : p.Tree) {items : List Plain} (hi : p.listed? = some items) {q : Plain}
    (hq : q ∈ items) : p.Part q := by
  unfold listed? at hi
  rw [h.opened] at hi
  split at hi
  · cases hi
    exact (part_item h hq).1
  · cases h with
    | scalar h => cases h
  · cases h with
    | scalar h => cases h
  · cases hi
    obtain ⟨l, -, rfl⟩ := List.mem_map.1 hq
    exact ⟨.scalar rfl, Nat.zero_le _, fun _ => rfl⟩
  · cases hi
    obtain ⟨e, he, rfl⟩ := List.mem_map.1 hq
    exact (part_entry h he).1
  · cases h with
    | scalar h => cases h
  · cases hi

/-- What lists something other than a scalar is a list. -/
theorem eq_list_of_listed? {p : Plain} (h : p.Tree) {items : List Plain} (hl : p.listed? = some items) {q : Plain}
    (hq : q ∈ items) (hscalar : q.isScalar = false) : p = .list items := by
  unfold listed? at hl
  rw [h.opened] at hl
  cases h with
  | list _ => exact congrArg list (Option.some.inj hl)
  | map hkeys _ =>
    cases hl
    obtain ⟨e, he, rfl⟩ := List.mem_map.1 hq
    rw [hkeys e he] at hscalar
    cases hscalar
  | scalar h =>
    cases p with
    | text s =>
      cases hl
      obtain ⟨l, -, rfl⟩ := List.mem_map.1 hq
      cases hscalar
    | list => cases h
    | map => cases h
    | tuple => cases h
    | set => cases h
    | bytes => cases h
    | _ => cases hl

/-- What lists nothing is void. -/
theorem isVoid_of_listed? {p : Plain} (h : p.Tree) (hl : p.listed? = some []) : p.isVoid = true := by
  unfold listed? at hl
  rw [h.opened] at hl
  cases h with
  | list _ =>
    cases hl
    rfl
  | map _ _ =>
    rw [List.map_eq_nil_iff.1 (Option.some.inj hl)]
    rfl
  | scalar h =>
    cases p with
    | text s =>
      have hletters : Text.lettersOf s = [] := List.map_eq_nil_iff.1 (Option.some.inj hl)
      have hs : s = "" := String.toList_injective (Text.letters_eq_nil_iff.1 hletters)
      rw [hs]
      rfl
    | list => cases h
    | map => cases h
    | tuple => cases h
    | set => cases h
    | bytes => cases h
    | _ => cases hl

theorem node_isWritable {n : Node} (h : (list [.int n.env, .int n.id]).isWritable = true) : n.isWritable = true := by
  simpa [isWritable, areWritable, Node.isWritable] using h

/-! ## Decoding -/

/-- Every node that a structure mentions can be put in words. -/
def MentionsWritable (s : Structure) : Prop := ∀ n ∈ s.mentions, n.isWritable = true

/-- A decoder decodes trees that are nested less deep than a limit, or refuses them as damaged. -/
def Decoder.TellsWithin (inner : Decoder) (limit : Nat) : Prop :=
  ∀ p : Plain, p.Tree → p.depth < limit →
    Tells (p.isWritable = true) (fun s => p.isWritable = true → MentionsWritable s) (inner p)

section
variable {inner : Decoder} {limit : Nat} {w : Prop}

theorem decodeNil_tells (tag : String) : Tells w (fun s => w → MentionsWritable s) (decodeNil tag) := by
  unfold decodeNil
  split
  · exact .gave fun _ => nofun
  · exact .refused fun _ => rfl

/-- What a decoder tells of a part of a whole, as told of the whole. -/
theorem Decoder.TellsWithin.part (hinner : inner.TellsWithin limit) {p q : Plain} (hq : p.Part q)
    (hdepth : q.depth < limit) :
    Tells (p.isWritable = true) (fun s => p.isWritable = true → MentionsWritable s) (inner q) :=
  (hinner q hq.tree hdepth).mono hq.writable fun _ hs hw => hs (hq.writable hw)

theorem decodeTwo_tells (hinner : inner.TellsWithin limit) (tag : String) {a d : Plain}
    (h : (list [a, d]).Tree) (hdepth : (list [a, d]).depth ≤ limit) :
    Tells ((list [a, d]).isWritable = true) (fun s => (list [a, d]).isWritable = true → MentionsWritable s)
      (decodeTwo inner tag a d) := by
  obtain ⟨ha, hadepth⟩ := part_item h (.head _)
  obtain ⟨hd, hddepth⟩ := part_item h (.tail _ (.head _))
  unfold decodeTwo
  split
  · split
    · refine .gave fun hw n hn => ?_
      cases List.mem_singleton.1 hn
      exact Bool.and_eq_true_iff.2 ⟨ha.writable hw, hd.writable hw⟩
    · exact .refused fun _ => rfl
  split
  · refine (hinner.part ha (Nat.lt_of_lt_of_le hadepth hdepth)).bind fun car hcar => ?_
    split
    · next body hbroken =>
      refine .refused fun hw => ?_
      unfold brokenPair? at hbroken
      rw [hd.tree.opened] at hbroken
      split at hbroken
      · split at hbroken
        · cases hbroken
        · cases hbroken
          exact (part_entry hd.tree (.head _)).2.1.writable (hd.writable hw)
      · cases hbroken
    · refine (hinner.part hd (Nat.lt_of_lt_of_le hddepth hdepth)).bind fun cdr hcdr => .gave fun hw n hn => ?_
      exact (List.mem_append.1 hn).elim (hcar hw n) (hcdr hw n)
  · exact decodeNil_tells tag

theorem decodeFrame_tells (hinner : inner.TellsWithin limit) {entries : List (Plain × Plain)}
    (h : (map entries).Tree) (hdepth : (map entries).depth ≤ limit) :
    Tells ((map entries).isWritable = true)
      (fun level => (map entries).isWritable = true → ∀ b ∈ level, MentionsWritable b.2)
      (decodeFrame inner (.map entries) entries) := by
  unfold decodeFrame
  split
  · exact .gave fun _ => nofun
  · next p hp =>
    obtain ⟨hfound, -⟩ := Option.filter_eq_some_iff.1 hp
    obtain ⟨hp, hpdepth⟩ := part_find? h hfound
    split
    · next items hitems =>
      refine Tells.foldlM (I := fun level : Level Structure => (map entries).isWritable = true →
        ∀ b ∈ level, MentionsWritable b.2) (fun binding hbinding level hlevel => ?_) fun _ => nofun
      have hbinding := hp.trans (part_listed? hp.tree hitems hbinding)
      unfold decodeBinding
      split
      · next name q hlisted =>
        have hq := hbinding.trans (part_listed? hbinding.tree hlisted (.tail _ (.head _)))
        split
        · have hqdepth : q.depth < limit := by
            have hle := (part_listed? hbinding.tree hlisted (.tail name (.head _))).depth
            have hb := (part_listed? hp.tree hitems ‹_›).depth
            omega
          refine (hinner.part hq hqdepth).bind fun value hvalue => .gave fun hw b hb => ?_
          rcases Level.mem_bind hb with rfl | hb
          · exact hvalue hw
          · exact hlevel hw b hb
        · exact .refused fun hw => hw
      · exact .refused fun hw => hw
    · exact .refused fun hw => hw

theorem decodeProcedure_tells (hinner : inner.TellsWithin limit) {entries : List (Plain × Plain)}
    (h : (map entries).Tree) (hdepth : (map entries).depth ≤ limit) :
    Tells ((map entries).isWritable = true) (fun s => (map entries).isWritable = true → MentionsWritable s)
      (decodeProcedure inner (.map entries) entries) := by
  unfold decodeProcedure
  split
  · exact .refused fun hw => hw
  · refine (decodeFrame_tells hinner h hdepth).bind fun level hlevel => ?_
    split
    · exact .refused fun hw => hw
    · next p hp =>
      obtain ⟨hp, hpdepth⟩ := part_find? h hp
      refine (hinner.part hp (Nat.lt_of_lt_of_le hpdepth hdepth)).bind fun body hbody => .gave fun hw n hn => ?_
      rw [Structure.mentions_proc] at hn
      rcases List.mem_append.1 hn with hn | hn
      · obtain ⟨b, hb, hn⟩ := List.mem_flatMap.1 hn
        obtain ⟨l, hl, hbl⟩ := Scope.mem_flatten (List.mem_reverse.1 hb)
        split at hl
        · cases hl
        · cases List.mem_singleton.1 hl
          exact hlevel hw b hbl n hn
      · exact hbody hw n hn

theorem decodeBody_tells (hinner : inner.TellsWithin limit) (tag : String) {body : Plain} (h : body.Tree)
    (hdepth : body.depth ≤ limit) :
    Tells (body.isWritable = true) (fun s => body.isWritable = true → MentionsWritable s)
      (decodeBody inner tag body) := by
  unfold decodeBody
  rw [h.opened]
  split
  · split
    · exact .gave fun _ => nofun
    · exact decodeNil_tells tag
  · split
    · exact .gave fun _ => nofun
    · exact decodeNil_tells tag
  · split
    · exact .gave fun _ => nofun
    split
    · exact .gave fun _ => nofun
    · exact decodeNil_tells tag
  · exact decodeTwo_tells hinner tag h hdepth
  · split
    · exact decodeProcedure_tells hinner h hdepth
    · exact decodeNil_tells tag
  · exact decodeNil_tells tag

theorem decodeWithin_tells (limit : Nat) : Decoder.TellsWithin (decodeWithin limit) limit := by
  -- the body of a tagged value is nested less deep than the value
  induction limit with
  | zero => exact fun p _ hdepth => absurd hdepth (Nat.not_lt_zero _)
  | succ limit ih =>
    intro p h hdepth
    unfold decodeWithin
    rw [h.opened]
    split
    · next tag body =>
      obtain ⟨-, hbody, hlt⟩ := part_entry h (.head _)
      refine (decodeBody_tells ih tag hbody.tree ?_).mono hbody.writable fun _ hs hw => hs (hbody.writable hw)
      exact Nat.le_of_lt (Nat.lt_of_lt_of_le hlt (Nat.le_of_lt_succ hdepth))
    · next tag body _ => exact .refused (part_entry h (.head _)).1.writable
    · exact .refused fun hw => hw

end

/-- A tree is decoded or refused as damaged, and never followed without end. -/
theorem decode_tells {p : Plain} (h : p.Tree) :
    Tells (p.isWritable = true) (fun s => p.isWritable = true → MentionsWritable s) p.decode :=
  decodeWithin_tells _ p h (Nat.lt_add_of_pos_right (by decide))

end Plain

end GraphLisp
