import GraphLisp.Environment.Basic
import GraphLisp.Proofs.Index
/-!
# Filed references

What the structure at a handle mentions is filed in one of two indexes: under the handle that it
mentions, if that is one of the same environment, and else among the references that environments
share. `Locale.Filed l M` says that both indexes list, for the handles of `l`, what `M` says. Putting
a cell at a handle keeps the indexes true to the cells, and never touches what other environments
have filed.
-/

namespace GraphLisp

/-- The structure at a handle mentions a node. -/
def Environment.Mentions (e : Environment) (handle : Int) (n : Node) : Prop :=
  ∃ c, e.nodes.cells[handle]? = some c ∧ n ∈ c.mentions

namespace Locale

/-- The locale with other indexes. -/
def reindex (l : Locale) (referrers : Index Int Int) (references : CrossReferences) : Locale :=
  ⟨{ l.env with nodes := { l.env.nodes with referrers } }, references⟩

/-- What other environments have filed is the same. -/
def Elsewhere (l l' : Locale) : Prop :=
  ∀ (t n : Node), n.env ≠ l.env.id → (n ∈ l'.references.bucket t ↔ n ∈ l.references.bucket t)

theorem Elsewhere.refl (l : Locale) : l.Elsewhere l := fun _ _ _ => Iff.rfl

theorem Elsewhere.trans {l l' l'' : Locale} (h : l.Elsewhere l') (h' : l'.Elsewhere l'')
    (hid : l'.env.id = l.env.id) : l.Elsewhere l'' :=
  fun t n hn => (h' t n (by rwa [hid])).trans (h t n hn)

/-- Only the indexes differ, and in them only what the environment has filed. -/
structure Reindexed (l l' : Locale) : Prop where
  eq : l' = l.reindex l'.env.nodes.referrers l'.references
  elsewhere : l.Elsewhere l'

theorem Reindexed.refl (l : Locale) : l.Reindexed l := ⟨rfl, .refl l⟩

theorem Reindexed.id_eq {l l' : Locale} (h : l.Reindexed l') : l'.env.id = l.env.id := by
  rw [h.eq]; rfl

theorem Reindexed.cells_eq {l l' : Locale} (h : l.Reindexed l') :
    l'.env.nodes.cells = l.env.nodes.cells := by
  rw [h.eq]; rfl

theorem Reindexed.trans {l l' l'' : Locale} (h : l.Reindexed l') (h' : l'.Reindexed l'') :
    l.Reindexed l'' where
  eq := by
    rw [h'.eq, h.eq]; rfl
  elsewhere := h.elsewhere.trans h'.elsewhere h.id_eq

/-- The indexes list, for the handles of the environment, what `M` says. -/
structure Filed (l : Locale) (M : Int → Node → Prop) : Prop where
  referrers_tight : l.env.nodes.referrers.Tight
  references_tight : l.references.Tight
  within : ∀ k h, h ∈ l.env.nodes.referrers.bucket k ↔ M h ⟨l.env.id, k⟩
  across : ∀ t h, l.env.node h ∈ l.references.bucket t ↔ t.env ≠ l.env.id ∧ M h t

variable {l : Locale} {M : Int → Node → Prop}

theorem Filed.congr {N : Int → Node → Prop} (hl : l.Filed M) (h : ∀ k n, N k n ↔ M k n) :
    l.Filed N where
  referrers_tight := hl.referrers_tight
  references_tight := hl.references_tight
  within k x := by rw [hl.within, h]
  across t x := by rw [hl.across, h]

/-! ## One reference -/

theorem refer_reindexed (l : Locale) (h : Int) (t : Node) : l.Reindexed (l.refer h t) := by
  unfold refer
  split
  · exact ⟨rfl, fun _ _ _ => Iff.rfl⟩
  · refine ⟨rfl, fun t' n hn => ?_⟩
    rw [Index.mem_bucket_file]
    refine ⟨?_, .inr⟩
    rintro (⟨-, rfl⟩ | x)
    · exact absurd rfl hn
    · exact x

theorem unrefer_reindexed (l : Locale) (h : Int) (t : Node) : l.Reindexed (l.unrefer h t) := by
  unfold unrefer
  split
  · exact ⟨rfl, fun _ _ _ => Iff.rfl⟩
  · refine ⟨rfl, fun t' n hn => ?_⟩
    rw [Index.mem_bucket_withdraw]
    refine ⟨And.left, fun x => ⟨x, ?_⟩⟩
    rintro ⟨-, rfl⟩
    exact hn rfl

theorem node_eq_iff (e : Environment) (h k : Int) : e.node h = e.node k ↔ h = k := by
  simp [Environment.node]

theorem own_node_iff {e : Environment} {t : Node} (ht : t.env = e.id) (k : Int) :
    (⟨e.id, k⟩ : Node) = t ↔ k = t.id := by
  obtain ⟨env, id⟩ := t
  cases ht
  simp

theorem Filed.refer (hl : l.Filed M) (h : Int) (t : Node) :
    (l.refer h t).Filed fun k n => (k = h ∧ n = t) ∨ M k n := by
  unfold Locale.refer
  split
  · next ht =>
    refine ⟨hl.referrers_tight.file _ _, hl.references_tight, fun k x => ?_, fun t' x => ?_⟩
    · rw [Index.mem_bucket_file, hl.within, own_node_iff ht, and_comm]
    · change l.env.node x ∈ l.references.bucket t' ↔ t'.env ≠ l.env.id ∧ _
      rw [hl.across]
      constructor
      · exact fun ⟨hne, hm⟩ => ⟨hne, .inr hm⟩
      · rintro ⟨hne, ⟨-, rfl⟩ | hm⟩
        · exact absurd ht hne
        · exact ⟨hne, hm⟩
  · next ht =>
    refine ⟨hl.referrers_tight, hl.references_tight.file _ _, fun k x => ?_, fun t' x => ?_⟩
    · change x ∈ l.env.nodes.referrers.bucket k ↔ (x = h ∧ (⟨l.env.id, k⟩ : Node) = t) ∨ M x ⟨l.env.id, k⟩
      rw [hl.within]
      refine ⟨.inr, ?_⟩
      rintro (⟨-, rfl⟩ | hm)
      · exact absurd rfl ht
      · exact hm
    · change l.env.node x ∈ (l.references.file t (l.env.node h)).bucket t' ↔ t'.env ≠ l.env.id ∧ _
      rw [Index.mem_bucket_file, hl.across, node_eq_iff]
      constructor
      · rintro (⟨rfl, rfl⟩ | ⟨hne, hm⟩)
        · exact ⟨ht, .inl ⟨rfl, rfl⟩⟩
        · exact ⟨hne, .inr hm⟩
      · rintro ⟨hne, ⟨rfl, rfl⟩ | hm⟩
        · exact .inl ⟨rfl, rfl⟩
        · exact .inr ⟨hne, hm⟩

theorem Filed.unrefer (hl : l.Filed M) (h : Int) (t : Node) :
    (l.unrefer h t).Filed fun k n => M k n ∧ ¬(k = h ∧ n = t) := by
  unfold Locale.unrefer
  split
  · next ht =>
    refine ⟨hl.referrers_tight.withdraw _ _, hl.references_tight, fun k x => ?_, fun t' x => ?_⟩
    · rw [Index.mem_bucket_withdraw, hl.within, own_node_iff ht, @and_comm (x = h)]
    · change l.env.node x ∈ l.references.bucket t' ↔ t'.env ≠ l.env.id ∧ _
      rw [hl.across]
      constructor
      · exact fun ⟨hne, hm⟩ => ⟨hne, hm, by rintro ⟨-, rfl⟩; exact hne ht⟩
      · exact fun ⟨hne, hm, _⟩ => ⟨hne, hm⟩
  · next ht =>
    refine ⟨hl.referrers_tight, hl.references_tight.withdraw _ _, fun k x => ?_, fun t' x => ?_⟩
    · change x ∈ l.env.nodes.referrers.bucket k ↔ M x ⟨l.env.id, k⟩ ∧ ¬(x = h ∧ (⟨l.env.id, k⟩ : Node) = t)
      rw [hl.within]
      exact ⟨fun hm => ⟨hm, by rintro ⟨-, rfl⟩; exact ht rfl⟩, And.left⟩
    · change l.env.node x ∈ (l.references.withdraw t (l.env.node h)).bucket t' ↔ t'.env ≠ l.env.id ∧ _
      rw [Index.mem_bucket_withdraw, hl.across, node_eq_iff, and_assoc, @and_comm (t' = t)]

/-! ## All references of a cell -/

theorem refer_all (h : Int) (ns : List Node) : ∀ (l : Locale) (M : Int → Node → Prop), l.Filed M →
    (ns.foldl (·.refer h) l).Filed fun k n => (k = h ∧ n ∈ ns) ∨ M k n := by
  induction ns with
  | nil => exact fun l M hl => hl.congr fun k n => by simp
  | cons t ns ih =>
    intro l M hl
    refine (ih _ _ (hl.refer h t)).congr fun k n => ?_
    rw [List.mem_cons]
    constructor
    · rintro (⟨hk, hn | hn⟩ | hm)
      · exact .inr (.inl ⟨hk, hn⟩)
      · exact .inl ⟨hk, hn⟩
      · exact .inr (.inr hm)
    · rintro (⟨hk, hn⟩ | ⟨hk, hn⟩ | hm)
      · exact .inl ⟨hk, .inr hn⟩
      · exact .inl ⟨hk, .inl hn⟩
      · exact .inr hm

theorem unrefer_all (h : Int) (ns : List Node) : ∀ (l : Locale) (M : Int → Node → Prop), l.Filed M →
    (ns.foldl (·.unrefer h) l).Filed fun k n => M k n ∧ ¬(k = h ∧ n ∈ ns) := by
  induction ns with
  | nil => exact fun l M hl => hl.congr fun k n => by simp
  | cons t ns ih =>
    intro l M hl
    refine (ih _ _ (hl.unrefer h t)).congr fun k n => ?_
    rw [List.mem_cons]
    constructor
    · rintro ⟨hm, hn⟩
      exact ⟨⟨hm, fun x => hn ⟨x.1, .inl x.2⟩⟩, fun x => hn ⟨x.1, .inr x.2⟩⟩
    · rintro ⟨⟨hm, ht⟩, hn⟩
      exact ⟨hm, fun x => x.2.elim (fun y => ht ⟨x.1, y⟩) (fun y => hn ⟨x.1, y⟩)⟩

/-- Nothing is filed any more for a handle that is released. -/
theorem release_filed (hl : l.Filed l.env.Mentions) (h : Int) :
    (l.release h).Filed fun k n => k ≠ h ∧ l.env.Mentions k n := by
  unfold release
  split
  · next hh =>
    refine hl.congr fun k n => ⟨And.right, fun hm => ⟨?_, hm⟩⟩
    rintro rfl
    obtain ⟨c, hc, -⟩ := hm
    rw [hh] at hc; cases hc
  · next c hh =>
    refine (unrefer_all h c.mentions l _ hl).congr fun k n => ?_
    constructor
    · rintro ⟨hk, hm⟩
      exact ⟨hm, fun x => hk x.1⟩
    · rintro ⟨hm, hn⟩
      refine ⟨?_, hm⟩
      rintro rfl
      obtain ⟨c', hc, hn'⟩ := hm
      rw [hh] at hc; cases hc
      exact hn ⟨rfl, hn'⟩

/-- The locale with a cell put at a handle, and nothing else done. -/
def place (l : Locale) (handle : Int) (c : Cell) : Locale :=
  { l with env.nodes.cells := l.env.nodes.cells.insert handle c }

theorem mentions_insert_iff (e : Environment) (h k : Int) (c : Cell) (n : Node) :
    { e with nodes.cells := e.nodes.cells.insert h c }.Mentions k n ↔
      (k = h ∧ n ∈ c.mentions) ∨ (k ≠ h ∧ e.Mentions k n) := by
  simp only [Environment.Mentions, getElem?_insert_iff]
  constructor
  · rintro ⟨c', ⟨rfl, rfl⟩ | ⟨hk, hc⟩, hn⟩
    · exact .inl ⟨rfl, hn⟩
    · exact .inr ⟨hk, c', hc, hn⟩
  · rintro (⟨rfl, hn⟩ | ⟨hk, c', hc, hn⟩)
    · exact ⟨c, .inl ⟨rfl, rfl⟩, hn⟩
    · exact ⟨c', .inr ⟨hk, hc⟩, hn⟩

theorem foldl_reindexed {f : Locale → Node → Locale} (hf : ∀ l t, Reindexed l (f l t)) (ns : List Node)
    (l : Locale) : l.Reindexed (ns.foldl f l) := by
  induction ns generalizing l with
  | nil => exact .refl l
  | cons t ns ih => exact (hf l t).trans (ih _)

theorem release_reindexed (l : Locale) (h : Int) : l.Reindexed (l.release h) := by
  unfold release
  split
  · exact .refl l
  · exact foldl_reindexed (unrefer_reindexed · h) _ l

/-- Holding a cell changes nothing but the cell and the indexes. -/
theorem hold_reindexed (l : Locale) (h : Int) (c : Cell) : (l.place h c).Reindexed (l.hold h c) := by
  have hr := release_reindexed l h
  have hpr : (l.place h c).Reindexed ((l.release h).place h c) := by
    refine ⟨?_, hr.elsewhere⟩
    rw [hr.eq]; rfl
  exact hpr.trans (foldl_reindexed (refer_reindexed · h) _ _)

/-- The indexes stay true to the cells when a cell is held. -/
theorem hold_filed (hl : l.Filed l.env.Mentions) (h : Int) (c : Cell) :
    (l.place h c).Reindexed (l.hold h c) ∧ (l.hold h c).Filed (l.place h c).env.Mentions := by
  have hf := release_filed hl h
  -- the cell is put in between the two changes of the indexes, which do not look at it
  have hp : ((l.release h).place h c).Filed fun k n => k ≠ h ∧ l.env.Mentions k n :=
    ⟨hf.referrers_tight, hf.references_tight, hf.within, hf.across⟩
  have hf' := refer_all h c.mentions _ _ hp
  exact ⟨hold_reindexed l h c, hf'.congr fun k n => mentions_insert_iff l.env h k c n⟩

end Locale

end GraphLisp
