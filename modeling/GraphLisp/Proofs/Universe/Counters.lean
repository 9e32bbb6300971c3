import GraphLisp.Proofs.Universe.Enclosed
/-!
# Counters

No counter goes back, whatever is done to a universe and whether or not it is taken back. The handles of the root's
nodes are the ids of environments, so that a node for another environment never has the id of one that is there
(`Universe.Arises.counted`).
-/

namespace GraphLisp

open Std

namespace Universe

variable {u v w : Universe}

/-- The ids of environments have been given out as handles of the root. -/
def Numbered (u : Universe) : Prop :=
  ∀ id ∈ u.members, ∃ e, u.members[rootId]? = some e ∧ id < e.nodes.next

theorem Numbered.advances (hu : u.Numbered) (h : u.Advances v) (hsub : ∀ id ∈ v.members, id ∈ u.members) :
    v.Numbered := by
  intro id hid
  obtain ⟨e, he, hlt⟩ := hu id (hsub id hid)
  obtain ⟨e', he', hle⟩ := h rootId e he
  exact ⟨e', he', Int.lt_of_lt_of_le hlt hle⟩

/-- The id of an environment that a node of the root denotes has been given out. -/
theorem Coherent.id_lt (hu : u.Coherent) {id : Int} (hroot : u.Live ⟨rootId, id⟩) :
    ∃ e, u.members[rootId]? = some e ∧ id < e.nodes.next := by
  obtain ⟨e, he, hlive⟩ := hroot
  exact ⟨e, he, ((hu.tabled rootId e he).bounds id hlive).2⟩

theorem CoherentClosed.numbered (hu : u.CoherentClosed) : u.Numbered :=
  fun id hid => hu.coherent.id_lt (hu.closed.roots id hid)

theorem mem_of_putBack {id k : Int} {e : Environment} (he : u.members[id]? = some e) {l : Locale}
    (hk : k ∈ (u.putBack id l).members) : k ∈ u.members := by
  rcases (mem_insert_iff _ _ _ _).1 hk with rfl | hk
  · exact mem_of_getElem? he
  · exact hk

/-- A coherent universe whose ids have been given out. -/
structure Counted (u : Universe) : Prop where
  coherent : u.Coherent
  numbered : u.Numbered

theorem counted_abiding : Abiding Counted where
  coherent hu := hu.coherent
  changes hu he h := ⟨hu.coherent.changes he h,
    hu.numbered.advances (advances_putBack he h.next_le) fun _ hk => mem_of_putBack he hk⟩
  adopt {u id} hu hfree hroot := by
    refine ⟨hu.coherent.adopt (fresh_standalone _) hfree, fun k hk => ?_⟩
    obtain ⟨e, he, hlt⟩ : ∃ e, u.members[rootId]? = some e ∧ k < e.nodes.next := by
      rcases (mem_insert_iff _ _ _ _).1 hk with rfl | hk
      · exact hu.coherent.id_lt hroot
      · exact hu.numbered k hk
    -- the root was there before
    have hne : rootId ≠ id := by
      rintro rfl
      exact hfree (mem_of_getElem? he)
    exact ⟨e, (getElem?_insert_iff _ _ _ _ _).2 (.inr ⟨hne, he⟩), hlt⟩

theorem Counted.turn (hu : u.Counted) (context : Context) (t : Turn) : (t.play context u).Counted := by
  obtain ⟨J, K, u₁, -, -, -, h, hr, -⟩ := t.play_leads context hu.coherent
  exact ⟨hr.coherent, hu.numbered.advances (h.advances.trans hr.advances) fun id hid =>
    (h.members_iff id).1 ((hr.members id).1 hid)⟩

theorem ofRoot_numbered {e : Environment} (he : e.Coherent) (h : ofRoot e = .ok u) : u.Numbered := by
  unfold ofRoot at h
  split at h
  · cases h
  cases h
  intro id hid
  obtain rfl : id = rootId := by simpa [ExtTreeMap.mem_insert] using (mem_insert_iff _ _ _ _).1 hid
  exact ⟨_, ExtTreeMap.getElem?_insert_self, (he.tabled.bounds _ he.tabled.self).2⟩

/-- The ids of environments have been given out in every universe that arises. -/
theorem Arises.counted (hu : u.Arises) : u.Counted := by
  refine hu.induct ⟨empty_coherentClosed.coherent, empty_coherentClosed.numbered⟩ (fun h => ?_) (fun he h => ?_)
    fun a h => ?_
  · have hclosed : CoherentClosed _ := ⟨(load_loading h).1.coherent, (load_loading h).2⟩
    exact ⟨hclosed.coherent, hclosed.numbered⟩
  · exact ⟨ofRoot_coherent he.coherent h, ofRoot_numbered he.coherent h⟩
  · exact counted_abiding.play h h.turn a

end Universe

end GraphLisp
