import GraphLisp.Proofs.Environment.Alterations
import GraphLisp.Universe.Basic
/-!
# Coherent and closed universes

A universe is coherent if each of its environments is, with the references between environments
filed exactly. It is closed if nothing in it leads to a node that is gone: what the structures of
live nodes mention is live, so are the parts of triples, and every environment is denoted by a
live node of the root. Every alteration of a member keeps both.
-/

namespace GraphLisp

open Std

namespace Universe

/-- A node is live in its environment. -/
def Live (u : Universe) (n : Node) : Prop :=
  ∃ e, u.members[n.env]? = some e ∧ n.id ∈ e.nodes.cells

/-- The structure at a live node mentions another node. -/
def Mentions (u : Universe) (n t : Node) : Prop :=
  ∃ e, u.members[n.env]? = some e ∧ e.Mentions n.id t

/-- Every table of a universe follows from what its environments contain. -/
structure Coherent (u : Universe) : Prop where
  heirs : u.heirs = []
  ids : ∀ (id : Int) (e : Environment), u.members[id]? = some e → e.id = id
  root : rootId ∈ u.members
  tabled : ∀ (id : Int) (e : Environment), u.members[id]? = some e → e.Tabled
  referrers_tight : ∀ (id : Int) (e : Environment), u.members[id]? = some e → e.nodes.referrers.Tight
  referrers : ∀ (id : Int) (e : Environment), u.members[id]? = some e →
    ∀ k h, h ∈ e.nodes.referrers.bucket k ↔ e.Mentions h ⟨id, k⟩
  references_tight : u.references.Tight
  references : ∀ t n, n ∈ u.references.bucket t ↔ t.env ≠ n.env ∧ u.Mentions n t

/-- Nothing leads to a node that is gone. -/
structure Closed (u : Universe) : Prop where
  parts : ∀ (id : Int) (e : Environment), u.members[id]? = some e →
    ∀ (h : Int) (st : Statement), e.triples.statements[h]? = some st →
      st.subject ∈ e.nodes.cells ∧ st.predicate ∈ e.nodes.cells ∧ st.object ∈ e.nodes.cells
  mentions : ∀ n t, u.Mentions n t → u.Live t
  roots : ∀ id ∈ u.members, u.Live ⟨rootId, id⟩

/-- A universe that is coherent and closed. -/
structure CoherentClosed (u : Universe) : Prop where
  coherent : u.Coherent
  closed : u.Closed

variable {u : Universe} {id : Int} {e : Environment}

/-- A member together with the references is a coherent locale. -/
theorem Coherent.locale (hu : u.Coherent) (he : u.members[id]? = some e) :
    (⟨e, u.references⟩ : Locale).Coherent where
  tabled := hu.tabled id e he
  filed := by
    have hid := hu.ids id e he
    refine ⟨hu.referrers_tight id e he, hu.references_tight, fun k h => ?_, fun t h => ?_⟩
    · rw [hid]
      exact hu.referrers id e he k h
    · rw [hu.references]
      simp only [Environment.node, hid, Mentions, he, Option.some.injEq, exists_eq_left']

theorem environment_iff : u.environment id = .ok e ↔ u.members[id]? = some e := by
  unfold environment
  cases u.members[id]? <;> simp

theorem resolves_iff (hu : u.Coherent) (n : Node) : u.resolves n = true ↔ u.Live n := by
  unfold resolves Live
  cases he : u.members[n.env]? with
  | none => simp
  | some e =>
    simp only [Environment.contains, hu.ids n.env e he, beq_self_eq_true, Bool.true_and,
      Option.some.injEq, exists_eq_left', ExtTreeMap.contains_iff_mem]

/-- An environment knows what is live, whether here or elsewhere. -/
theorem knows_iff (hu : u.Coherent) (he : u.members[id]? = some e) (n : Node) :
    (⟨e, u.references⟩ : Locale).Knows (u.surroundings id) n ↔ u.Live n := by
  have hid := hu.ids id e he
  constructor
  · intro h
    by_cases hn : n.env = e.id
    · exact ⟨e, by rw [hn, hid]; exact he, h.here hn⟩
    · exact (resolves_iff hu n).1 (h.there hn)
  · intro h
    refine ⟨fun hn => ?_, fun _ => (resolves_iff hu n).2 h⟩
    obtain ⟨e', he', hc⟩ := h
    rw [hn] at he'
    simp only [hid, he, Option.some.injEq] at he'
    rwa [← he'] at hc

/-! ## Putting a member back -/

theorem putBack_members (u : Universe) (id : Int) (l : Locale) :
    (u.putBack id l).members = u.members.insert id l.env := rfl

theorem putBack_self (hu : u.Coherent) (he : u.members[id]? = some e) :
    u.putBack id ⟨e, u.references⟩ = u := by
  obtain ⟨members, references, heirs⟩ := u
  obtain rfl : heirs = [] := hu.heirs
  simp only [putBack, insert_of_present he, List.map_nil]

theorem putBack_putBack (hu : u.Coherent) (l l' : Locale) :
    (u.putBack id l).putBack id l' = u.putBack id l' := by
  simp only [putBack, insert_insert_table, hu.heirs, List.map_nil]

theorem live_putBack_iff (l : Locale) (n : Node) :
    (u.putBack id l).Live n ↔ (n.env = id ∧ n.id ∈ l.env.nodes.cells) ∨ (n.env ≠ id ∧ u.Live n) := by
  simp only [Live, putBack_members, getElem?_insert_iff]
  constructor
  · rintro ⟨e, ⟨hn, rfl⟩ | ⟨hn, he⟩, hc⟩
    · exact .inl ⟨hn, hc⟩
    · exact .inr ⟨hn, e, he, hc⟩
  · rintro (⟨hn, hc⟩ | ⟨hn, e, he, hc⟩)
    · exact ⟨l.env, .inl ⟨hn, rfl⟩, hc⟩
    · exact ⟨e, .inr ⟨hn, he⟩, hc⟩

theorem mentions_putBack_iff (l : Locale) (n t : Node) :
    (u.putBack id l).Mentions n t ↔
      (n.env = id ∧ l.env.Mentions n.id t) ∨ (n.env ≠ id ∧ u.Mentions n t) := by
  simp only [Mentions, putBack_members, getElem?_insert_iff]
  constructor
  · rintro ⟨e, ⟨hn, rfl⟩ | ⟨hn, he⟩, hc⟩
    · exact .inl ⟨hn, hc⟩
    · exact .inr ⟨hn, e, he, hc⟩
  · rintro (⟨hn, hc⟩ | ⟨hn, e, he, hc⟩)
    · exact ⟨l.env, .inl ⟨hn, rfl⟩, hc⟩
    · exact ⟨e, .inr ⟨hn, he⟩, hc⟩

/-- A coherent member of the same id that filed nothing for others can be put back. -/
theorem Coherent.putBack (hu : u.Coherent) (he : u.members[id]? = some e) {l : Locale}
    (hl : l.Coherent) (hid : l.env.id = e.id) (hels : Locale.Elsewhere ⟨e, u.references⟩ l) :
    (u.putBack id l).Coherent := by
  have hid : l.env.id = id := hid.trans (hu.ids id e he)
  refine ⟨?_, fun k e' hk => ?_, ?_, fun k e' hk => ?_, fun k e' hk => ?_, fun k e' hk => ?_,
    hl.filed.references_tight, fun t n => ?_⟩
  · simp only [Universe.putBack, hu.heirs, List.map_nil]
  · rcases (getElem?_insert_iff _ _ _ _ _).1 hk with ⟨rfl, rfl⟩ | ⟨-, hk⟩
    · exact hid
    · exact hu.ids k e' hk
  · exact (mem_insert_iff _ _ _ _).2 (.inr hu.root)
  · rcases (getElem?_insert_iff _ _ _ _ _).1 hk with ⟨rfl, rfl⟩ | ⟨-, hk⟩
    · exact hl.tabled
    · exact hu.tabled k e' hk
  · rcases (getElem?_insert_iff _ _ _ _ _).1 hk with ⟨rfl, rfl⟩ | ⟨-, hk⟩
    · exact hl.filed.referrers_tight
    · exact hu.referrers_tight k e' hk
  · rcases (getElem?_insert_iff _ _ _ _ _).1 hk with ⟨rfl, rfl⟩ | ⟨-, hk⟩
    · rw [← hid]
      exact hl.filed.within
    · exact hu.referrers k e' hk
  · rw [mentions_putBack_iff]
    change n ∈ l.references.bucket t ↔ _
    by_cases hn : n.env = id
    · have := hl.filed.across t n.id
      have hnode : l.env.node n.id = n := by
        cases n; cases hn; rw [Environment.node, hid]
      rw [hnode, hid] at this
      simpa only [hn, true_and, ne_eq, not_true, false_and, or_false] using this
    · have := hels t n (by rw [hu.ids id e he]; exact hn)
      rw [hu.references] at this
      simpa only [hn, false_and, ne_eq, not_false_eq_true, true_and, false_or] using this

/-! ## Operations on a member -/

/-- What an operation on a member ends in is what it ends in on the locale of the member. -/
theorem within_ends {α : Type} {op : Surroundings → Op α} {Q : α → Universe → Prop}
    {E : Fault → Universe → Prop} (hu : u.Coherent)
    (h : ∀ e, u.members[id]? = some e → Ends (op (u.surroundings id)) ⟨e, u.references⟩
      (fun a l => Q a (u.putBack id l)) (fun f l => E f (u.putBack id l)))
    (hnone : u.members[id]? = none → E (.noEnvironment id) u) :
    Ends (within id op) u Q E := by
  have hh : u.heirOf id = none := by simp only [heirOf, hu.heirs, List.findSome?_nil]
  unfold Ends within environment
  rw [hh]
  cases he : u.members[id]? with
  | none => exact hnone he
  | some e =>
    have := h e he
    unfold Ends at this
    simp only
    cases hop : op (u.surroundings id) ⟨e, u.references⟩ with
    | ok a l => rw [hop] at this; exact this
    | error f l => rw [hop] at this; exact this

/-! ## Alterations of members -/

/-- A member is altered. The place of a change is the id of the member. -/
def Alters (u : Universe) (c : Int × Undo) (u' : Universe) : Prop :=
  ∃ e l, u.members[c.1]? = some e ∧
    Locale.Alters (u.surroundings c.1) ⟨e, u.references⟩ c.2 l ∧ u' = u.putBack c.1 l

theorem Alters.coherent (hu : u.Coherent) {c : Int × Undo} {u' : Universe} (h : u.Alters c u') :
    u'.Coherent := by
  obtain ⟨e, l, he, h, rfl⟩ := h
  obtain ⟨g, next, hb, -⟩ := h.becomes
  exact hu.putBack he hb.coherent hb.id hb.elsewhere

/-- A closed universe is closed after a cell was put at a handle, if all it mentions is live, and
if the parts of the triples are. -/
theorem Closed.put (hu : u.Closed) (he : u.members[id]? = some e) {l : Locale} {h : Int} {c : Cell}
    (hcells : l.env.nodes.cells = e.nodes.cells.insert h c) (hc : ∀ m ∈ c.mentions, u.Live m)
    (hst : ∀ (k : Int) (st : Statement), l.env.triples.statements[k]? = some st →
      st.subject ∈ e.nodes.cells ∧ st.predicate ∈ e.nodes.cells ∧ st.object ∈ e.nodes.cells) :
    (u.putBack id l).Closed := by
  have hsub : ∀ k, k ∈ e.nodes.cells → k ∈ l.env.nodes.cells := by
    intro k hk
    rw [hcells]
    exact (mem_insert_iff _ _ _ _).2 (.inr hk)
  have hlive : ∀ n, u.Live n → (u.putBack id l).Live n := by
    intro n hn
    rw [live_putBack_iff]
    by_cases hne : n.env = id
    · obtain ⟨e', he', hk⟩ := hn
      rw [hne, he] at he'
      cases he'
      exact .inl ⟨hne, hsub _ hk⟩
    · exact .inr ⟨hne, hn⟩
  refine ⟨fun k e' hk x st hx => ?_, fun n t hm => ?_, fun k hk => ?_⟩
  · rcases (getElem?_insert_iff _ _ _ _ _).1 hk with ⟨-, rfl⟩ | ⟨-, hk⟩
    · obtain ⟨hs, hp, ho⟩ := hst x st hx
      exact ⟨hsub _ hs, hsub _ hp, hsub _ ho⟩
    · exact hu.parts k e' hk x st hx
  · refine hlive t ?_
    rcases (mentions_putBack_iff l n t).1 hm with ⟨hne, c', hc', ht⟩ | ⟨-, hm⟩
    · rw [hcells] at hc'
      rcases (getElem?_insert_iff _ _ _ _ _).1 hc' with ⟨-, rfl⟩ | ⟨-, hc'⟩
      · exact hc t ht
      · exact hu.mentions n t ⟨e, by rw [hne]; exact he, c', hc', ht⟩
    · exact hu.mentions n t hm
  · refine hlive _ (hu.roots k ?_)
    rcases (mem_insert_iff _ _ _ _).1 hk with rfl | hk
    · exact mem_of_getElem? he
    · exact hk

/-- A closed universe is closed after a handle was removed that nothing used. -/
theorem Closed.without (hc : u.Closed) (hu : u.Coherent) (he : u.members[id]? = some e) {l : Locale}
    {h : Int} (hunused : Locale.Unused ⟨e, u.references⟩ (u.surroundings id) h)
    (hb : Locale.Becomes ⟨e, u.references⟩ l (e.contents.without h) e.nodes.next) :
    (u.putBack id l).Closed := by
  have hid := hu.ids id e he
  have hlive : ∀ n, u.Live n → n ≠ ⟨id, h⟩ → (u.putBack id l).Live n := by
    intro n hn hne
    rw [live_putBack_iff]
    by_cases henv : n.env = id
    · obtain ⟨e', he', hk⟩ := hn
      rw [henv, he] at he'
      cases he'
      refine .inl ⟨henv, ?_⟩
      rw [hb.cells]
      refine (mem_erase_iff _ _ _).2 ⟨fun hnh => hne ?_, hk⟩
      cases n; cases henv; cases hnh; rfl
    · exact .inr ⟨henv, hn⟩
  refine ⟨fun k e' hk x st hx => ?_, fun n t hm => ?_, fun k hk => ?_⟩
  · rcases (getElem?_insert_iff _ _ _ _ _).1 hk with ⟨-, rfl⟩ | ⟨-, hk⟩
    · rw [hb.statements] at hx
      have hx := ((getElem?_erase_iff _ _ _ _).1 hx).2
      obtain ⟨hs, hp, ho⟩ := hc.parts id e he x st hx
      obtain ⟨hs', hp', ho'⟩ := hunused.no_triple x st hx
      rw [hb.cells]
      exact ⟨(mem_erase_iff _ _ _).2 ⟨hs', hs⟩, (mem_erase_iff _ _ _).2 ⟨hp', hp⟩,
        (mem_erase_iff _ _ _).2 ⟨ho', ho⟩⟩
    · exact hc.parts k e' hk x st hx
  · -- whoever mentions the handle is in this environment or filed among the references
    have hm' : u.Mentions n t := by
      rcases (mentions_putBack_iff l n t).1 hm with ⟨hne, c', hc', ht⟩ | ⟨-, hm⟩
      · rw [hb.cells] at hc'
        exact ⟨e, by rw [hne]; exact he, c', ((getElem?_erase_iff _ _ _ _).1 hc').2, ht⟩
      · exact hm
    refine hlive t (hc.mentions n t hm') ?_
    rintro rfl
    by_cases hne : n.env = id
    · obtain ⟨e', he', hm'⟩ := hm'
      rw [hne, he] at he'
      cases he'
      refine hunused.no_mention n.id ?_
      rw [Environment.node, hid]
      exact hm'
    · refine hunused.no_reference n ?_
      simp only [Environment.node, hid]
      exact (hu.references _ n).2 ⟨fun x => hne x.symm, hm'⟩
  · have hku : k ∈ u.members := by
      rcases (mem_insert_iff _ _ _ _).1 hk with rfl | hk
      · exact mem_of_getElem? he
      · exact hk
    refine hlive _ (hc.roots k hku) fun heq => ?_
    cases heq
    have hpin := hunused.no_pin
    simp only [surroundings, Environment.node, hid, denotes, beq_self_eq_true, Bool.true_and] at hpin
    rw [ExtTreeMap.contains_iff_mem.2 hku] at hpin
    cases hpin

theorem Alters.closed (hu : u.Coherent) (hc : u.Closed) {c : Int × Undo} {u' : Universe}
    (h : u.Alters c u') : u'.Closed := by
  obtain ⟨e, l, he, h, rfl⟩ := h
  have hlive : ∀ m, Locale.Knows ⟨e, u.references⟩ (u.surroundings c.1) m → u.Live m :=
    fun m => (knows_iff hu he m).1
  generalize c.2 = undo at h
  cases h with
  | @made _ cell name _ known _ _ hb =>
    have hcells : l.env.nodes.cells = e.nodes.cells.insert e.nodes.next cell := by
      rw [hb.cells]; cases name <;> rfl
    have hst : l.env.triples.statements = e.triples.statements := by
      rw [hb.statements]; cases name <;> rfl
    refine hc.put he hcells (fun m hm => hlive m (known m hm)) fun k st hk => ?_
    rw [hst] at hk
    exact hc.parts _ e he k st hk
  | @related _ st hs hp ho _ hb =>
    refine hc.put he hb.cells (fun m hm => by cases hm) fun k st' hk => ?_
    rw [hb.statements] at hk
    rcases (getElem?_insert_iff _ _ _ _ _).1 hk with ⟨-, rfl⟩ | ⟨-, hk⟩
    · exact ⟨hs, hp, ho⟩
    · exact hc.parts _ e he k st' hk
  | replaced cell known hb =>
    refine hc.put he hb.cells (fun m hm => hlive m (known m hm)) fun k st hk => ?_
    rw [hb.statements] at hk
    exact hc.parts _ e he k st hk
  | removedNode _ _ _ unused hb => exact hc.without hu he unused hb
  | removedTriple _ _ unused hb => exact hc.without hu he unused hb

end Universe

end GraphLisp
