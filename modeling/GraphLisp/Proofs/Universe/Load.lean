import GraphLisp.Proofs.Environment.Restore
import GraphLisp.Proofs.Universe.Rollback
import GraphLisp.Session
/-!
# Loaded universes

A universe is taken in one environment at a time, and until the last one is there, structures may
mention nodes of environments that are still missing. `Universe.Loading` says what holds in the
meantime; the check of all references at the end makes the universe closed
(`Universe.load_loading`).
-/

namespace GraphLisp

open Std

/-! ## References out of an environment -/

theorem Environment.mem_foreignReferences_iff (e : Environment) (n t : Node) :
    (n, t) ∈ e.foreignReferences ↔ n.env = e.id ∧ t.env ≠ e.id ∧ e.Mentions n.id t := by
  unfold foreignReferences Mentions
  simp only [List.mem_flatMap, List.mem_map, List.mem_filter, Prod.exists, Prod.mk.injEq,
    ExtTreeMap.mem_toList_iff_getElem?_eq_some, decide_eq_true_eq]
  constructor
  · rintro ⟨h, c, hc, m, ⟨hm, hne⟩, rfl, rfl⟩
    exact ⟨rfl, hne, c, hc, hm⟩
  · rintro ⟨hn, hne, c, hc, hm⟩
    refine ⟨n.id, c, hc, t, ⟨hm, hne⟩, ?_, rfl⟩
    cases n; cases hn; rfl

namespace Universe

theorem wire_lists (e : Environment) (refs : CrossReferences) (ht : refs.Tight) :
    (wire refs e).Tight ∧ ∀ t n, n ∈ (wire refs e).bucket t ↔
      (n, t) ∈ e.foreignReferences ∨ n ∈ refs.bucket t := by
  unfold wire
  generalize e.foreignReferences = rs
  induction rs generalizing refs with
  | nil => exact ⟨ht, fun t n => by simp⟩
  | cons r rs ih =>
    obtain ⟨ht', hm⟩ := ih (refs.file r.2 r.1) (ht.file _ _)
    refine ⟨ht', fun t n => (hm t n).trans ?_⟩
    rw [Index.mem_bucket_file, List.mem_cons, Prod.ext_iff]
    constructor
    · rintro (h | ⟨rfl, rfl⟩ | h)
      · exact .inl (.inr h)
      · exact .inl (.inl ⟨rfl, rfl⟩)
      · exact .inr h
    · rintro ((⟨rfl, rfl⟩ | h) | h)
      · exact .inr (.inl ⟨rfl, rfl⟩)
      · exact .inl h
      · exact .inr (.inr h)

/-! ## Taking in environments -/

/-- Triples have no names. -/
def Unnamed (u : Universe) : Prop :=
  ∀ (id : Int) (e : Environment), u.members[id]? = some e →
    ∀ h : Int, e.nodes.cells[h]? = some .triple → e.nodes.nameOf[h]? = none

/-- No environment keeps nodes for other reasons than that they are used. -/
def Unpinned (u : Universe) : Prop :=
  ∀ (id : Int) (e : Environment), u.members[id]? = some e → e.pins = []

/-- A universe that is coherent, and closed but for references to environments that are still missing. -/
structure Loading (u : Universe) : Prop where
  coherent : u.Coherent
  whole : ∀ (id : Int) (e : Environment), u.members[id]? = some e → e.Whole
  known : ∀ n t, u.Mentions n t → t.env = n.env → u.Live t
  roots : ∀ id ∈ u.members, u.Live ⟨rootId, id⟩
  unnamed : u.Unnamed
  unpinned : u.Unpinned

/-- The universe with another member and its references. -/
def adopt (u : Universe) (e : Environment) : Universe :=
  { u with members := u.members.insert e.id e, references := wire u.references e }

theorem live_adopt_iff {u : Universe} {e : Environment} (n : Node) :
    (u.adopt e).Live n ↔ (n.env = e.id ∧ n.id ∈ e.nodes.cells) ∨ (n.env ≠ e.id ∧ u.Live n) := by
  simp only [Live, adopt, getElem?_insert_iff]
  constructor
  · rintro ⟨e', ⟨hn, rfl⟩ | ⟨hn, he⟩, hc⟩
    · exact .inl ⟨hn, hc⟩
    · exact .inr ⟨hn, e', he, hc⟩
  · rintro (⟨hn, hc⟩ | ⟨hn, e', he, hc⟩)
    · exact ⟨e, .inl ⟨hn, rfl⟩, hc⟩
    · exact ⟨e', .inr ⟨hn, he⟩, hc⟩

theorem mentions_adopt_iff {u : Universe} {e : Environment} (n t : Node) :
    (u.adopt e).Mentions n t ↔
      (n.env = e.id ∧ e.Mentions n.id t) ∨ (n.env ≠ e.id ∧ u.Mentions n t) := by
  simp only [Mentions, adopt, getElem?_insert_iff]
  constructor
  · rintro ⟨e', ⟨hn, rfl⟩ | ⟨hn, he⟩, hc⟩
    · exact .inl ⟨hn, hc⟩
    · exact .inr ⟨hn, e', he, hc⟩
  · rintro (⟨hn, hc⟩ | ⟨hn, e', he, hc⟩)
    · exact ⟨e, .inl ⟨hn, rfl⟩, hc⟩
    · exact ⟨e', .inr ⟨hn, he⟩, hc⟩

/-- Nothing new is live or mentioned in what was there before. -/
theorem live_adopt {u : Universe} {e : Environment} (hfree : e.id ∉ u.members) {n : Node}
    (hn : u.Live n) : (u.adopt e).Live n := by
  refine (live_adopt_iff n).2 (.inr ⟨fun h => ?_, hn⟩)
  obtain ⟨e', he', -⟩ := hn
  exact hfree (h ▸ mem_of_getElem? he')

theorem Coherent.adopt {u : Universe} {e : Environment} (hu : u.Coherent) (he : e.Standalone)
    (hfree : e.id ∉ u.members) : (u.adopt e).Coherent := by
  obtain ⟨htight, hlists⟩ := wire_lists e u.references hu.references_tight
  refine ⟨hu.heirs, fun k e' hk => ?_, (mem_insert_iff _ _ _ _).2 (.inr hu.root), fun k e' hk => ?_,
    fun k e' hk => ?_, fun k e' hk => ?_, htight, fun t n => ?_⟩
  · rcases (getElem?_insert_iff _ _ _ _ _).1 hk with ⟨rfl, rfl⟩ | ⟨-, hk⟩
    · rfl
    · exact hu.ids k e' hk
  · rcases (getElem?_insert_iff _ _ _ _ _).1 hk with ⟨rfl, rfl⟩ | ⟨-, hk⟩
    · exact he.tabled
    · exact hu.tabled k e' hk
  · rcases (getElem?_insert_iff _ _ _ _ _).1 hk with ⟨rfl, rfl⟩ | ⟨-, hk⟩
    · exact he.referrers_tight
    · exact hu.referrers_tight k e' hk
  · rcases (getElem?_insert_iff _ _ _ _ _).1 hk with ⟨rfl, rfl⟩ | ⟨-, hk⟩
    · exact he.referrers
    · exact hu.referrers k e' hk
  · refine (hlists t n).trans ?_
    rw [e.mem_foreignReferences_iff, mentions_adopt_iff, hu.references]
    by_cases hn : n.env = e.id
    · have : ¬u.Mentions n t := fun ⟨e', he', _⟩ => hfree (hn ▸ mem_of_getElem? he')
      simp [hn, this]
    · simp [hn]

theorem Loading.adopt {u : Universe} {e : Environment} (hu : u.Loading) (he : e.Standalone)
    (hfree : e.id ∉ u.members) (hroot : u.Live ⟨rootId, e.id⟩) : (u.adopt e).Loading := by
  refine ⟨hu.coherent.adopt he hfree, fun k e' hk => ?_, fun n t hm ht => ?_, fun k hk => ?_,
    fun k e' hk => ?_, fun k e' hk => ?_⟩
  · rcases (getElem?_insert_iff _ _ _ _ _).1 hk with ⟨rfl, rfl⟩ | ⟨-, hk⟩
    · exact he.whole
    · exact hu.whole k e' hk
  · rcases (mentions_adopt_iff n t).1 hm with ⟨hn, hm⟩ | ⟨-, hm⟩
    · exact (live_adopt_iff t).2 (.inl ⟨ht.trans hn, he.known _ t hm (ht.trans hn)⟩)
    · exact live_adopt hfree (hu.known n t hm ht)
  · rcases (mem_insert_iff _ _ _ _).1 hk with rfl | hk
    · exact live_adopt hfree hroot
    · exact live_adopt hfree (hu.roots k hk)
  · rcases (getElem?_insert_iff _ _ _ _ _).1 hk with ⟨rfl, rfl⟩ | ⟨-, hk⟩
    · exact he.unnamed
    · exact hu.unnamed k e' hk
  · rcases (getElem?_insert_iff _ _ _ _ _).1 hk with ⟨rfl, rfl⟩ | ⟨-, hk⟩
    · exact he.pins
    · exact hu.unpinned k e' hk

theorem Standalone.unpinned {e : Environment} (he : e.Standalone) : { e with pins := [] } = e := by
  have := he.pins
  obtain ⟨id, nodes, triples, pins⟩ := e
  cases this
  rfl

/-- A root alone. -/
theorem ofRoot_loading {e : Environment} (he : e.Standalone) {u : Universe} (hu : ofRoot e = .ok u) :
    u.Loading := by
  unfold ofRoot at hu
  split at hu
  · cases hu
  next hid =>
  have hid : e.id = rootId := Decidable.not_not.1 hid
  cases hu
  rw [Standalone.unpinned he]
  obtain ⟨htight, hlists⟩ := wire_lists e ∅ .empty
  have hmem : ∀ (k : Int) (e' : Environment),
      ((∅ : ExtTreeMap Int Environment).insert rootId e)[k]? = some e' ↔ k = rootId ∧ e' = e := by
    intro k e'
    rw [getElem?_insert_iff]
    simp
  have hmentions : ∀ n t, Mentions ⟨(∅ : ExtTreeMap Int Environment).insert rootId e, wire ∅ e, []⟩ n t ↔
      n.env = rootId ∧ e.Mentions n.id t := by
    intro n t
    simp only [Mentions, hmem]
    constructor
    · rintro ⟨_, ⟨hn, rfl⟩, hm⟩
      exact ⟨hn, hm⟩
    · rintro ⟨hn, hm⟩
      exact ⟨e, ⟨hn, rfl⟩, hm⟩
  refine ⟨⟨rfl, fun k e' hk => ?_, (mem_insert_iff _ _ _ _).2 (.inl rfl), fun k e' hk => ?_, fun k e' hk => ?_,
    fun k e' hk => ?_, htight, fun t n => ?_⟩, fun k e' hk => ?_, fun n t hm ht => ?_, fun k hk => ?_,
    fun k e' hk => ?_, fun k e' hk => ?_⟩
  · obtain ⟨rfl, rfl⟩ := (hmem k e').1 hk
    exact hid
  · obtain ⟨rfl, rfl⟩ := (hmem k e').1 hk
    exact he.tabled
  · obtain ⟨rfl, rfl⟩ := (hmem k e').1 hk
    exact he.referrers_tight
  · obtain ⟨rfl, rfl⟩ := (hmem k e').1 hk
    rw [← hid]
    exact he.referrers
  · refine (hlists t n).trans ?_
    rw [e.mem_foreignReferences_iff, hmentions, hid]
    constructor
    · rintro (⟨hn, ht, hm⟩ | h)
      · exact ⟨by rw [hn]; exact ht, hn, hm⟩
      · simp [Index.mem_bucket] at h
    · rintro ⟨ht, hn, hm⟩
      exact .inl ⟨hn, by rw [← hn]; exact ht, hm⟩
  · obtain ⟨rfl, rfl⟩ := (hmem k e').1 hk
    exact he.whole
  · obtain ⟨hn, hm⟩ := (hmentions n t).1 hm
    have ht : t.env = e.id := (ht.trans hn).trans hid.symm
    exact ⟨e, (hmem _ _).2 ⟨ht.trans hid, rfl⟩, he.known _ t hm ht⟩
  · obtain ⟨e', he'⟩ := (mem_iff_exists_getElem? _ _).1 hk
    obtain ⟨rfl, -⟩ := (hmem k e').1 he'
    exact ⟨e, (hmem _ _).2 ⟨rfl, rfl⟩, he.tabled.self⟩
  · obtain ⟨rfl, rfl⟩ := (hmem k e').1 hk
    exact he.unnamed
  · obtain ⟨rfl, rfl⟩ := (hmem k e').1 hk
    exact he.pins

theorem root_contains_iff {u : Universe} (hu : u.Coherent) (id : Int) :
    u.root.contains (.node ⟨rootId, id⟩) = true ↔ u.Live ⟨rootId, id⟩ := by
  obtain ⟨e, he⟩ := (mem_iff_exists_getElem? _ _).1 hu.root
  simp only [root, he, Option.getD_some, Environment.contains, hu.ids _ e he, beq_self_eq_true,
    Bool.true_and, ExtTreeMap.contains_iff_mem, Live, Option.some.injEq, exists_eq_left']

/-- An environment is taken in if its id is free and denoted by a node of the root. -/
theorem attach_ends {u : Universe} (hu : u.Coherent) (e : Environment) :
    Ends (attach e) u
      (fun _ u' => e.id ∉ u.members ∧ u.Live ⟨rootId, e.id⟩ ∧ u' = u.adopt e) (fun _ u' => u' = u) := by
  unfold attach
  simp only [ends_bind, ends_get]
  split
  · rfl
  next hfree =>
  split
  · rfl
  next hroot =>
  simp only [Bool.not_eq_eq_eq_not, Bool.not_true, Bool.not_eq_false] at hroot
  exact ⟨hfree, (root_contains_iff hu e.id).1 hroot, rfl⟩

theorem loadMember_loading {u u' : Universe} (hu : u.Loading) {id : Int} {file : String × ByteArray}
    (h : loadMember u id file = .ok u') : u'.Loading := by
  unfold loadMember at h
  rw [except_bind_ok] at h
  obtain ⟨e, he, h⟩ := h
  unfold Environment.restore at he
  rw [except_bind_ok] at he
  obtain ⟨found, -, he⟩ := he
  split at h
  · cases h
  split at h
  · cases h
  have hends := attach_ends hu.coherent e
  split at h
  · next heq =>
    cases h
    obtain ⟨hfree, hroot, rfl⟩ := hends.of_ok heq
    exact hu.adopt (Environment.fromRecord_standalone he) hfree hroot
  · cases h

theorem mem_environments {u : Universe} (e : Environment) :
    e ∈ u.environments ↔ ∃ id : Int, u.members[id]? = some e := by
  simp [environments, ExtTreeMap.mem_toList_iff_getElem?_eq_some]

/-- With all references checked, nothing leads to a node that is gone. -/
theorem Loading.closed {u : Universe} (hu : u.Loading) (h : u.checkReferences = .ok ()) : u.Closed := by
  refine ⟨hu.whole, fun n t hm => ?_, hu.roots⟩
  by_cases ht : t.env = n.env
  · exact hu.known n t hm ht
  · obtain ⟨e, he, hm⟩ := hm
    have hid := hu.coherent.ids _ e he
    have hmem : (n, t) ∈ u.environments.flatMap Environment.foreignReferences := by
      refine List.mem_flatMap.2 ⟨e, (mem_environments e).2 ⟨_, he⟩, ?_⟩
      exact (e.mem_foreignReferences_iff n t).2 ⟨hid.symm, by rw [hid]; exact ht, hm⟩
    unfold checkReferences at h
    dsimp only at h
    split at h
    · cases h
    · next hnone =>
      have := List.find?_eq_none.1 hnone _ hmem
      simp only [Bool.not_eq_eq_eq_not, Bool.not_true, Bool.not_eq_false] at this
      exact (resolves_iff hu.coherent t).1 this

/-! ## Starting points -/

theorem fresh_standalone (id : Int) : (Environment.fresh id).Standalone := by
  have hcells : ∀ (h : Int) (c : Cell), (Environment.fresh id).nodes.cells[h]? = some c ↔
      h = selfHandle ∧ c = .plain none := by
    intro h c
    refine (getElem?_insert_iff _ _ _ _ _).trans ?_
    simp [NodeTable.empty]
  have hquiet : ∀ h n, ¬(Environment.fresh id).Mentions h n := by
    rintro h n ⟨c, hc, hn⟩
    obtain ⟨-, rfl⟩ := (hcells h c).1 hc
    cases hn
  refine ⟨⟨(mem_insert_iff _ _ _ _).2 (.inl rfl), fun h hh => ?_, ⟨fun s h => ?_, fun h s hs => ?_⟩,
    fun t h => ?_, fun h t hh => ?_, TripleStore.coherent_empty, fun h => ?_⟩, .empty, fun k h => ?_,
    fun h st hst => ?_, fun h t hm => absurd hm (hquiet h t), fun h hh => ?_, rfl⟩
  · obtain ⟨c, hc⟩ := (mem_iff_exists_getElem? _ _).1 hh
    obtain ⟨rfl, -⟩ := (hcells h c).1 hc
    exact ⟨Int.le_refl _, Int.zero_lt_one⟩
  · simp [Environment.fresh, NodeTable.empty]
  · simp [Environment.fresh, NodeTable.empty] at hs
  · rw [hcells]
    simp [Environment.fresh, NodeTable.empty]
  · cases ((hcells h _).1 hh).2
  · rw [hcells]
    simp [Environment.fresh, Environment.blank, TripleStore.empty]
  · refine ⟨fun hh => ?_, fun hm => absurd hm (hquiet h _)⟩
    simp [Environment.fresh, NodeTable.empty, Index.mem_bucket] at hh
  · simp [Environment.fresh, Environment.blank, TripleStore.empty] at hst
  · cases ((hcells h _).1 hh).2

theorem empty_loading : empty.Loading :=
  ofRoot_loading (fresh_standalone rootId) rfl

theorem empty_coherentClosed : empty.CoherentClosed where
  coherent := empty_loading.coherent
  closed := by
    refine empty_loading.closed ?_
    rfl

theorem load_loading {label : String} {f : Folder} {u : Universe} (h : load label f = .ok u) :
    u.Loading ∧ u.Closed := by
  unfold load at h
  dsimp only at h
  split at h
  · split at h
    · cases h
      exact ⟨empty_loading, empty_coherentClosed.closed⟩
    · cases h
  · simp only [except_bind_ok] at h
    obtain ⟨e, he, h⟩ := h
    unfold Environment.restore at he
    rw [except_bind_ok] at he
    obtain ⟨found, -, he⟩ := he
    split at h
    · cases h
    · simp only [except_bind_ok] at h
      obtain ⟨u₀, h₀, u₁, h₁, ⟨⟩, h₂, h⟩ := h
      cases h
      have hu₀ := ofRoot_loading (Environment.fromRecord_standalone he) h₀
      have hu := foldlM_keeps (fun _ _ _ hb hf => loadMember_loading hb hf) _ hu₀ h₁
      exact ⟨hu, hu.closed h₂⟩

end Universe

end GraphLisp
