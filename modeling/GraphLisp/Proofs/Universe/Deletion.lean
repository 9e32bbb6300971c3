import GraphLisp.Proofs.Environment.Deletion
import GraphLisp.Proofs.Universe.Histories
/-!
# What may be deleted

A node of a universe is in use if it is the self node of its environment, part of a live triple, shown
by a live node of any environment, or the node of an environment. Exactly the nodes in use are refused
when they are to be deleted, whatever has been done to the universe before: every other one is gone then,
and nothing else has changed (`Universe.evolved_deletes`).
-/

namespace GraphLisp

open Std

/-! ## Pins -/

namespace Universe

variable {u : Universe}

theorem Alterations.unpinned {v : Universe} {J : Journal Int} (h : u.Alterations J v) (hu : u.Unpinned) :
    v.Unpinned := by
  induction h with
  | none => exact hu
  | more _ h' ih => exact h'.unpinned ih

theorem Unpinned.putBack (hu : u.Unpinned) {id : Int} {l : Locale} (hl : l.env.pins = []) :
    (u.putBack id l).Unpinned := by
  intro k e hk
  rcases (getElem?_insert_iff _ _ _ _ _).1 hk with ⟨-, rfl⟩ | ⟨-, hk⟩
  · exact hl
  · exact hu k e hk

/-- A coherent universe in which nothing is pinned. -/
structure CoherentUnpinned (u : Universe) : Prop where
  coherent : u.Coherent
  unpinned : u.Unpinned

theorem coherentUnpinned_abiding : Abiding CoherentUnpinned where
  coherent hu := hu.coherent
  changes hu he h := ⟨hu.coherent.changes he h, hu.unpinned.putBack (h.pins.trans (hu.unpinned _ _ he))⟩
  adopt {u id} hu hfree _ := by
    refine ⟨hu.coherent.adopt (fresh_standalone _) hfree, fun k e hk => ?_⟩
    rcases (getElem?_insert_iff _ _ _ _ _).1 hk with ⟨rfl, rfl⟩ | ⟨-, hk⟩
    · rfl
    · exact hu.unpinned k e hk

theorem CoherentUnpinned.turn (hu : u.CoherentUnpinned) (context : Context) (t : Turn) :
    (t.play context u).CoherentUnpinned := by
  obtain ⟨J, K, u₁, -, -, -, h, hr, -⟩ := t.play_leads context hu.coherent
  refine ⟨hr.coherent, fun id e he => ?_⟩
  obtain ⟨e₁, he₁⟩ := hr.exists_before he
  exact (hr.each id e₁ e he₁ he).pins.trans (h.unpinned hu.unpinned id e₁ he₁)

/-- No action pins a node. -/
theorem CoherentUnpinned.evolved (hu : u.CoherentUnpinned) (actions : List Action) :
    (u.evolved actions).CoherentUnpinned := by
  unfold Universe.evolved
  induction actions generalizing u with
  | nil => exact hu
  | cons a rest ih => exact ih (coherentUnpinned_abiding.play hu hu.turn a)

theorem start_coherentUnpinned (hu : u = .empty ∨ ∃ label f, load label f = .ok u) : u.CoherentUnpinned := by
  refine ⟨(start_coherentClosed hu).coherent, ?_⟩
  rcases hu with rfl | ⟨label, f, h⟩
  · exact empty_loading.unpinned
  · exact (load_loading h).1.unpinned

/-! ## Nodes in use -/

/-- A live node of some environment shows a node: its structure does, or it stands in for the node. -/
def Shows (u : Universe) (m n : Node) : Prop :=
  ∃ e c, u.members[m.env]? = some e ∧ e.nodes.cells[m.id]? = some c ∧ c.Shows n

/-- Something uses a node. -/
inductive InUse (u : Universe) (n : Node) : Prop where
  | self (h : n.id = selfHandle)
  | part {e : Environment} {k : Int} {st : Statement} (he : u.members[n.env]? = some e)
      (hk : e.nodes.cells[k]? = some .triple) (hst : e.triples.statements[k]? = some st)
      (h : st.subject = n.id ∨ st.predicate = n.id ∨ st.object = n.id)
  | shown {m : Node} (h : u.Shows m n)
  | environment (hroot : n.env = rootId) (h : n.id ∈ u.members)

theorem shows_iff (m n : Node) : u.Shows m n ↔ u.Mentions m n := by
  simp only [Shows, Mentions, Environment.Mentions, Cell.shows_iff, exists_and_left]

/-- What an environment finds unused is in use nowhere. -/
theorem unused_iff (hu : u.Coherent) {n : Node} {e : Environment} (he : u.members[n.env]? = some e) :
    (⟨e, u.references⟩ : Locale).Unused (u.surroundings n.env) n.id ↔ ¬u.InUse n := by
  obtain ⟨id, h⟩ := n
  change u.members[id]? = some e at he
  have hid : e.id = id := hu.ids id e he
  have hnode : e.node h = ⟨id, h⟩ := by rw [Environment.node, hid]
  have hdenotes : (u.surroundings id).denotes (e.node h) = true ↔ id = rootId ∧ h ∈ u.members := by
    rw [hnode]
    simp [surroundings, denotes, ExtTreeMap.contains_iff_mem]
  constructor
  · intro hunused hinuse
    cases hinuse with
    | self hself => exact hunused.no_self hself
    | part he' hk hst hpart =>
      cases he.symm.trans he'
      obtain ⟨hs, hp, ho⟩ := hunused.no_triple _ _ hst
      exact hpart.elim hs fun hpart => hpart.elim hp ho
    | @shown m hm =>
      have hm := (shows_iff m _).1 hm
      -- a holder of the same environment is filed there, any other one in the references that are shared
      by_cases hmid : m.env = id
      · obtain ⟨e', he', hm⟩ := hm
        cases (hmid ▸ he').symm.trans he
        exact hunused.no_mention m.id (hnode ▸ hm)
      · have hfiled := (hu.references ⟨id, h⟩ m).2 ⟨fun h => hmid h.symm, hm⟩
        rw [← hnode] at hfiled
        exact hunused.no_reference m hfiled
    | environment hroot hmem =>
      have hpin := hunused.no_pin
      rw [hdenotes.2 ⟨hroot, hmem⟩] at hpin
      cases hpin
  · intro hfree
    refine ⟨fun hself => hfree (.self hself), fun k st hst => ?_, fun k hm => hfree ?_, fun m hm => hfree ?_,
      Bool.eq_false_iff.2 fun hpin => ?_⟩
    · have hk := ((hu.tabled id e he).statements k).1 (mem_of_getElem? hst)
      exact ⟨fun h => hfree (.part he hk hst (.inl h)), fun h => hfree (.part he hk hst (.inr (.inl h))),
        fun h => hfree (.part he hk hst (.inr (.inr h)))⟩
    · exact .shown ((shows_iff ⟨id, k⟩ _).2 ⟨e, he, hnode ▸ hm⟩)
    · exact .shown ((shows_iff m _).2 ((hu.references _ m).1 (hnode ▸ hm)).2)
    · obtain ⟨hroot, hmem⟩ := hdenotes.1 hpin
      exact hfree (.environment hroot hmem)

/-! ## Deletion -/

/-- A universe has lost a node, and nothing else. -/
structure Loses (u : Universe) (n : Node) (u' : Universe) : Prop where
  member : ∃ e e', u.members[n.env]? = some e ∧ e.Loses n.id e' ∧ u'.members = u.members.insert n.env e'
  references : ∀ t m, m ∈ u'.references.bucket t ↔ m ≠ n ∧ m ∈ u.references.bucket t
  heirs : u'.heirs = u.heirs

/-- A change deletes a node and returns a value if nothing uses the node; else it refuses, and changes
nothing. The refusal is told as it is, unless it lists holders and one of them is a node that nothing writes. -/
structure Deletes {α : Type} (u : Universe) (n : Node) (m : Change α) (a : α) : Prop where
  refused : u.InUse n → ∃ f, m u = .error f u ∧ f.kind = .referencedNode ∧ f.offender = some (.node n) ∧
    (f.told = f ∨ f = .usedElsewhere n (u.holders n) ∧ ∃ k ∈ u.holders n, k.isWritable = false)
  deleted : ¬u.InUse n → ∃ u', m u = .ok a u' ∧ u.Loses n u'

/-- An operation that deletes a handle of an environment deletes it in the universe. -/
theorem within_deletes (hu : u.Coherent) {n : Node} {e : Environment} (he : u.members[n.env]? = some e)
    {α : Type} {op : Surroundings → Op α} {a : α}
    (h : Ends (op (u.surroundings n.env)) ⟨e, u.references⟩
      (fun b l => b = a ∧ Locale.Unused ⟨e, u.references⟩ (u.surroundings n.env) n.id ∧
        Locale.Becomes ⟨e, u.references⟩ l (e.contents.without n.id) e.nodes.next)
      (fun f l => l = ⟨e, u.references⟩ ∧ ¬Locale.Unused ⟨e, u.references⟩ (u.surroundings n.env) n.id ∧
        Locale.Refusal ⟨e, u.references⟩ n f)) :
    u.Deletes n (within n.env op) a := by
  have hl := hu.locale he
  have hnode : e.node n.id = n := by rw [Environment.node, hu.ids _ e he]
  have hends : Ends (within n.env op) u (fun b u' => b = a ∧ ¬u.InUse n ∧ u.Loses n u')
      (fun f u' => u' = u ∧ u.InUse n ∧ Locale.Refusal ⟨e, u.references⟩ n f) := by
    refine within_ends hu (fun e' he' => ?_) fun hnone => by cases hnone.symm.trans he
    cases he.symm.trans he'
    refine h.mono ?_ ?_
    · rintro b l ⟨hb, hunused, hbecomes⟩
      refine ⟨hb, (unused_iff hu he).1 hunused, ⟨e, l.env, he, hbecomes.loses hl, rfl⟩, fun t m => ?_, ?_⟩
      · have hrefs := hbecomes.references_without hl t m
        rwa [hnode] at hrefs
      · change u.heirs.map _ = u.heirs
        rw [hu.heirs]
        rfl
    · rintro f _ ⟨rfl, hused, hf⟩
      refine ⟨putBack_self hu he, Classical.not_not.1 fun hfree => hused ?_, hf⟩
      exact (unused_iff hu he).2 hfree
  unfold Ends at hends
  cases hm : within n.env op u with
  | ok b u' =>
    rw [hm] at hends
    obtain ⟨rfl, hfree, hloses⟩ := hends
    exact ⟨fun hused => absurd hused hfree, fun _ => ⟨u', hm, hloses⟩⟩
  | error f u' =>
    rw [hm] at hends
    obtain ⟨rfl, hused, hf⟩ := hends
    exact ⟨fun _ => ⟨f, hm, hf.kind, hf.offender, hf.told⟩, fun hfree => absurd hused hfree⟩

theorem deleteNode_deletes (hu : u.CoherentUnpinned) {n : Node} {e : Environment} {c : Cell}
    (he : u.members[n.env]? = some e) (hc : e.nodes.cells[n.id]? = some c) (hct : c ≠ .triple) :
    u.Deletes n (within n.env fun around => Locale.deleteNode around (.node n)) ⟨e.nodes.nameOf[n.id]?, c⟩ := by
  have hu' := hu.coherent
  have hnode : e.node n.id = n := by rw [Environment.node, hu'.ids _ e he]
  refine within_deletes hu' he ?_
  have h := Locale.deleteNode_exact (hu'.locale he) (hu.unpinned _ e he) (u.surroundings n.env) hc hct
  rwa [hnode] at h

theorem deleteTriple_deletes (hu : u.CoherentUnpinned) {n : Node} {e : Environment} {st : Statement}
    (he : u.members[n.env]? = some e) (hst : e.triples.statements[n.id]? = some st) :
    u.Deletes n (within n.env fun around => Locale.deleteTriple around (.node n))
      (e.node st.subject, e.node st.predicate, e.node st.object) := by
  have hu' := hu.coherent
  have hnode : e.node n.id = n := by rw [Environment.node, hu'.ids _ e he]
  refine within_deletes hu' he ?_
  have h := Locale.deleteTriple_exact (hu'.locale he) (hu.unpinned _ e he) (u.surroundings n.env) hst
  rwa [hnode] at h

/-! ## Holders -/

/-- The holders of a node are the live nodes of other environments that show it, in order. -/
structure ListsHolders (u : Universe) (n : Node) : Prop where
  sorted : (u.holders n).Pairwise fun a b => compare a b = .lt
  mem_iff : ∀ m, m ∈ u.holders n ↔ m.env ≠ n.env ∧ u.Shows m n

theorem Coherent.listsHolders (hu : u.Coherent) (n : Node) : u.ListsHolders n where
  sorted := ExtTreeSet.ordered_toList
  mem_iff m := by
    rw [holders, ExtTreeSet.mem_toList, hu.references, shows_iff]
    exact and_congr_left fun _ => ne_comm

/-! ## Universes that have come about -/

/-- Whatever has been done to the empty universe or to a loaded one, a live node is deleted exactly if
nothing uses it, and its holders are known. -/
theorem evolved_deletes {u : Universe} (hu : u = .empty ∨ ∃ label f, load label f = .ok u)
    (actions : List Action) {n : Node} {e : Environment} {c : Cell}
    (he : (u.evolved actions).members[n.env]? = some e) (hc : e.nodes.cells[n.id]? = some c) :
    (c ≠ .triple → (u.evolved actions).Deletes n
      (within n.env fun around => Locale.deleteNode around (.node n)) ⟨e.nodes.nameOf[n.id]?, c⟩) ∧
    (c = .triple → ∃ st, e.triples.statements[n.id]? = some st ∧ (u.evolved actions).Deletes n
      (within n.env fun around => Locale.deleteTriple around (.node n))
      (e.node st.subject, e.node st.predicate, e.node st.object)) ∧
    (u.evolved actions).ListsHolders n := by
  have hunpinned := (start_coherentUnpinned hu).evolved actions
  have hcoherent := hunpinned.coherent
  refine ⟨fun hct => deleteNode_deletes hunpinned he hc hct, fun hct => ?_, hcoherent.listsHolders n⟩
  subst hct
  obtain ⟨st, hst⟩ := (hcoherent.tabled _ e he).statement_of_triple hc
  exact ⟨st, hst, deleteTriple_deletes hunpinned he hst⟩

/-- The node that is kept by a node of the root stays, and its holder is known. -/
theorem crossing_deletes : (empty.evolved crossing).holders ⟨1, 1⟩ = [⟨0, 2⟩] ∧
    ∃ f, within 1 (fun around => Locale.deleteNode around (.node ⟨1, 1⟩)) (empty.evolved crossing) =
      .error f (empty.evolved crossing) ∧ f.kind = .referencedNode ∧ f.told = f := by
  have hheld : (empty.evolved crossing).holders ⟨1, 1⟩ = [⟨0, 2⟩] := by decide +kernel
  have hlive : (((empty.evolved crossing).members[(1 : Int)]?.bind fun e => e.nodes.cells[(1 : Int)]?).map
      Cell.word) = some "node" := by decide +kernel
  obtain ⟨c, hc, hword⟩ := Option.map_eq_some_iff.1 hlive
  obtain ⟨e, he, hc⟩ := Option.bind_eq_some_iff.1 hc
  have hct : c ≠ .triple := by
    rintro rfl
    exact absurd hword (by decide)
  obtain ⟨hnode, -, hholders⟩ := evolved_deletes (.inl rfl) crossing (n := ⟨1, 1⟩) he hc
  have hshown : (empty.evolved crossing).Shows ⟨0, 2⟩ ⟨1, 1⟩ :=
    ((hholders.mem_iff ⟨0, 2⟩).1 (by rw [hheld]; exact List.mem_singleton.2 rfl)).2
  obtain ⟨f, hf, hkind, -, htold⟩ := (hnode hct).refused (.shown hshown)
  refine ⟨hheld, f, hf, hkind, htold.resolve_right ?_⟩
  rintro ⟨-, k, hk, hunwritable⟩
  rw [hheld] at hk
  cases List.mem_singleton.1 hk
  exact absurd hunwritable (by decide +kernel)

/-- The record of an environment with a node beyond the handles that are given out. It holds a node of
the root. -/
def distant : Plain := .object [("format", .text Environment.recordFormat), ("version", .int 1),
  ("id", .int 1), ("next", .int (Decimal.firstTooLong + 1)), ("nodes", .list [.object [("id", .int 0)],
    .object [("id", .int Decimal.firstTooLong), ("structure", (Structure.node ⟨0, 2⟩).encode)]])]

/-- Once that environment has been taken in, as loading does, the node of the root is not deleted; but
the refusal cannot be told as such, since nothing writes the handle of the node's holder. -/
theorem distant_holder_unspoken : ∃ e u f, Environment.fromRecord distant = .ok e ∧
    attach e (empty.evolved [.operate 0 (.createNode none none), .operate 0 (.createNode none none)]) =
      .ok ⟨⟩ u ∧
    (∃ v, within 0 (fun around => Locale.deleteNode around (.node ⟨0, 2⟩)) u = .error f v) ∧
    f.kind = .referencedNode ∧ f.told.kind = .misuse := by
  have hrun : ((Environment.fromRecord distant).toOption.map fun e =>
      passes (attach e) (empty.evolved [.operate 0 (.createNode none none), .operate 0 (.createNode none none)])
        fun _ u => match within 0 (fun around => Locale.deleteNode around (.node ⟨0, 2⟩)) u with
          | .ok .. => false
          | .error f _ => f.kind == .referencedNode && f.told.kind == .misuse) = some true := by
    decide +kernel
  cases he : Environment.fromRecord distant with
  | error fault =>
    rw [he] at hrun
    cases hrun
  | ok e =>
  rw [he] at hrun
  obtain ⟨_, u, hu, hrun⟩ := exists_of_passes (Option.some.inj hrun)
  refine ⟨e, u, ?_⟩
  cases hd : within 0 (fun around => Locale.deleteNode around (.node ⟨0, 2⟩)) u with
  | ok was v =>
    rw [hd] at hrun
    cases hrun
  | error f v =>
    rw [hd] at hrun
    simp only [Bool.and_eq_true, beq_iff_eq] at hrun
    exact ⟨f, rfl, hu, ⟨v, rfl⟩, hrun⟩

end Universe

end GraphLisp
