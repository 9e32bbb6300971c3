import Mathlib.Data.List.Forall2
import GraphLisp.Proofs.Environment.OnRecord
import GraphLisp.Proofs.Region.Planting
/-!
# Regions written and rebuilt

Unfolding a node and building what comes of it gives the region a second time
(`Locale.Reached.rebuilds`): every node of the region that something leads on from has a new node in
its place, every other node stands for itself, and the triples that were followed are there again
between them. What is shared in the graph is written once for each path and built once for all of
them. Unfolding the new region gives the same list with the new nodes in it, since copies of triples
are in the order of the triples.
-/

namespace GraphLisp

open Std

namespace Structure

mutual

/-- A region with other nodes for its heads and leaves. -/
def transplant (f : Node → Node) : Structure → Structure
  | .node n => .node (f n)
  | .pair (.node n) entries => .pair (.node (f n)) (transplantEntries f entries)
  | s => s

def transplantEntries (f : Node → Node) : Structure → Structure
  | .pair (.pair p (.pair child .nil)) rest =>
    .pair (.pair p (.pair (transplant f child) .nil)) (transplantEntries f rest)
  | s => s

end

end Structure

namespace Environment

variable {e : Environment} {selected : Option (List Node)} {root : Node}

/-- A node can be reached along selected triples. -/
inductive Reaches (e : Environment) (selected : Option (List Node)) (root : Node) : Node → Prop where
  | here : Reaches e selected root root
  | along {h : Int} {st : Statement} (before : Reaches e selected root (e.node st.subject))
    (leads : e.Leads selected h st) : Reaches e selected root (e.node st.object)

/-- A node of the region that something leads on from. -/
structure Heads (e : Environment) (selected : Option (List Node)) (root n : Node) : Prop where
  reached : e.Reaches selected root n
  leads : ∃ h st, e.Leads selected h st ∧ e.node st.subject = n

mutual

/-- What it takes to build a region is all in the region. -/
theorem Unfolds.heads_of_parts (he : e.Tabled) {path : List Node} {n : Node} {s : Structure}
    (h : e.Unfolds selected path n s) (hlive : n = e.node n.id ∧ n.id ∈ e.nodes.cells) (hw : e.Whole)
    (hr : e.Reaches selected root n) : ∀ m, .inl m ∈ s.parts → e.Heads selected root m := by
  cases h with
  | leaf => exact fun m hm => absurd hm List.not_mem_nil
  | @list _ _ ts entries off edges more hentries =>
    intro m hm
    obtain ⟨all, hall, -, hmem⟩ := edges_ok he hlive.2 selected
    rw [← hlive.1, edges] at hall
    cases hall
    have hts : ∀ t ∈ ts, ∃ h st, e.Leads selected h st ∧ e.node st.subject = n ∧ t = e.tripleAt h st := by
      intro t ht
      obtain ⟨h, st, hst, hsub, rfl⟩ := (hmem t).1 ht
      exact ⟨h, st, hst, by rw [hsub, ← hlive.1], rfl⟩
    rcases List.mem_cons.1 hm with heq | hm
    · cases heq
      obtain ⟨t, ht⟩ := List.exists_mem_of_ne_nil _ more
      obtain ⟨h, st, hst, hsub, -⟩ := hts t ht
      exact ⟨hr, h, st, hst, hsub⟩
    · exact hentries.heads_of_parts he hw hr hts m hm

theorem UnfoldsAll.heads_of_parts (he : e.Tabled) {path : List Node} {n : Node} {ts : List Triple} {s : Structure}
    (h : e.UnfoldsAll selected path ts s) (hw : e.Whole) (hr : e.Reaches selected root n)
    (hts : ∀ t ∈ ts, ∃ h st, e.Leads selected h st ∧ e.node st.subject = n ∧ t = e.tripleAt h st) :
    ∀ m, .inl m ∈ s.entryParts n → e.Heads selected root m := by
  cases h with
  | nil => exact fun m hm => absurd hm List.not_mem_nil
  | @cons _ t ts c s child rest =>
    intro m hm
    obtain ⟨h, st, hst, hsub, rfl⟩ := hts t (.head _)
    simp only [Structure.entryParts, List.mem_append, Option.mem_toList, Option.map_eq_some_iff] at hm
    rcases hm with ⟨_, -, heq⟩ | hm | hm
    · cases heq
    · have hr' : e.Reaches selected root (e.node st.object) := .along (hsub ▸ hr) hst
      exact child.heads_of_parts he ⟨rfl, (hw h st hst.stored).2.2⟩ hw hr' m hm
    · exact rest.heads_of_parts he hw hr (fun t ht => hts t (.tail _ ht)) m hm

end

end Environment

namespace Building

variable {around : Surroundings} {l : Locale} {selected : Option (List Node)}
  {parts : List (Node ⊕ Statement)} {log : List Made} {b : Building} {root : Node}

/-- What stands for a node in the region that was built. -/
def image (b : Building) (n : Node) : Node := b.heads[n]?.getD n

namespace Planted

variable (hp : Planted l selected parts log b)
include hp

theorem image_head {n : Node} {j : Int} (hx : .head n j ∈ log) : b.image n = l.env.node j := by
  rw [image, (hp.heads n _).2 ⟨j, hx, rfl⟩]
  rfl

theorem image_other {n : Node} (hx : ∀ j, .head n j ∉ log) : b.image n = n := by
  have hnone : b.heads[n]? = none := Option.eq_none_iff_forall_ne_some.2 fun m hm => by
    obtain ⟨j, hj, -⟩ := (hp.heads n m).1 hm
    exact hx j hj
  rw [image, hnone]
  rfl

theorem image_stands {i j : Int} (h : l.env.Stands selected log i j) :
    b.image (l.env.node i) = l.env.node j := by
  rcases h with hx | ⟨hnil, rfl⟩
  · exact hp.image_head hx
  · exact hp.image_other fun k hk => (hp.leading _ k hk).2 hnil

/-- What is new is not what was there. -/
theorem fresh (hl : l.Coherent) {x : Made} (hx : x ∈ log) : x.handle ∉ l.env.nodes.cells :=
  fun hlive => Int.not_le.2 (hl.tabled.bounds _ hlive).2 (hp.handles x hx).1

theorem image_injective (hl : l.Coherent) {n m : Node} (hn : n.env = l.env.id → n.id ∈ l.env.nodes.cells)
    (hm : m.env = l.env.id → m.id ∈ l.env.nodes.cells) (heq : b.image n = b.image m) : n = m := by
  by_cases hx : ∃ j, .head n j ∈ log
  · obtain ⟨j, hj⟩ := hx
    by_cases hy : ∃ k, .head m k ∈ log
    · obtain ⟨k, hk⟩ := hy
      rw [hp.image_head hj, hp.image_head hk, Locale.node_eq_iff] at heq
      have hsame := List.inj_on_of_nodup_map hp.distinct hj hk heq
      exact (Made.head.inj hsame).1
    · rw [hp.image_head hj, hp.image_other fun k hk => hy ⟨k, hk⟩] at heq
      rw [← heq] at hm
      exact absurd (hm rfl) (hp.fresh hl hj)
  · rw [hp.image_other fun j hj => hx ⟨j, hj⟩] at heq
    by_cases hy : ∃ k, .head m k ∈ log
    · obtain ⟨k, hk⟩ := hy
      rw [hp.image_head hk] at heq
      rw [heq] at hn
      exact absurd (hn rfl) (hp.fresh hl hk)
    · rwa [hp.image_other fun k hk => hy ⟨k, hk⟩] at heq

/-- Where every head is finished, everything that can be reached from the root has something that
stands for it. -/
theorem stands_of_reaches (hl : l.Coherent) (hw : l.env.Whole) (hsettled : Settled l.env selected [] log)
    {i : Int} (hroot : l.env.Stands selected log root.id i) {n : Node}
    (hr : l.env.Reaches selected root n) : ∃ j, l.env.Stands selected log n.id j := by
  induction hr with
  | here => exact ⟨i, hroot⟩
  | @along h st before leads ih =>
    obtain ⟨j, hj⟩ := ih
    have hhead : .head (l.env.node st.subject) j ∈ log := by
      refine hj.resolve_right fun ⟨hnil, _⟩ => ?_
      obtain ⟨ts, hts, -, hmem⟩ := Environment.edges_ok hl.tabled (hw h st leads.stored).1 selected
      cases hnil.symm.trans hts
      exact absurd ((hmem _).2 ⟨h, st, leads, rfl, rfl⟩) List.not_mem_nil
    obtain ⟨k, reads, hx⟩ := hsettled _ j hhead List.not_mem_nil h st leads rfl
    exact ⟨_, (hp.copies st k reads hx).2.2.2⟩

/-- A node of the region that something leads on from has a new node. -/
theorem head_of_heads (hl : l.Coherent) (hw : l.env.Whole) (hsettled : Settled l.env selected [] log)
    {i : Int} (hroot : l.env.Stands selected log root.id i) {n : Node} (hn : l.env.Heads selected root n) :
    ∃ j, .head n j ∈ log := by
  obtain ⟨hreached, h, st, leads, rfl⟩ := hn
  obtain ⟨j, hx | ⟨hnil, -⟩⟩ := hp.stands_of_reaches hl hw hsettled hroot hreached
  · exact ⟨j, hx⟩
  · obtain ⟨ts, hts, -, hmem⟩ := Environment.edges_ok hl.tabled (hw h st leads.stored).1 selected
    cases hnil.symm.trans hts
    exact absurd ((hmem _).2 ⟨h, st, leads, rfl, rfl⟩) List.not_mem_nil

/-! ### What leads on from a new node -/

theorem leads_iff {h : Int} {st : Statement} : b.locale.env.Leads selected h st ↔
    l.env.Leads selected h st ∨ ∃ st₀, .copy st₀ h st ∈ log := by
  have hnode : b.locale.env.node st.predicate = l.env.node st.predicate := hp.becomes.node _
  constructor
  · rintro ⟨stored, picked⟩
    rw [hnode] at picked
    exact ((hp.statements h st).1 stored).imp_left fun hst => ⟨hst, picked⟩
  · rintro (hst | ⟨st₀, hx⟩)
    · refine ⟨(hp.statements h st).2 (.inl hst.stored), ?_⟩
      rw [hnode]
      exact hst.picked
    · obtain ⟨⟨k, hk⟩, -, hpredicate, -⟩ := hp.copies st₀ h st hx
      refine ⟨(hp.statements h st).2 (.inr ⟨st₀, hx⟩), ?_⟩
      rw [hnode, hpredicate]
      exact hk.picked

theorem copy_unique {st reads reads' : Statement} {h h' : Int} (hx : .copy st h reads ∈ log)
    (hx' : .copy st h' reads' ∈ log) : h = h' ∧ reads = reads' := by
  have heq := List.inj_on_of_nodup_map hp.sources hx hx' rfl
  cases heq
  exact ⟨rfl, rfl⟩

/-- Copies of the triples of a node, and no others, lead on from its new node. -/
theorem leads_from_new (hl : l.Coherent) (hw : l.env.Whole) {n : Node} {j : Int} (hn : .head n j ∈ log) {h : Int}
    {st : Statement} (hst : b.locale.env.Leads selected h st) (hsub : st.subject = j) :
    ∃ st₀, .copy st₀ h st ∈ log ∧ l.env.node st₀.subject = n := by
  rcases hp.leads_iff.1 hst with hold | ⟨st₀, hx⟩
  · exact absurd (hsub ▸ (hw h st hold.stored).1) (hp.fresh hl hn)
  · refine ⟨st₀, hx, ?_⟩
    have hsame := List.inj_on_of_nodup_map hp.distinct (hp.copies st₀ h st hx).2.1 hn hsub
    exact (Made.head.inj hsame).1

/-- Nothing more leads on from a node that was there before. -/
theorem leads_from_old (hl : l.Coherent) {i h : Int} {st : Statement} (hi : i ∈ l.env.nodes.cells)
    (hst : b.locale.env.Leads selected h st) (hsub : st.subject = i) : l.env.Leads selected h st := by
  refine (hp.leads_iff.1 hst).resolve_right fun ⟨st₀, hx⟩ => ?_
  exact hp.fresh hl (hp.copies st₀ h st hx).2.1 (hsub ▸ hi)

end Planted

/-- The second triple is the copy of the first one. -/
def Copied (e e' : Environment) (selected : Option (List Node)) (log : List Made) (t t' : Triple) : Prop :=
  ∃ k st h reads, e.Leads selected k st ∧ .copy st h reads ∈ log ∧ t = e.tripleAt k st ∧ t' = e'.tripleAt h reads

/-- What comes in order on the left comes in order on the right. -/
theorem forall₂_pairwise {α β : Type} {R : α → β → Prop} {S : α → α → Prop} {S' : β → β → Prop} {xs : List α}
    {ys : List β} (h : List.Forall₂ R xs ys) (hS : ∀ x x' y y', R x y → R x' y' → S x x' → S' y y')
    (hxs : xs.Pairwise S) : ys.Pairwise S' := by
  induction h with
  | nil => exact .nil
  | cons hxy hrest ih =>
    obtain ⟨hfirst, hxs⟩ := List.pairwise_cons.1 hxs
    refine List.pairwise_cons.2 ⟨fun y' hy' => ?_, ih hxs⟩
    obtain ⟨x', hx', hR⟩ := forall₂_mem_right hrest y' hy'
    exact hS _ _ _ _ hxy hR (hfirst x' hx')

namespace Planted

variable (hp : Planted l selected parts log b)
include hp

/-- Copies of the triples of one node are in the order of the triples. -/
theorem copied_sorted {n : Node} {ts us : List Triple}
    (hof : ∀ t ∈ ts, ∀ k st, t = l.env.tripleAt k st → l.env.node st.subject = n)
    (hsorted : ts.Pairwise fun t t' => t.node.id < t'.node.id)
    (hus : List.Forall₂ (Copied l.env b.locale.env selected log) ts us) :
    us.Pairwise fun u u' => u.node.id < u'.node.id := by
  have hmembers : ts.Pairwise fun t t' => t ∈ ts ∧ t' ∈ ts ∧ t.node.id < t'.node.id :=
    List.Pairwise.imp_of_mem (fun ht ht' hlt => ⟨ht, ht', hlt⟩) hsorted
  refine forall₂_pairwise hus ?_ hmembers
  rintro t t' u u' ⟨k, st, h, reads, hst, hx, rfl, rfl⟩ ⟨k', st', h', reads', hst', hx', rfl, rfl⟩ ⟨ht, ht', hlt⟩
  have hsame := (hof _ ht k st rfl).trans (hof _ ht' k' st' rfl).symm
  have hsubject : st.subject = st'.subject := (Locale.node_eq_iff l.env _ _).1 hsame
  exact hp.order st h reads st' h' reads' hx hx' hsubject k k' hst.stored hst'.stored hlt

/-- The copies of a stored triple are all the same triple. -/
theorem mem_of_copied {ts us : List Triple} (hus : List.Forall₂ (Copied l.env b.locale.env selected log) ts us)
    {k h : Int} {st reads : Statement} (hst : l.env.Leads selected k st) (hx : .copy st h reads ∈ log)
    (ht : l.env.tripleAt k st ∈ ts) : b.locale.env.tripleAt h reads ∈ us := by
  obtain ⟨u, hu, k', st', h', reads', hst', hx', heq, rfl⟩ := forall₂_mem_left hus _ ht
  have hk : k = k' := (Locale.node_eq_iff l.env _ _).1 (congrArg Triple.node heq)
  have hstored := hst'.stored
  rw [← hk, hst.stored] at hstored
  cases hstored
  obtain ⟨rfl, rfl⟩ := hp.copy_unique hx hx'
  exact hu

/-- What leads on from a new node are the copies of what leads on from the node that it stands for, in
the same order. -/
theorem edges_new (hl : l.Coherent) (hw : l.env.Whole) (hsettled : Settled l.env selected [] log) {n : Node}
    {j : Int} {ts : List Triple} (hn : .head n j ∈ log) (hlive : n.id ∈ l.env.nodes.cells)
    (hts : l.env.edges selected n = .ok ts) :
    ∃ ts', b.locale.env.edges selected (l.env.node j) = .ok ts' ∧
      List.Forall₂ (Copied l.env b.locale.env selected log) ts ts' := by
  have hown : n = l.env.node n.id := (hp.leading n j hn).1
  obtain ⟨all, hall, hsorted, hmem⟩ := Environment.edges_ok hl.tabled hlive selected
  rw [← hown, hts] at hall
  cases hall
  have hj : j ∈ b.locale.env.nodes.cells := hp.live_made hn
  obtain ⟨ts', hts', hsorted', hmem'⟩ := Environment.edges_ok hp.becomes.coherent.tabled hj selected
  rw [hp.becomes.node] at hts'
  refine ⟨ts', hts', ?_⟩
  have hof : ∀ t ∈ ts, ∀ k st, t = l.env.tripleAt k st → l.env.node st.subject = n := by
    intro t ht k st heq
    obtain ⟨k', st', -, hsub, rfl⟩ := (hmem t).1 ht
    have hsame : l.env.node st'.subject = l.env.node st.subject := congrArg Triple.subject heq
    rw [← hsame, hsub, ← hown]
  have hcopied : ∀ t ∈ ts, ∃ t', Copied l.env b.locale.env selected log t t' := by
    intro t ht
    obtain ⟨k, st, hst, hsub, rfl⟩ := (hmem t).1 ht
    obtain ⟨h, reads, hx⟩ := hsettled n j hn List.not_mem_nil k st hst (hof _ ht k st rfl)
    exact ⟨_, k, st, h, reads, hst, hx, rfl, rfl⟩
  obtain ⟨us, hus⟩ := exists_forall₂ hcopied
  -- both lists ascend, so it is enough that they have the same members
  have heq : us = ts' := by
    refine Environment.ascending_ext (hp.copied_sorted hof hsorted hus) hsorted' fun u => ?_
    rw [hmem']
    constructor
    · intro hu
      obtain ⟨t, ht, k, st, h, reads, hst, hx, rfl, rfl⟩ := forall₂_mem_right hus u hu
      refine ⟨h, reads, hp.leads_iff.2 (.inr ⟨st, hx⟩), ?_, rfl⟩
      have hhead := (hp.copies st h reads hx).2.1
      rw [hof _ ht k st rfl] at hhead
      exact hp.head_unique hhead hn
    · rintro ⟨h, reads, hst', hsub, rfl⟩
      obtain ⟨st, hx, hst⟩ := hp.leads_from_new hl hw hn hst' hsub
      obtain ⟨⟨k, hk⟩, -⟩ := hp.copies st h reads hx
      exact hp.mem_of_copied hus hk hx ((hmem _).2 ⟨k, st, hk, congrArg Node.id hst, rfl⟩)
  exact heq ▸ hus

/-- Nothing leads on from a node that nothing led on from. -/
theorem edges_leaf (hl : l.Coherent) {n : Node} (hown : n = l.env.node n.id) (hlive : n.id ∈ l.env.nodes.cells)
    (hnil : l.env.edges selected n = .ok []) : b.locale.env.edges selected n = .ok [] := by
  obtain ⟨all, hall, -, hmem⟩ := Environment.edges_ok hl.tabled hlive selected
  rw [← hown, hnil] at hall
  cases hall
  obtain ⟨ts, hts, -, hmem'⟩ := Environment.edges_ok hp.becomes.coherent.tabled (hp.live hlive) selected
  rw [hp.becomes.node, ← hown] at hts
  have hempty : ts = [] := List.eq_nil_iff_forall_not_mem.2 fun t ht => by
    obtain ⟨h, st, hst, hsub, -⟩ := (hmem' t).1 ht
    have hold := hp.leads_from_old hl hlive hst hsub
    exact absurd ((hmem _).2 ⟨h, st, hold, hsub, rfl⟩) List.not_mem_nil
  rw [hts, hempty]

end Planted

/-! ## The new region -/

mutual

/-- The region of a node that was built unfolds as the one that it was built from. -/
theorem again (hp : Planted l selected parts log b) (hl : l.Coherent) (hw : l.env.Whole)
    (hsettled : Settled l.env selected [] log) {i : Int} (hroot : l.env.Stands selected log root.id i)
    {path : List Node} {n : Node} {s : Structure} (h : l.env.Unfolds selected path n s)
    (hpath : ∀ m ∈ path, m.id ∈ l.env.nodes.cells) (hown : n = l.env.node n.id) (hlive : n.id ∈ l.env.nodes.cells)
    (hr : l.env.Reaches selected root n) :
    b.locale.env.Unfolds selected (path.map b.image) (b.image n) (s.transplant b.image) := by
  have hoff : b.image n ∉ path.map b.image := by
    intro hmem
    obtain ⟨m, hm, heq⟩ := List.mem_map.1 hmem
    exact h.off (hp.image_injective hl (fun _ => hpath m hm) (fun _ => hlive) heq ▸ hm)
  cases h with
  | leaf off edges =>
    have himage : b.image n = n := hp.image_other fun j hj => (hp.leading n j hj).2 edges
    rw [Structure.transplant]
    refine .leaf hoff ?_
    rw [himage]
    exact hp.edges_leaf hl hown hlive edges
  | @list _ _ ts entries off edges more hentries =>
    have hstands : ∃ j, .head n j ∈ log := by
      obtain ⟨j, hj | ⟨hnil, -⟩⟩ := hp.stands_of_reaches hl hw hsettled hroot hr
      · exact ⟨j, hown ▸ hj⟩
      · rw [← hown, edges] at hnil
        exact absurd (Except.ok.inj hnil) more
    obtain ⟨j, hj⟩ := hstands
    obtain ⟨ts', hts', hcopied⟩ := hp.edges_new hl hw hsettled hj hlive edges
    rw [Structure.transplant]
    refine .list hoff (hp.image_head hj ▸ hts') ?_ ?_
    · rintro rfl
      cases hcopied
      exact more rfl
    · refine again_all hp hl hw hsettled hroot hentries (List.forall_mem_cons.2 ⟨hlive, hpath⟩) hcopied ?_
      intro t ht
      obtain ⟨all, hall, -, hmem⟩ := Environment.edges_ok hl.tabled hlive selected
      rw [← hown, edges] at hall
      cases hall
      obtain ⟨k, st, hst, hsub, rfl⟩ := (hmem t).1 ht
      refine ⟨rfl, (hw k st hst.stored).2.2, .along ?_ hst⟩
      rw [hsub, ← hown]
      exact hr

theorem again_all (hp : Planted l selected parts log b) (hl : l.Coherent) (hw : l.env.Whole)
    (hsettled : Settled l.env selected [] log) {i : Int} (hroot : l.env.Stands selected log root.id i)
    {path : List Node} {ts ts' : List Triple} {s : Structure} (h : l.env.UnfoldsAll selected path ts s)
    (hpath : ∀ m ∈ path, m.id ∈ l.env.nodes.cells)
    (hcopied : List.Forall₂ (Copied l.env b.locale.env selected log) ts ts')
    (hts : ∀ t ∈ ts, t.object = l.env.node t.object.id ∧ t.object.id ∈ l.env.nodes.cells ∧
      l.env.Reaches selected root t.object) :
    b.locale.env.UnfoldsAll selected (path.map b.image) ts' (s.transplantEntries b.image) := by
  cases h with
  | nil =>
    cases hcopied
    exact .nil
  | @cons _ t ts c s child rest =>
    cases hcopied with
    | @cons _ t' _ ts' hfirst hrest =>
    obtain ⟨k, st, h, reads, hst, hx, rfl, rfl⟩ := hfirst
    obtain ⟨-, -, hpredicate, hobject⟩ := hp.copies st h reads hx
    obtain ⟨hown, hlive, hr⟩ := hts _ (.head _)
    have hchild := again hp hl hw hsettled hroot child hpath hown hlive hr
    have himage : b.image (l.env.tripleAt k st).object = (b.locale.env.tripleAt h reads).object :=
      (hp.image_stands hobject).trans (hp.becomes.node _).symm
    have hsame : (l.env.tripleAt k st).predicate = (b.locale.env.tripleAt h reads).predicate := by
      change l.env.node st.predicate = b.locale.env.node reads.predicate
      rw [hpredicate]
      exact (hp.becomes.node _).symm
    rw [himage] at hchild
    rw [Structure.transplantEntries, hsame]
    exact .cons hchild (again_all hp hl hw hsettled hroot rest hpath hrest fun t ht => hts t (.tail _ ht))

end

end Building

/-! ## Rebuilding what was unfolded -/

/-- The region of a root is there a second time: `f` says what stands for each node of the first
environment in the second one. -/
structure Environment.Replanted (e e' : Environment) (selected : Option (List Node)) (root : Node)
    (s : Structure) (f : Node → Node) : Prop where
  id : e'.id = e.id
  pins : e'.pins = e.pins
  names : e'.nodes.names = e.nodes.names
  nameOf : e'.nodes.nameOf = e.nodes.nameOf
  imports : e'.nodes.imports = e.nodes.imports
  /-- What was there is still there. -/
  cells : ∀ (h : Int) (c : Cell), e.nodes.cells[h]? = some c → e'.nodes.cells[h]? = some c
  statements : ∀ (h : Int) (st : Statement), e.triples.statements[h]? = some st →
    e'.triples.statements[h]? = some st
  /-- A node that something leads on from has a new node in its place. -/
  fresh : ∀ n, e.Heads selected root n → (f n).env = e.id ∧ (f n).id ∉ e.nodes.cells
  others : ∀ n, ¬e.Heads selected root n → f n = n
  injective : ∀ n m : Node, (n.env = e.id → n.id ∈ e.nodes.cells) → (m.env = e.id → m.id ∈ e.nodes.cells) →
    f n = f m → n = m
  /-- A new node holds what the node that it stands for holds. -/
  contents : ∀ n, e.Heads selected root n → e'.nodes.cells[(f n).id]? = some (.plain (e.content? n))
  /-- The new triples are those that can be reached, with what stands for their subject and object. -/
  triples : ∀ st', (∃ h : Int, h ∉ e.nodes.cells ∧ e'.triples.statements[h]? = some st') ↔
    ∃ h st, e.Leads selected h st ∧ e.Reaches selected root (e.node st.subject) ∧
      st' = ⟨(f (e.node st.subject)).id, st.predicate, (f (e.node st.object)).id⟩
  /-- Nothing else is new. -/
  new : ∀ h ∈ e'.nodes.cells, h ∉ e.nodes.cells →
    h ∈ e'.triples.statements ∨ ∃ n, e.Heads selected root n ∧ f n = e.node h
  again : e'.unfold (.node (f root)) selected = .ok (s.transplant f)

namespace Building

variable {around : Surroundings} {l : Locale} {selected : Option (List Node)} {log : List Made} {b : Building}
  {root : Node} {s : Structure}

namespace Planted

/-- A copy reads as what stands for the parts of the triple that it copies. -/
theorem reads_eq {parts : List (Node ⊕ Statement)} (hp : Planted l selected parts log b) {st reads : Statement}
    {h : Int} (hx : .copy st h reads ∈ log) :
    reads = ⟨(b.image (l.env.node st.subject)).id, st.predicate, (b.image (l.env.node st.object)).id⟩ := by
  obtain ⟨-, hsubject, hpredicate, hobject⟩ := hp.copies st h reads hx
  rw [hp.image_head hsubject, hp.image_stands hobject, ← hpredicate]
  rfl

section
variable (hp : Planted l selected s.parts log b) (hl : l.Coherent) (hw : l.env.Whole)
  (hsettled : Settled l.env selected [] log) {i : Int} (hroot : l.env.Stands selected log root.id i)
  (hown : root = l.env.node root.id) (hlive : root.id ∈ l.env.nodes.cells) (h : l.env.Unfolds selected [] root s)
include hp hl hw hsettled hroot hown hlive h

/-- The new nodes are those for the heads of the region. -/
theorem heads_iff (n : Node) : l.env.Heads selected root n ↔ ∃ j, .head n j ∈ log := by
  constructor
  · exact hp.head_of_heads hl hw hsettled hroot
  · rintro ⟨j, hj⟩
    exact h.heads_of_parts hl.tabled ⟨hown, hlive⟩ hw .here n (hp.needed _ hj)

/-- The copies are those of the triples that can be reached. -/
theorem copies_iff (st : Statement) : (∃ h reads, .copy st h reads ∈ log) ↔
    (∃ k, l.env.Leads selected k st) ∧ l.env.Reaches selected root (l.env.node st.subject) := by
  have hheads := hp.heads_iff hl hw hsettled hroot hown hlive h (l.env.node st.subject)
  constructor
  · rintro ⟨h, reads, hx⟩
    obtain ⟨hleads, hsubject, -⟩ := hp.copies st h reads hx
    exact ⟨hleads, (hheads.2 ⟨_, hsubject⟩).reached⟩
  · rintro ⟨⟨k, hk⟩, hr⟩
    obtain ⟨j, hj⟩ := hheads.1 ⟨hr, k, st, hk, rfl⟩
    exact hsettled _ j hj List.not_mem_nil k st hk rfl

/-- Where a region was built from its own list, it is there a second time. -/
theorem replanted : l.env.Replanted b.locale.env selected root s b.image := by
  have hheads := hp.heads_iff hl hw hsettled hroot hown hlive h
  have hcopies := hp.copies_iff hl hw hsettled hroot hown hlive h
  constructor
  case id => exact hp.becomes.id
  case pins => exact hp.becomes.pins
  case names => exact Locale.names_eq hp.becomes.coherent.tabled.named hl.tabled.named hp.nameOf
  case nameOf => exact hp.nameOf
  case imports =>
    refine table_ext fun t h => ?_
    rw [hp.becomes.coherent.tabled.imports, hl.tabled.imports, hp.cells]
    refine or_iff_left ?_
    rintro ⟨x, -, -, hc⟩
    cases x <;> cases hc
  case cells => exact fun h c hc => (hp.cells h c).2 (.inl hc)
  case statements => exact fun h st hst => (hp.statements h st).2 (.inl hst)
  case fresh =>
    intro n hn
    obtain ⟨j, hj⟩ := (hheads n).1 hn
    rw [hp.image_head hj]
    exact ⟨rfl, hp.fresh hl hj⟩
  case others => exact fun n hn => hp.image_other fun j hj => hn ((hheads n).2 ⟨j, hj⟩)
  case injective => exact fun n m hn hm heq => hp.image_injective hl hn hm heq
  case contents =>
    intro n hn
    obtain ⟨j, hj⟩ := (hheads n).1 hn
    rw [hp.image_head hj]
    exact (hp.cells j _).2 (.inr ⟨_, hj, rfl, rfl⟩)
  case triples =>
    intro st'
    constructor
    · rintro ⟨h, hnew, hst'⟩
      rcases (hp.statements h st').1 hst' with hold | ⟨st, hx⟩
      · exact absurd (mem_of_getElem? ((hl.tabled.statements h).1 (mem_of_getElem? hold))) hnew
      · obtain ⟨⟨k, hk⟩, hr⟩ := (hcopies st).1 ⟨h, st', hx⟩
        exact ⟨k, st, hk, hr, hp.reads_eq hx⟩
    · rintro ⟨k, st, hk, hr, rfl⟩
      obtain ⟨h, reads, hx⟩ := (hcopies st).2 ⟨⟨k, hk⟩, hr⟩
      rw [← hp.reads_eq hx]
      exact ⟨h, hp.fresh hl hx, (hp.statements h reads).2 (.inr ⟨st, hx⟩)⟩
  case new =>
    intro h hh hnew
    obtain ⟨c, hc⟩ := (mem_iff_exists_getElem? _ _).1 hh
    rcases (hp.cells h c).1 hc with hold | ⟨x, hx, rfl, rfl⟩
    · exact absurd (mem_of_getElem? hold) hnew
    · cases x with
      | head n j => exact .inr ⟨n, (hheads n).2 ⟨j, hx⟩, hp.image_head hx⟩
      | copy st j reads => exact .inl (mem_of_getElem? ((hp.statements j reads).2 (.inr ⟨st, hx⟩)))
  case again =>
    refine (Environment.unfold_iff hp.becomes.coherent.tabled _ _).2 ?_
    exact again hp hl hw hsettled hroot h (fun _ hm => absurd hm List.not_mem_nil) hown hlive .here

end

end Planted

end Building

namespace Locale

variable {around : Surroundings} {l : Locale} {selected : Option (List Node)} {root : Node} {s : Structure}

/-- Rebuilding the region of a live node succeeds where what it takes is known, and handles are left. -/
theorem rebuild_replants (hg : Building.Ground around l s.parts)
    (hroot : l.env.contains (.node root) = true) (hs : l.env.unfold (.node root) selected = .ok s) :
    ∃ f l', rebuild around s l = .ok (f root) l' ∧ l.env.Replanted l'.env selected root s f := by
  have hlive : root.env = l.env.id ∧ root.id ∈ l.env.nodes.cells := by
    simpa [Environment.contains] using hroot
  have hown : root = l.env.node root.id := by rw [Environment.node, ← hlive.1]
  have h := (Environment.unfold_iff hg.coherent.tabled root s).1 hs
  have hsettled : Building.Settled l.env selected [] [] := fun _ _ hx => absurd hx List.not_mem_nil
  have hbuild := Building.build_plants hg h hown hlive.2 (List.Subset.refl _)
    (Building.planted_nil hg.coherent) hsettled
  obtain ⟨m, b, hm, log, j, hp, -, hsettled, rfl, hstands⟩ := hbuild.exists_ok
  refine ⟨b.image, b.locale, ?_, hp.replanted hg.coherent hg.whole hsettled hstands hown hlive.2 h⟩
  have himage : b.image root = l.env.node j := by
    rw [hown]
    exact hp.image_stands hstands
  unfold rebuild raise
  simp only [bind, EStateM.bind, hm, himage]
  rfl

/-- An environment in its locale can come about: alone, as long as what it mentions of other environments is known,
or in a universe that actions have made of the empty one or of a loaded one, if all its nodes can be put in words. -/
inductive Reached : Surroundings → Locale → Prop where
  | alone {e : Environment} {around : Surroundings}
    (start : (∃ id, e = .fresh id) ∨ ∃ p, Environment.fromRecord p = .ok e)
    (ops : List (Surroundings × Operation))
    (known : ∀ h m, (e.evolved ops).Mentions h m → m.env ≠ (e.evolved ops).id → around.resolves m = true) :
    Reached around ⟨e.evolved ops, ∅⟩
  | member {u : Universe} (start : u = .empty ∨ ∃ label f, Universe.load label f = .ok u) (told : u.Writable)
    (actions : List Action) {id : Int} {e : Environment} (he : (u.evolved actions).members[id]? = some e) :
    Reached ((u.evolved actions).surroundings id) ⟨e, (u.evolved actions).references⟩

/-- The list of a region builds that region a second time, if there are handles enough. -/
theorem Reached.rebuilds (h : Reached around l) (hroot : l.env.contains (.node root) = true)
    (hs : l.env.unfold (.node root) selected = .ok s)
    (hroom : l.env.nodes.next + s.handlesNeeded ≤ maxHandle + 1) :
    ∃ f l', rebuild around s l = .ok (f root) l' ∧ l.env.Replanted l'.env selected root s f := by
  cases h with
  | @alone e _ start ops known =>
    have hstart : e.Standalone := by
      rcases start with ⟨id, rfl⟩ | ⟨p, hp⟩
      · exact Universe.fresh_standalone id
      · exact Environment.fromRecord_standalone hp
    obtain ⟨hc, he⟩ := Environment.evolved_enclosed ops hstart.coherent hstart.enclosed
    -- with its own references on record, the environment is coherent and looks the same
    have hg : Building.Ground around (e.evolved ops).locale s.parts :=
      ⟨hc.locale, he.whole, fun h m hm => ⟨he.known h m hm, known h m hm⟩, hroom⟩
    obtain ⟨f, l', hl', hre⟩ := rebuild_replants hg hroot hs
    have htwin := rebuild_twin around s _ _ (e.evolved ops).locale_twin
    rw [hl'] at htwin
    generalize rebuild around s ⟨e.evolved ops, ∅⟩ = x at htwin ⊢
    cases htwin with
    | @ok _ _ l'' _ ha hl =>
      cases ha
      exact ⟨f, l'', rfl, hl.env ▸ hre⟩
  | @member u start told actions id e he =>
    have hu :=
      (Universe.CoherentClosedWith.evolved ⟨Universe.start_coherentClosed start, told⟩ actions).toCoherentClosed
    refine rebuild_replants ⟨hu.coherent.locale he, hu.closed.parts id e he, fun h m hm => ?_, hroom⟩ hroot hs
    exact (Universe.knows_iff hu.coherent he m).2 (hu.closed.mentions ⟨id, h⟩ m ⟨e, he, hm⟩)

end Locale

namespace Environment

/-- A node leads to another one on two ways, in triples that were told out of order. What they share
holds a number, and the two in between are a stand-in and a node that mentions it. -/
def diamond : List (Surroundings × Operation) :=
  [.createNode (some "top") none, .importNode (.node ⟨7, 3⟩), .createNode none (some (.node ⟨0, 2⟩)),
    .createNode (some "shared") (some (.int 5)), .createNode none none, .createNode (some "to") none,
    .insertTriple (.node ⟨0, 4⟩) (.node ⟨0, 6⟩) (.node ⟨0, 5⟩), .insertTriple (.node ⟨0, 1⟩) (.node ⟨0, 6⟩) (.node ⟨0, 3⟩),
    .insertTriple (.node ⟨0, 3⟩) (.node ⟨0, 6⟩) (.node ⟨0, 4⟩), .insertTriple (.node ⟨0, 1⟩) (.node ⟨0, 6⟩) (.node ⟨0, 2⟩),
    .insertTriple (.node ⟨0, 2⟩) (.node ⟨0, 6⟩) (.node ⟨0, 4⟩)].map fun op => (.alone, op)

/-- Four nodes and five triples are made, although the list has what is shared twice. -/
theorem diamond_rebuilds : ∃ s, ((fresh 0).evolved diamond).unfold (.node ⟨0, 1⟩) none = .ok s ∧
    s.handlesNeeded = 9 ∧ ∃ f l', Locale.rebuild .alone s ⟨(fresh 0).evolved diamond, ∅⟩ = .ok (f ⟨0, 1⟩) l' ∧
      ((fresh 0).evolved diamond).Replanted l'.env none ⟨0, 1⟩ s f := by
  have hunfold : (((fresh 0).evolved diamond).unfold (.node ⟨0, 1⟩) none).toOption.map Structure.handlesNeeded =
      some 9 := by
    decide +kernel
  cases hs : ((fresh 0).evolved diamond).unfold (.node ⟨0, 1⟩) none with
  | error fault =>
    rw [hs] at hunfold
    cases hunfold
  | ok s =>
    rw [hs] at hunfold
    have hneeded : s.handlesNeeded = 9 := Option.some.inj hunfold
    have hreached : Locale.Reached .alone ⟨(fresh 0).evolved diamond, ∅⟩ :=
      .alone (.inl ⟨0, rfl⟩) diamond fun _ _ _ _ => rfl
    have hroot : ((fresh 0).evolved diamond).contains (.node ⟨0, 1⟩) = true ∧
        ((fresh 0).evolved diamond).nodes.next + 9 ≤ maxHandle + 1 := by
      decide +kernel
    exact ⟨s, rfl, hneeded, hreached.rebuilds hroot.1 hs (by rw [hneeded]; exact hroot.2)⟩

/-- The record of a root with a node that has one of another environment, and with a triple. -/
def entwined : Plain := .object [("format", .text recordFormat), ("version", .int 1), ("id", .int 0),
  ("next", .int 6),
  ("nodes", .list [.object [("id", .int 0)], .object [("id", .int 1)], .object [("id", .int 2)],
    .object [("id", .int 3), ("structure", (Structure.node ⟨5, Decimal.firstTooLong⟩).encode)],
    .object [("id", .int 5)]]),
  ("triples", .list [.object [("id", .int 4), ("s", .int 3), ("p", .int 0), ("o", .int 0)]])]

/-- The record of that environment, whose other node is beyond the handles that are given out. -/
def outlying : Plain := .object [("format", .text recordFormat), ("version", .int 1), ("id", .int 5),
  ("next", .int (Decimal.firstTooLong + 1)),
  ("nodes", .list [.object [("id", .int 0)], .object [("id", .int Decimal.firstTooLong)]])]

/-- A turn deletes the triple, the node, and the node of the other environment, and fails. The first two come back, and
what the last one was is mentioned still. So the region of the first one is not built again, with handles enough. -/
theorem entwined_not_rebuilt : ∃ root other u v e s f l', fromRecord entwined = .ok root ∧
    fromRecord outlying = .ok other ∧ Universe.ofRoot root = .ok u ∧ Universe.attach other u = .ok ⟨⟩ v ∧
    (v.evolved [.turn .deleting (.deleting [⟨0, 4⟩, ⟨0, 3⟩, ⟨5, Decimal.firstTooLong⟩])]).members[rootId]? = some e ∧
    e.contains (.node ⟨0, 3⟩) = true ∧ e.unfold (.node ⟨0, 3⟩) none = .ok s ∧
    e.nodes.next + s.handlesNeeded ≤ maxHandle + 1 ∧
    Universe.within rootId (fun around => Locale.rebuild around s)
      (v.evolved [.turn .deleting (.deleting [⟨0, 4⟩, ⟨0, 3⟩, ⟨5, Decimal.firstTooLong⟩])]) = .error f l' := by
  have hrun : ((fromRecord entwined).toOption.bind fun root => (fromRecord outlying).toOption.bind fun other =>
      (Universe.ofRoot root).toOption.map fun u => passes (Universe.attach other) u fun _ v =>
        let w := v.evolved [.turn .deleting (.deleting [⟨0, 4⟩, ⟨0, 3⟩, ⟨5, Decimal.firstTooLong⟩])]
        w.members[rootId]?.any fun e => e.contains (.node ⟨0, 3⟩) &&
          (e.unfold (.node ⟨0, 3⟩) none).toOption.any fun s =>
            decide (e.nodes.next + s.handlesNeeded ≤ maxHandle + 1) &&
              fails (Universe.within rootId fun around => Locale.rebuild around s) w fun _ => true) = some true := by
    decide +kernel
  obtain ⟨root, hroot, hrun⟩ := Option.bind_eq_some_iff.1 hrun
  obtain ⟨other, hother, hrun⟩ := Option.bind_eq_some_iff.1 hrun
  obtain ⟨u, hu, hrun⟩ := Option.map_eq_some_iff.1 hrun
  obtain ⟨_, v, hv, hrun⟩ := exists_of_passes hrun
  obtain ⟨e, he, hrun⟩ := (Option.any_eq_true _ _).1 hrun
  obtain ⟨hlive, hrun⟩ := Bool.and_eq_true_iff.1 hrun
  obtain ⟨s, hs, hrun⟩ := (Option.any_eq_true _ _).1 hrun
  obtain ⟨hroom, hfails⟩ := Bool.and_eq_true_iff.1 hrun
  obtain ⟨f, l', hf, -⟩ := exists_of_fails hfails
  exact ⟨root, other, u, v, e, s, f, l', ok_of_toOption hroot, ok_of_toOption hother, ok_of_toOption hu, hv, he, hlive,
    ok_of_toOption hs, of_decide_eq_true hroom, hf⟩

end Environment

end GraphLisp
