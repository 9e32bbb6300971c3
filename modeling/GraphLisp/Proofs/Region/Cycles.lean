import Mathlib.Logic.Relation
import GraphLisp.Proofs.Region.Unfolding
import GraphLisp.Proofs.Universe.Enclosed
/-!
# Cycles

A region is no list exactly if a node of it lies on a cycle. Unfolding keeps the path to where it is, and
a node that leads to itself is met again on its own path (`Environment.unfoldFrom_fails`); a node that is met
again on another path is unfolded once more (`Environment.Unfolds.off_cycles`). What a node unfolds to is then
made of what its triples lead to, which does not depend on the path to them (`Environment.unfold_folds`).
-/

namespace GraphLisp

open Std Relation

namespace Environment

variable {e : Environment} {selected : Option (List Node)}

/-- A selected triple leads from one node to another one. -/
def LeadsTo (e : Environment) (selected : Option (List Node)) (n m : Node) : Prop :=
  ∃ h st, e.Leads selected h st ∧ e.node st.subject = n ∧ e.node st.object = m

/-- What leads on is live, and so is what it leads to. -/
theorem LeadsTo.live (hw : e.Whole) {n m : Node} (h : e.LeadsTo selected n m) :
    (∃ i ∈ e.nodes.cells, e.node i = n) ∧ ∃ j ∈ e.nodes.cells, e.node j = m := by
  obtain ⟨k, st, hst, rfl, rfl⟩ := h
  obtain ⟨hs, -, ho⟩ := hw k st hst.stored
  exact ⟨⟨_, hs, rfl⟩, ⟨_, ho, rfl⟩⟩

theorem leadsTo_iff (he : e.Tabled) {i : Int} (hi : i ∈ e.nodes.cells) {ts : List Triple}
    (hts : e.edges selected (e.node i) = .ok ts) (m : Node) :
    e.LeadsTo selected (e.node i) m ↔ ∃ t ∈ ts, t.object = m := by
  obtain ⟨us, hus, -, hmem⟩ := edges_ok he hi selected
  cases hts.symm.trans hus
  constructor
  · rintro ⟨h, st, hst, hs, rfl⟩
    have hsubject : st.subject = i := congrArg Node.id hs
    exact ⟨e.tripleAt h st, (hmem _).2 ⟨h, st, hst, hsubject, rfl⟩, rfl⟩
  · rintro ⟨t, ht, rfl⟩
    obtain ⟨h, st, hst, hs, rfl⟩ := (hmem t).1 ht
    exact ⟨h, st, hst, by rw [hs], rfl⟩

/-! ## What cannot be unfolded -/

/-- What fails to unfold meets a node again. The node is on the path already, or lies on a cycle that has
been gone round since. -/
theorem unfoldFrom_fails (he : e.Tabled) (hw : e.Whole) (fuel : Nat) : ∀ {path : List Node} {i : Int} {f : Fault},
    i ∈ e.nodes.cells → e.Enough path fuel → e.unfoldFrom selected fuel path (e.node i) = .error f →
    ∃ m, f = .cycle m ∧ ReflTransGen (e.LeadsTo selected) (e.node i) m ∧
      (m ∈ path ∨ TransGen (e.LeadsTo selected) m m) := by
  induction fuel using Nat.strongRecOn with
  | ind fuel ih =>
    intro path i f hi henough h
    by_cases off : e.node i ∈ path
    · cases (unfoldFrom_on off).symm.trans h
      exact ⟨_, rfl, .refl, .inl off⟩
    obtain ⟨ts, hts, -, -⟩ := edges_ok he hi selected
    by_cases more : ts = []
    · subst more
      cases (unfoldFrom_leaf off hts).symm.trans h
    obtain ⟨rest, rfl, hrest⟩ := henough.next he off hts more
    rw [unfoldFrom_list off hts more] at h
    simp only [bind, Except.bind] at h
    split at h
    · next fault hfault =>
      cases h
      obtain ⟨t, ht, hchild⟩ := exists_of_mapM_error hfault
      have hleads : e.LeadsTo selected (e.node i) t.object := (leadsTo_iff he hi hts _).2 ⟨t, ht, rfl⟩
      obtain ⟨-, j, hj, hobject⟩ := hleads.live hw
      rw [← hobject] at hchild hleads
      have hfails : e.unfoldFrom selected rest (e.node i :: path) (e.node j) = .error f := by
        cases hc : e.unfoldFrom selected rest (e.node i :: path) (e.node j) with
        | error fault =>
          rw [hc] at hchild
          exact hchild
        | ok c =>
          rw [hc] at hchild
          cases hchild
      obtain ⟨m, rfl, hreach, hmet⟩ := ih rest (Nat.lt_succ_self _) hj hrest hfails
      refine ⟨m, rfl, .head hleads hreach, ?_⟩
      rcases hmet with hmet | hcycle
      · rcases List.mem_cons.1 hmet with rfl | hmet
        · exact .inr (.head' hleads hreach)
        · exact .inl hmet
      · exact .inr hcycle
    · cases h

/-! ## What is unfolded -/

theorem UnfoldsAll.child {path : List Node} {ts : List Triple} {s : Structure}
    (h : e.UnfoldsAll selected path ts s) {t : Triple} (ht : t ∈ ts) : ∃ c, e.Unfolds selected path t.object c := by
  induction ts generalizing s with
  | nil => cases ht
  | cons t' ts ih =>
    cases h with
    | cons child rest =>
      rcases List.mem_cons.1 ht with rfl | ht
      · exact ⟨_, child⟩
      · exact ih rest ht

/-- What a node leads to is unfolded with it, off the path that the node is on. -/
theorem Unfolds.next (he : e.Tabled) (hw : e.Whole) {path : List Node} {n m : Node} {s : Structure}
    (h : e.Unfolds selected path n s) (hm : e.LeadsTo selected n m) : ∃ c, e.Unfolds selected (n :: path) m c := by
  obtain ⟨⟨i, hi, rfl⟩, -⟩ := hm.live hw
  cases h with
  | leaf _ edges =>
    obtain ⟨t, ht, -⟩ := (leadsTo_iff he hi edges m).1 hm
    cases ht
  | list _ edges _ entries =>
    obtain ⟨t, ht, rfl⟩ := (leadsTo_iff he hi edges m).1 hm
    exact entries.child ht

theorem Unfolds.reaches (he : e.Tabled) (hw : e.Whole) {n m : Node} (hm : ReflTransGen (e.LeadsTo selected) n m) :
    ∀ {path : List Node} {s : Structure}, e.Unfolds selected path n s →
      ∃ path' c, e.Unfolds selected path' m c ∧ path ⊆ path' := by
  induction hm using ReflTransGen.head_induction_on with
  | refl => exact fun h => ⟨_, _, h, List.Subset.refl _⟩
  | head hstep _ ih =>
    intro path s h
    obtain ⟨c, hc⟩ := h.next he hw hstep
    obtain ⟨path', c', hc', hsub⟩ := ih hc
    exact ⟨path', c', hc', fun _ hx => hsub (.tail _ hx)⟩

/-- Nothing that is reached from an unfolded node lies on a cycle. -/
theorem Unfolds.off_cycles (he : e.Tabled) (hw : e.Whole) {path : List Node} {n m : Node} {s : Structure}
    (h : e.Unfolds selected path n s) (hm : ReflTransGen (e.LeadsTo selected) n m) :
    ¬TransGen (e.LeadsTo selected) m m := by
  intro hcycle
  obtain ⟨path', c, hc, -⟩ := h.reaches he hw hm
  obtain ⟨k, hstep, hback⟩ := TransGen.head'_iff.1 hcycle
  obtain ⟨c', hc'⟩ := hc.next he hw hstep
  -- the node would be met on a path that it is on itself
  obtain ⟨path'', c'', hagain, hsub⟩ := hc'.reaches he hw hback
  exact hagain.off (hsub (.head _))

/-- What keeps the region of a live node from being a list is a node that is met again on its own path. -/
theorem unfold_fails (he : e.Tabled) (hw : e.Whole) {i : Int} (hi : i ∈ e.nodes.cells) {f : Fault}
    (h : e.unfold (.node (e.node i)) selected = .error f) :
    ∃ m, f = .cycle m ∧ ReflTransGen (e.LeadsTo selected) (e.node i) m ∧ TransGen (e.LeadsTo selected) m m := by
  obtain ⟨m, hf, hreach, hmet⟩ := unfoldFrom_fails he hw _ hi (enough_nil e) h
  exact ⟨m, hf, hreach, hmet.resolve_left List.not_mem_nil⟩

/-- The region of a live node is a list unless a node of it lies on a cycle. -/
theorem unfold_fails_iff (he : e.Tabled) (hw : e.Whole) {i : Int} (hi : i ∈ e.nodes.cells) :
    (∃ f, e.unfold (.node (e.node i)) selected = .error f) ↔
      ∃ m, ReflTransGen (e.LeadsTo selected) (e.node i) m ∧ TransGen (e.LeadsTo selected) m m := by
  constructor
  · rintro ⟨f, hf⟩
    obtain ⟨m, -, hreach, hcycle⟩ := unfold_fails he hw hi hf
    exact ⟨m, hreach, hcycle⟩
  · rintro ⟨m, hreach, hcycle⟩
    cases hs : e.unfold (.node (e.node i)) selected with
    | error f => exact ⟨f, rfl⟩
    | ok s => exact absurd hcycle (((unfold_iff he _ s).1 hs).off_cycles he hw hreach)

/-! ## The list -/

mutual

/-- A region that fits on a path fits on a part of it. -/
theorem Unfolds.shorten : ∀ {path path' : List Node} {n : Node} {s : Structure}, e.Unfolds selected path n s →
    path' ⊆ path → e.Unfolds selected path' n s
  | _, _, _, _, .leaf off edges, hsub => .leaf (fun hn => off (hsub hn)) edges
  | _, _, _, _, .list off edges more entries, hsub =>
    .list (fun hn => off (hsub hn)) edges more (UnfoldsAll.shorten entries (List.cons_subset_cons _ hsub))

theorem UnfoldsAll.shorten : ∀ {path path' : List Node} {ts : List Triple} {s : Structure},
    e.UnfoldsAll selected path ts s → path' ⊆ path → e.UnfoldsAll selected path' ts s
  | _, _, _, _, .nil, _ => .nil
  | _, _, _, _, .cons child rest, hsub => .cons (Unfolds.shorten child hsub) (UnfoldsAll.shorten rest hsub)

end

/-- The triples that lead on from a node, in the order of their handles. -/
structure Onward (e : Environment) (selected : Option (List Node)) (n : Node) (ts : List Triple) : Prop where
  ascending : ts.Pairwise fun t t' => t.node.id < t'.node.id
  mem_iff : ∀ t, t ∈ ts ↔ ∃ h st, e.Leads selected h st ∧ e.node st.subject = n ∧ t = e.tripleAt h st

/-- The entry of a triple has its predicate and the region of its object. -/
def IsEntry (e : Environment) (selected : Option (List Node)) (t : Triple) (s : Structure) : Prop :=
  ∃ c, e.unfold (.node t.object) selected = .ok c ∧ s = .list [.node t.predicate, c]

/-- The structure is the node itself where nothing leads on, and otherwise the list of the node and the entries of
the triples that lead on. -/
inductive Folds (e : Environment) (selected : Option (List Node)) (n : Node) : Structure → Prop where
  | leaf (none : e.Onward selected n []) : Folds e selected n (.node n)
  | list {ts : List Triple} {entries : List Structure} (onward : e.Onward selected n ts) (more : ts ≠ [])
      (each : List.Forall₂ (e.IsEntry selected) ts entries) : Folds e selected n (.list (.node n :: entries))

theorem edges_onward (he : e.Tabled) {i : Int} (hi : i ∈ e.nodes.cells) {ts : List Triple}
    (hts : e.edges selected (e.node i) = .ok ts) : e.Onward selected (e.node i) ts := by
  obtain ⟨us, hus, hsorted, hmem⟩ := edges_ok he hi selected
  cases hts.symm.trans hus
  refine ⟨hsorted, fun t => (hmem t).trans ?_⟩
  simp only [node, Node.mk.injEq, true_and]

theorem UnfoldsAll.each (he : e.Tabled) {path : List Node} {ts : List Triple} {s : Structure}
    (h : e.UnfoldsAll selected path ts s) : ∃ entries, s = .list entries ∧
      List.Forall₂ (e.IsEntry selected) ts entries := by
  induction ts generalizing s with
  | nil =>
    cases h
    exact ⟨[], rfl, .nil⟩
  | cons t ts ih =>
    cases h with
    | @cons _ _ _ c s child rest =>
      obtain ⟨entries, rfl, heach⟩ := ih rest
      have hchild := (unfold_iff he t.object c).2 (child.shorten (List.nil_subset _))
      exact ⟨.list [.node t.predicate, c] :: entries, rfl, .cons ⟨c, hchild, rfl⟩ heach⟩

/-- What a live node unfolds to is made of what the objects of its triples unfold to. -/
theorem unfold_folds (he : e.Tabled) {i : Int} (hi : i ∈ e.nodes.cells) {s : Structure}
    (h : e.unfold (.node (e.node i)) selected = .ok s) : e.Folds selected (e.node i) s := by
  cases (unfold_iff he _ s).1 h with
  | leaf _ edges => exact .leaf (edges_onward he hi edges)
  | list _ edges more entries =>
    obtain ⟨entries, rfl, heach⟩ := entries.each he
    exact .list (edges_onward he hi edges) more heach

end Environment

end GraphLisp
