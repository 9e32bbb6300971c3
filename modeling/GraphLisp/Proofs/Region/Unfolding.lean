import Mathlib.Data.List.Nodup
import GraphLisp.Proofs.Environment.Changes
import GraphLisp.Region
/-!
# Regions as lists

`Environment.Unfolds` says which list is the region of a node that was reached along a path, one case
for a node that nothing leads on from, and one for a list with an entry for each triple that leads on.
Unfolding gives this list and no other (`Environment.unfold_iff`): the fuel never runs out, since the
nodes of a path are different subjects of triples.
-/

namespace GraphLisp

open Std

namespace Environment

variable {e : Environment} {selected : Option (List Node)}

/-! ## Triples that lead on -/

/-- The triple of a handle with a statement. -/
def tripleAt (e : Environment) (h : Int) (st : Statement) : Triple :=
  ⟨e.node h, e.node st.subject, e.node st.predicate, e.node st.object⟩

/-- The handle of a triple with a selected predicate, and what the triple says. -/
structure Leads (e : Environment) (selected : Option (List Node)) (h : Int) (st : Statement) : Prop where
  stored : e.triples.statements[h]? = some st
  picked : ∀ ps, selected = some ps → e.node st.predicate ∈ ps

/-- Triples in the order of their handles are determined by which they are. -/
theorem ascending_ext {ts ts' : List Triple} (h : ts.Pairwise fun t t' => t.node.id < t'.node.id)
    (h' : ts'.Pairwise fun t t' => t.node.id < t'.node.id) (hmem : ∀ t, t ∈ ts ↔ t ∈ ts') : ts = ts' := by
  have hnodup : ∀ {us : List Triple}, us.Pairwise (fun t t' => t.node.id < t'.node.id) → us.Nodup :=
    fun hus => hus.imp fun {a b} hlt heq => by
      rw [heq] at hlt
      exact Int.lt_irrefl _ hlt
  refine List.Perm.eq_of_pairwise (fun a b _ _ hab hba => ?_) h h'
    ((List.perm_ext_iff_of_nodup (hnodup h) (hnodup h')).2 hmem)
  exact absurd (Int.lt_trans hab hba) (Int.lt_irrefl _)

theorem mapM_triple {hs : List Int} (h : ∀ k ∈ hs, k ∈ e.triples.statements) :
    hs.mapM e.triple = .ok (hs.filterMap fun k => e.triples.statements[k]?.map (e.tripleAt k)) := by
  induction hs with
  | nil => rfl
  | cons k hs ih =>
    obtain ⟨st, hst⟩ := (mem_iff_exists_getElem? _ _).1 (h k (.head _))
    have htriple : e.triple k = .ok (e.tripleAt k st) := by
      simp only [triple, statement, hst]
      rfl
    rw [List.mapM_cons, htriple, ih fun j hj => h j (.tail _ hj),
      List.filterMap_cons_some (by rw [hst]; rfl)]
    rfl

/-- What leads on from a live node: all triples with this subject and a selected predicate, in order. -/
theorem edges_ok (he : e.Tabled) {i : Int} (hi : i ∈ e.nodes.cells) (selected : Option (List Node)) :
    ∃ ts, e.edges selected (e.node i) = .ok ts ∧ ts.Pairwise (fun t t' => t.node.id < t'.node.id) ∧
      ∀ t, t ∈ ts ↔ ∃ h st, e.Leads selected h st ∧ st.subject = i ∧ t = e.tripleAt h st := by
  have hbucket := he.triples.subjects.mem_iff i
  generalize hall : (e.triples.bySubject.bucket i).toList.filterMap
    (fun k => e.triples.statements[k]?.map (e.tripleAt k)) = all
  have hask : e.ask (some (.node (e.node i))) none none = .ok all := by
    have hpart : e.patternPart (some (.node (e.node i))) = .ok (some (some i)) := by
      simp [patternPart, node, hi]
    have hselect : e.triples.select (some i) none none = (e.triples.bySubject.bucket i).toList := by
      simp [TripleStore.select, TripleStore.buckets]
    have hlisted : ∀ k ∈ (e.triples.bySubject.bucket i).toList, k ∈ e.triples.statements := fun k hk => by
      obtain ⟨st, hst, -⟩ := (hbucket k).1 (ExtTreeSet.mem_toList.1 hk)
      exact mem_of_getElem? hst
    have hmap := mapM_triple hlisted
    rw [hall] at hmap
    unfold ask
    rw [hpart]
    simp only [patternPart, bind, Except.bind, hselect, hmap]
  have hmem : ∀ t, t ∈ all ↔ ∃ h st, e.triples.statements[h]? = some st ∧ st.subject = i ∧ t = e.tripleAt h st := by
    intro t
    rw [← hall]
    simp only [List.mem_filterMap, ExtTreeSet.mem_toList, hbucket, Option.map_eq_some_iff]
    constructor
    · rintro ⟨k, ⟨st, hst, hi⟩, st', hst', rfl⟩
      cases hst.symm.trans hst'
      exact ⟨k, st, hst, hi, rfl⟩
    · rintro ⟨k, st, hst, hi, rfl⟩
      exact ⟨k, ⟨st, hst, hi⟩, st, hst, rfl⟩
  have hsorted : all.Pairwise fun t t' => t.node.id < t'.node.id := by
    rw [← hall]
    refine ExtTreeSet.ordered_toList.filterMap _ fun k k' hk t ht t' ht' => ?_
    obtain ⟨st, -, rfl⟩ := Option.map_eq_some_iff.1 ht
    obtain ⟨st', -, rfl⟩ := Option.map_eq_some_iff.1 ht'
    exact Int.compare_eq_lt.1 hk
  unfold edges
  rw [hask]
  cases selected with
  | none =>
    refine ⟨all, rfl, hsorted, fun t => (hmem t).trans ?_⟩
    constructor
    · rintro ⟨h, st, hst, hi, ht⟩
      exact ⟨h, st, ⟨hst, fun _ hps => absurd hps.symm (Option.some_ne_none _)⟩, hi, ht⟩
    · rintro ⟨h, st, hst, hi, ht⟩
      exact ⟨h, st, hst.stored, hi, ht⟩
  | some ps =>
    refine ⟨_, rfl, hsorted.filter _, fun t => ?_⟩
    rw [List.mem_filter, hmem, List.contains_iff_mem]
    constructor
    · rintro ⟨⟨h, st, hst, hi, rfl⟩, hp⟩
      refine ⟨h, st, ⟨hst, fun ps' hps => ?_⟩, hi, rfl⟩
      cases hps
      exact hp
    · rintro ⟨h, st, hst, hi, rfl⟩
      exact ⟨⟨h, st, hst.stored, hi, rfl⟩, hst.picked ps rfl⟩

/-! ## Unfolded regions -/

mutual

/-- The structure is the region of a node that was reached along a path. -/
inductive Unfolds (e : Environment) (selected : Option (List Node)) : List Node → Node → Structure → Prop where
  | leaf {path : List Node} {n : Node} (off : n ∉ path) (edges : e.edges selected n = .ok []) :
    Unfolds e selected path n (.node n)
  | list {path : List Node} {n : Node} {ts : List Triple} {s : Structure} (off : n ∉ path)
      (edges : e.edges selected n = .ok ts) (more : ts ≠ []) (entries : UnfoldsAll e selected (n :: path) ts s) :
    Unfolds e selected path n (.pair (.node n) s)

/-- The structure has an entry for each triple, with the region that it leads on to. -/
inductive UnfoldsAll (e : Environment) (selected : Option (List Node)) :
    List Node → List Triple → Structure → Prop where
  | nil {path : List Node} : UnfoldsAll e selected path [] .nil
  | cons {path : List Node} {t : Triple} {ts : List Triple} {c s : Structure}
      (child : Unfolds e selected path t.object c) (rest : UnfoldsAll e selected path ts s) :
    UnfoldsAll e selected path (t :: ts) (.pair (.pair (.node t.predicate) (.pair c .nil)) s)

end

theorem Unfolds.off {path : List Node} {n : Node} {s : Structure} (h : e.Unfolds selected path n s) :
    n ∉ path := by
  cases h with
  | leaf off _ => exact off
  | list off _ _ _ => exact off

/-- What leads on is unfolded entry by entry. -/
theorem unfoldsAll_of_mapM {path : List Node} {fuel : Nat}
    (hrest : ∀ {n : Node} {s : Structure}, e.unfoldFrom selected fuel path n = .ok s → e.Unfolds selected path n s)
    (ts : List Triple) : ∀ {cs : List Structure}, (ts.mapM fun t => do
      return Structure.list [.node t.predicate, ← e.unfoldFrom selected fuel path t.object]) = .ok cs →
      e.UnfoldsAll selected path ts (.list cs) := by
  induction ts with
  | nil =>
    intro cs h
    cases h
    exact .nil
  | cons t ts ih =>
    intro cs h
    rw [List.mapM_cons] at h
    cases hc : e.unfoldFrom selected fuel path t.object with
    | error fault =>
      rw [hc] at h
      cases h
    | ok c =>
      rw [hc] at h
      cases hcs : ts.mapM (fun t => do
          return Structure.list [.node t.predicate, ← e.unfoldFrom selected fuel path t.object]) with
      | error fault =>
        rw [hcs] at h
        cases h
      | ok cs' =>
        rw [hcs] at h
        cases h
        exact .cons (hrest hc) (ih hcs)

/-! ## One node after the other -/

variable {fuel : Nat} {path : List Node} {n : Node} {ts : List Triple}

theorem unfoldFrom_on (on : n ∈ path) : e.unfoldFrom selected fuel path n = .error (.cycle n) := by
  cases fuel <;> unfold unfoldFrom <;> rw [if_pos on]

theorem unfoldFrom_leaf (off : n ∉ path) (edges : e.edges selected n = .ok []) :
    e.unfoldFrom selected fuel path n = .ok (.node n) := by
  cases fuel <;> unfold unfoldFrom <;> rw [if_neg off, edges] <;> rfl

theorem unfoldFrom_list (off : n ∉ path) (edges : e.edges selected n = .ok ts) (more : ts ≠ []) :
    e.unfoldFrom selected (fuel + 1) path n = (do
      let children ← ts.mapM fun t => do
        return Structure.list [.node t.predicate, ← e.unfoldFrom selected fuel (n :: path) t.object]
      return .list (.node n :: children)) := by
  obtain ⟨t, ts, rfl⟩ := List.exists_cons_of_ne_nil more
  rw [unfoldFrom, if_neg off, edges]
  rfl

theorem unfoldFrom_unfolds (fuel : Nat) : ∀ {path : List Node} {n : Node} {s : Structure},
    e.unfoldFrom selected fuel path n = .ok s → e.Unfolds selected path n s := by
  induction fuel with
  | zero =>
    intro path n s h
    unfold unfoldFrom at h
    split at h
    · cases h
    next off =>
    cases hts : e.edges selected n with
    | error fault =>
      rw [hts] at h
      cases h
    | ok ts =>
      rw [hts] at h
      cases ts with
      | nil =>
        cases h
        exact .leaf off hts
      | cons t ts => cases h
  | succ fuel ih =>
    intro path n s h
    by_cases off : n ∈ path
    · cases (unfoldFrom_on off).symm.trans h
    cases hts : e.edges selected n with
    | error fault =>
      rw [unfoldFrom, if_neg off, hts] at h
      cases h
    | ok ts =>
      by_cases more : ts = []
      · subst more
        cases (unfoldFrom_leaf off hts).symm.trans h
        exact .leaf off hts
      · rw [unfoldFrom_list off hts more] at h
        simp only [bind, Except.bind] at h
        split at h
        · cases h
        next cs hcs =>
        cases h
        exact .list off hts more (unfoldsAll_of_mapM ih _ hcs)

/-- What something leads on from is the subject of a triple. -/
theorem subject_of_edges (he : e.Tabled) {n : Node} {ts : List Triple} (h : e.edges selected n = .ok ts)
    (hts : ts ≠ []) : n.env = e.id ∧ n.id ∈ e.triples.bySubject := by
  by_cases henv : n.env = e.id
  · refine ⟨henv, ?_⟩
    by_cases hn : n.id ∈ e.nodes.cells
    · obtain ⟨us, hus, -, hmem⟩ := edges_ok he hn selected
      rw [node, ← henv] at hus
      cases h.symm.trans hus
      obtain ⟨t, ht⟩ := List.exists_mem_of_ne_nil _ hts
      obtain ⟨k, st, hleads, hsubject, -⟩ := (hmem t).1 ht
      have hbucket := (he.triples.subjects.mem_iff n.id k).2 ⟨st, hleads.stored, hsubject⟩
      obtain ⟨held, hheld, -⟩ := (Index.mem_bucket _ _ _).1 hbucket
      exact mem_of_getElem? hheld
    · -- nothing is known of a node that is not live
      have hnil : e.edges selected n = .ok [] := by
        unfold edges ask
        simp only [patternPart, henv, hn, ne_eq, not_true, ↓reduceIte]
        cases selected <;> rfl
      cases h.symm.trans hnil
      exact absurd rfl hts
  · unfold edges ask at h
    simp only [patternPart, henv, ne_eq, not_false_eq_true, ↓reduceIte] at h
    cases h

/-- No path is longer than there are subjects. -/
theorem length_le_subjects {path : List Node} (hnodup : path.Nodup)
    (hpath : ∀ n ∈ path, n.env = e.id ∧ n.id ∈ e.triples.bySubject) :
    path.length ≤ e.triples.bySubject.size := by
  have hids : (path.map Node.id).Nodup := by
    refine hnodup.map_on fun a ha b hb hab => ?_
    cases a
    cases b
    cases (hpath _ ha).1
    cases (hpath _ hb).1
    cases hab
    rfl
  have hsub : path.map Node.id ⊆ e.triples.bySubject.keys := by
    intro i hi
    obtain ⟨n, hn, rfl⟩ := List.mem_map.1 hi
    exact ExtTreeMap.mem_keys.2 (hpath n hn).2
  have hle := hids.length_le_of_subset hsub
  rwa [List.length_map, ExtTreeMap.length_keys] at hle

/-- There is fuel enough for whatever leads on from the path, which has gone through different subjects. -/
structure Enough (e : Environment) (path : List Node) (fuel : Nat) : Prop where
  nodup : path.Nodup
  subjects : ∀ m ∈ path, m.env = e.id ∧ m.id ∈ e.triples.bySubject
  fuel : e.triples.bySubject.size ≤ path.length + fuel

theorem enough_nil (e : Environment) : e.Enough [] e.triples.bySubject.size :=
  ⟨List.nodup_nil, by simp, by simp⟩

/-- Where something leads on, the fuel is not used up, and there is enough for what it leads to. -/
theorem Enough.next (he : e.Tabled) (h : e.Enough path fuel) (off : n ∉ path)
    (edges : e.edges selected n = .ok ts) (more : ts ≠ []) :
    ∃ rest, fuel = rest + 1 ∧ e.Enough (n :: path) rest := by
  have hnodup : (n :: path).Nodup := List.nodup_cons.2 ⟨off, h.nodup⟩
  have hsubjects : ∀ m ∈ n :: path, m.env = e.id ∧ m.id ∈ e.triples.bySubject :=
    List.forall_mem_cons.2 ⟨subject_of_edges he edges more, h.subjects⟩
  -- without fuel, the path would be longer than there are subjects
  have hlonger := length_le_subjects hnodup hsubjects
  have hfuel := h.fuel
  rw [List.length_cons] at hlonger
  cases fuel with
  | zero => omega
  | succ rest =>
    refine ⟨rest, rfl, hnodup, hsubjects, ?_⟩
    rw [List.length_cons]
    omega

theorem mapM_of_unfoldsAll {path : List Node} {fuel : Nat}
    (hrest : ∀ {n : Node} {s : Structure}, e.Unfolds selected path n s → e.unfoldFrom selected fuel path n = .ok s)
    (ts : List Triple) : ∀ {s : Structure}, e.UnfoldsAll selected path ts s → ∃ cs, s = .list cs ∧
      (ts.mapM fun t => do
        return Structure.list [.node t.predicate, ← e.unfoldFrom selected fuel path t.object]) = .ok cs := by
  induction ts with
  | nil =>
    intro s h
    cases h
    exact ⟨[], rfl, rfl⟩
  | cons t ts ih =>
    intro s h
    cases h with
    | @cons _ _ _ c s child rest =>
      obtain ⟨cs, rfl, hcs⟩ := ih rest
      refine ⟨.list [.node t.predicate, c] :: cs, rfl, ?_⟩
      rw [List.mapM_cons, hcs, hrest child]
      rfl

theorem Unfolds.unfoldFrom (he : e.Tabled) (fuel : Nat) : ∀ {path : List Node} {n : Node} {s : Structure},
    e.Unfolds selected path n s → e.Enough path fuel → e.unfoldFrom selected fuel path n = .ok s := by
  induction fuel using Nat.strongRecOn with
  | ind fuel ih =>
    intro path n s h henough
    cases h with
    | leaf off edges => exact unfoldFrom_leaf off edges
    | @list _ _ ts s off edges more entries =>
      obtain ⟨rest, rfl, hrest⟩ := henough.next he off edges more
      obtain ⟨cs, rfl, hcs⟩ := mapM_of_unfoldsAll (fun h => ih rest (Nat.lt_succ_self _) h hrest) ts entries
      rw [unfoldFrom_list off edges more, hcs]
      rfl

/-- Unfolding a node gives its region, and nothing else. -/
theorem unfold_iff (he : e.Tabled) (n : Node) (s : Structure) :
    e.unfold (.node n) selected = .ok s ↔ e.Unfolds selected [] n s := by
  refine ⟨fun h => unfoldFrom_unfolds _ h, fun h => ?_⟩
  exact h.unfoldFrom he _ (enough_nil e)

end Environment

end GraphLisp
