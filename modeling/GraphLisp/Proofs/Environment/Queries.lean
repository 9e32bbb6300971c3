import GraphLisp.Proofs.Region.Unfolding
import GraphLisp.Proofs.Universe.Enclosed
/-!
# Queries and scans

A query picks handles out of tables: a whole statement is looked up, the buckets of given parts are
intersected, and without any part all handles are taken. Whichever way it goes, the handles are those of the
statements that fit, in order, so that a query comes to the same as looking at all triples one after the other
(`Environment.arises_scans`). A part that is not live fits no triple, since triples relate
live handles only.
-/

namespace GraphLisp

open Std

/-! ## The order of what is picked -/

namespace TripleStore

theorem ascending_toList (b : ExtTreeSet Int) : b.toList.Pairwise (· < ·) :=
  ExtTreeSet.ordered_toList.imp fun h => Int.compare_eq_lt.1 h

theorem ascending_keys (t : TripleStore) : t.statements.keys.Pairwise (· < ·) :=
  ExtTreeMap.ordered_keys.imp fun h => Int.compare_eq_lt.1 h

/-- Handles are picked in order. -/
theorem ascending_select (t : TripleStore) (s p o : Option Int) : (t.select s p o).Pairwise (· < ·) := by
  unfold select
  split
  · cases t.find? _ <;> simp
  · split
    · exact t.ascending_keys
    · exact (ascending_toList _).filter _

end TripleStore

/-! ## Triples one after the other -/

namespace Environment

variable {e : Environment}

/-- All triples, in the order of their handles. -/
def scan (e : Environment) : List Triple :=
  e.triples.statements.keys.filterMap fun k => e.triples.statements[k]?.map (e.tripleAt k)

theorem tripleList_eq (e : Environment) : e.tripleList = .ok e.scan :=
  mapM_triple fun _ hk => ExtTreeMap.mem_keys.1 hk

theorem mem_scan (e : Environment) (x : Triple) :
    x ∈ e.scan ↔ ∃ k st, e.triples.statements[k]? = some st ∧ x = e.tripleAt k st := by
  simp only [scan, List.mem_filterMap, ExtTreeMap.mem_keys, Option.map_eq_some_iff]
  constructor
  · rintro ⟨k, -, st, hst, rfl⟩
    exact ⟨k, st, hst, rfl⟩
  · rintro ⟨k, st, hst, rfl⟩
    exact ⟨k, mem_of_getElem? hst, st, hst, rfl⟩

/-- The triples of handles in order are in order. -/
theorem ascending_triples (e : Environment) {hs : List Int} (hsorted : hs.Pairwise (· < ·)) :
    (hs.filterMap fun k => e.triples.statements[k]?.map (e.tripleAt k)).Pairwise fun x y => x.node.id < y.node.id := by
  refine hsorted.filterMap _ fun k k' hk x hx y hy => ?_
  obtain ⟨st, -, rfl⟩ := Option.map_eq_some_iff.1 hx
  obtain ⟨st', -, rfl⟩ := Option.map_eq_some_iff.1 hy
  exact hk

/-- The triples of handles that were picked by a test on the triples are what a scan with that test leaves. -/
theorem mapM_triple_eq_filter {hs : List Int} (hsorted : hs.Pairwise (· < ·)) (test : Triple → Bool)
    (hmem : ∀ k, k ∈ hs ↔ ∃ st, e.triples.statements[k]? = some st ∧ test (e.tripleAt k st) = true) :
    hs.mapM e.triple = .ok (e.scan.filter test) := by
  have hstored : ∀ k ∈ hs, k ∈ e.triples.statements := fun k hk => by
    obtain ⟨st, hst, -⟩ := (hmem k).1 hk
    exact mem_of_getElem? hst
  rw [mapM_triple hstored]
  refine congrArg Except.ok (ascending_ext (e.ascending_triples hsorted) ?_ fun x => ?_)
  · exact (e.ascending_triples e.triples.ascending_keys).filter _
  · rw [List.mem_filter, mem_scan]
    simp only [List.mem_filterMap, Option.map_eq_some_iff]
    constructor
    · rintro ⟨k, hk, st, hst, rfl⟩
      obtain ⟨st', hst', htest⟩ := (hmem k).1 hk
      cases hst.symm.trans hst'
      exact ⟨⟨k, st, hst, rfl⟩, htest⟩
    · rintro ⟨⟨k, st, hst, rfl⟩, htest⟩
      exact ⟨k, (hmem k).2 ⟨st, hst, htest⟩, st, hst, rfl⟩

/-! ## Patterns -/

/-- A part of a pattern: a node of the environment, or a wildcard. -/
def sought (e : Environment) (part : Option Int) : Option Structure := part.map fun h => .node (e.node h)

/-- A triple has every part that a pattern gives. -/
def matching (e : Environment) (s p o : Option Int) (x : Triple) : Bool :=
  s.all (x.subject == e.node ·) && p.all (x.predicate == e.node ·) && o.all (x.object == e.node ·)

/-- A triple has a node in one of its places. -/
def touching (n : Node) (x : Triple) : Bool := x.subject == n || x.predicate == n || x.object == n

theorem matching_tripleAt (e : Environment) (s p o : Option Int) (k : Int) (st : Statement) :
    e.matching s p o (e.tripleAt k st) = true ↔ st.Fits s p o := by
  have hone : ∀ (x : Option Int) (h : Int), x.all (e.node h == e.node ·) = true ↔ ∀ k ∈ x, h = k := by
    intro x h
    simp [Option.all_eq_true, Locale.node_eq_iff]
  simp only [matching, tripleAt, Bool.and_eq_true, hone, Statement.Fits, and_assoc]

theorem patternPart_sought (e : Environment) (part : Option Int) :
    e.patternPart (e.sought part) = .ok (if ∀ h ∈ part, h ∈ e.nodes.cells then some part else none) := by
  cases part with
  | none => simp [sought, patternPart]
  | some h => by_cases hh : h ∈ e.nodes.cells <;> simp [sought, patternPart, node, hh]

/-- A pattern with a part that is not live matches nothing; otherwise handles are picked. -/
theorem ask_sought (e : Environment) (s p o : Option Int) :
    e.ask (e.sought s) (e.sought p) (e.sought o) =
      if ∀ part ∈ [s, p, o], ∀ h ∈ part, h ∈ e.nodes.cells then (e.triples.select s p o).mapM e.triple
      else .ok [] := by
  unfold ask
  simp only [patternPart_sought, List.forall_mem_cons, List.not_mem_nil, false_imp_iff, implies_true, and_true,
    bind, Except.bind]
  by_cases hs : ∀ h ∈ s, h ∈ e.nodes.cells
  · by_cases hp : ∀ h ∈ p, h ∈ e.nodes.cells
    · by_cases ho : ∀ h ∈ o, h ∈ e.nodes.cells
      · simp only [if_pos hs, if_pos hp, if_pos ho, if_pos (And.intro hs (And.intro hp ho))]
      · simp only [if_pos hs, if_pos hp, if_neg ho, if_neg fun h : _ ∧ _ ∧ _ => ho h.2.2]
        rfl
    · simp only [if_pos hs, if_neg hp, if_neg fun h : _ ∧ _ ∧ _ => hp h.2.1]
      rfl
  · simp only [if_neg hs, if_neg fun h : _ ∧ _ ∧ _ => hs h.1]
    rfl

/-- A triple of live handles does not fit a pattern with a part that is not live. -/
theorem Whole.live_of_fits (hw : e.Whole) {s p o : Option Int} {k : Int} {st : Statement}
    (hst : e.triples.statements[k]? = some st) (hfits : st.Fits s p o) :
    ∀ part ∈ [s, p, o], ∀ h ∈ part, h ∈ e.nodes.cells := by
  obtain ⟨hs, hp, ho⟩ := hw k st hst
  simp only [List.forall_mem_cons, List.not_mem_nil, false_imp_iff, implies_true, and_true]
  exact ⟨fun h hh => hfits.1 h hh ▸ hs, fun h hh => hfits.2.1 h hh ▸ hp, fun h hh => hfits.2.2 h hh ▸ ho⟩

theorem ask_eq_filter (he : e.Tabled) (hw : e.Whole) (s p o : Option Int) :
    e.ask (e.sought s) (e.sought p) (e.sought o) = .ok (e.scan.filter (e.matching s p o)) := by
  rw [ask_sought]
  split
  · refine mapM_triple_eq_filter (e.triples.ascending_select s p o) _ fun k => ?_
    simp only [TripleStore.mem_select he.triples, matching_tripleAt]
  · next hdead =>
    refine congrArg Except.ok (List.filter_eq_nil_iff.2 fun x hx hmatch => hdead ?_).symm
    obtain ⟨k, st, hst, rfl⟩ := (e.mem_scan x).1 hx
    exact hw.live_of_fits hst ((e.matching_tripleAt s p o k st).1 hmatch)

theorem askAny_eq_filter (he : e.Tabled) {h : Int} (hh : h ∈ e.nodes.cells) :
    e.askAny (.node (e.node h)) = .ok (e.scan.filter (touching (e.node h))) := by
  have hresident : e.resident (.node (e.node h)) = .ok (e.node h) := by
    simp [resident, node, hh]
  unfold askAny
  rw [hresident]
  refine mapM_triple_eq_filter (TripleStore.ascending_toList _) _ fun k => ?_
  simp only [touching, tripleAt, Bool.or_eq_true, beq_iff_eq, Locale.node_eq_iff, or_assoc]
  exact TripleStore.mem_involving he.triples h k

/-- Whatever has come of an environment, its queries say what a scan of its triples says, in the order of their
handles, unless its counter is too long to be written and parts of its triples are gone. -/
theorem arises_scans (h : e.Arises) (hw : Decimal.isWritable e.nodes.next = true ∨ e.Whole) : ∃ all, e.tripleList = .ok all ∧
    (∀ x, x ∈ all ↔ ∃ k st, e.triples.statements[k]? = some st ∧ x = e.tripleAt k st) ∧
    all.Pairwise (fun x y => x.node.id < y.node.id) ∧
    (∀ s p o, e.ask (e.sought s) (e.sought p) (e.sought o) = .ok (all.filter (e.matching s p o))) ∧
    ∀ k ∈ e.nodes.cells, e.askAny (.node (e.node k)) = .ok (all.filter (touching (e.node k))) := by
  have htabled := h.coherent.tabled
  refine ⟨e.scan, e.tripleList_eq, e.mem_scan, e.ascending_triples e.triples.ascending_keys, ?_, ?_⟩
  · exact ask_eq_filter htabled (h.whole hw)
  · exact fun k hk => askAny_eq_filter htabled hk

/-- Two nodes and three triples that share parts, the first of which is gone. -/
def pruned : Environment := (fresh 0).evolved <|
  [.createNode none none, .createNode none none, .insertTriple (.node ⟨0, 1⟩) (.node ⟨0, 2⟩) (.node ⟨0, 1⟩),
    .insertTriple (.node ⟨0, 1⟩) (.node ⟨0, 2⟩) (.node ⟨0, 2⟩),
    .insertTriple (.node ⟨0, 2⟩) (.node ⟨0, 2⟩) (.node ⟨0, 1⟩), .deleteTriple (.node ⟨0, 3⟩)].map fun op => (.alone, op)

/-- Two triples are left, one of which has the given subject and predicate. No triple has the handle that is gone. -/
theorem pruned_scans : pruned.Arises ∧ ∃ all, pruned.tripleList = .ok all ∧ all.map (·.node.id) = [4, 5] ∧
    pruned.ask (pruned.sought (some 1)) (pruned.sought (some 2)) (pruned.sought none) =
      .ok (all.filter (pruned.matching (some 1) (some 2) none)) ∧
    (all.filter (pruned.matching (some 1) (some 2) none)).map (·.node.id) = [4] ∧
    pruned.ask (pruned.sought (some 3)) (pruned.sought none) (pruned.sought none) =
      .ok (all.filter (pruned.matching (some 3) none none)) ∧
    2 ∈ pruned.nodes.cells ∧ pruned.askAny (.node (pruned.node 2)) = .ok (all.filter (touching (pruned.node 2))) := by
  have harises : pruned.Arises := .evolved (.fresh 0) _
  have hrun : pruned.tripleList.toOption.map (fun all => (all.map (·.node.id),
      (all.filter (pruned.matching (some 1) (some 2) none)).map (·.node.id))) = some ([4, 5], [4]) := by
    decide +kernel
  obtain ⟨all, hall, -, -, hask, hany⟩ := arises_scans harises (.inl (by decide +kernel))
  rw [hall] at hrun
  obtain ⟨hids, hfound⟩ := Prod.mk.inj (Option.some.inj hrun)
  have hlive : 2 ∈ pruned.nodes.cells := by decide +kernel
  exact ⟨harises, all, hall, hids, hask _ _ _, hfound, hask _ _ _, hlive, hany 2 hlive⟩

/-- A turn that fails brings a triple back, but not a node that it leads to. A scan finds the triple, and asking for
what leads to the node finds nothing. -/
theorem lost_part_unfound : ∃ e u e', fromRecord overfull = .ok e ∧ Universe.ofRoot e = .ok u ∧
    (u.evolved [.turn .deleting .overreaching]).members[rootId]? = some e' ∧ e'.Arises ∧
    ∃ all, e'.tripleList = .ok all ∧
      e'.ask (e'.sought none) (e'.sought none) (e'.sought (some Decimal.firstTooLong)) = .ok [] ∧
      (all.filter (e'.matching none none (some Decimal.firstTooLong))).map (·.node.id) = [4] := by
  have hrun : ((fromRecord overfull).toOption.bind fun e => (Universe.ofRoot e).toOption.bind fun u =>
      ((u.evolved [.turn .deleting .overreaching]).members[rootId]?).bind fun e' =>
        e'.tripleList.toOption.bind fun all =>
          (e'.ask (e'.sought none) (e'.sought none) (e'.sought (some Decimal.firstTooLong))).toOption.map fun found =>
            (found.isEmpty, (all.filter (e'.matching none none (some Decimal.firstTooLong))).map (·.node.id))) =
      some (true, [4]) := by
    decide +kernel
  obtain ⟨e, he, hrun⟩ := Option.bind_eq_some_iff.1 hrun
  obtain ⟨u, hu, hrun⟩ := Option.bind_eq_some_iff.1 hrun
  obtain ⟨e', he', hrun⟩ := Option.bind_eq_some_iff.1 hrun
  obtain ⟨all, hall, hrun⟩ := Option.bind_eq_some_iff.1 hrun
  obtain ⟨found, hfound, hrun⟩ := Option.map_eq_some_iff.1 hrun
  simp only [Prod.mk.injEq, List.isEmpty_iff] at hrun
  obtain ⟨rfl, hids⟩ := hrun
  have hroot : u.Arises := .ofRoot (.read (ok_of_toOption he)) (ok_of_toOption hu)
  have harises : (u.evolved [.turn .deleting .overreaching]).Arises := hroot.played (.turn .deleting .overreaching)
  exact ⟨e, u, e', ok_of_toOption he, ok_of_toOption hu, he', .member harises he', all, ok_of_toOption hall,
    ok_of_toOption hfound, hids⟩

end Environment

end GraphLisp
