import GraphLisp.Proofs.Region.Cycles
/-!
# Regions along selected triples

Unfolding looks only at the triples with a selected predicate, so that all other triples may as well be gone
(`Environment.Keeps.unfold_eq`). An environment without them is there for every selection
(`Environment.keeping_keeps`): the triples that are left out become plain nodes, since triples that stay may
speak of them.
-/

namespace GraphLisp

open Std Relation

/-! ## Stores of statements -/

namespace TripleStore

/-- The store with these statements under their handles. -/
def of : List (Int × Statement) → TripleStore
  | [] => .empty
  | (h, st) :: rest => (of rest).insert h st

theorem getElem?_of {xs : List (Int × Statement)} (hhandles : (xs.map (·.1)).Nodup) (h : Int) (st : Statement) :
    (of xs).statements[h]? = some st ↔ (h, st) ∈ xs := by
  induction xs with
  | nil => simp [of, empty]
  | cons x xs ih =>
    obtain ⟨k, st'⟩ := x
    obtain ⟨hk, hxs⟩ := List.nodup_cons.1 hhandles
    simp only [of, insert, getElem?_insert_iff, ih hxs, List.mem_cons, Prod.mk.injEq]
    refine or_congr_right (and_iff_right_of_imp fun hx => ?_)
    rintro rfl
    exact hk (List.mem_map.2 ⟨_, hx, rfl⟩)

theorem coherent_of {xs : List (Int × Statement)} (hhandles : (xs.map (·.1)).Nodup)
    (hstatements : (xs.map (·.2)).Nodup) : (of xs).Coherent := by
  induction xs with
  | nil => exact coherent_empty
  | cons x xs ih =>
    obtain ⟨k, st⟩ := x
    obtain ⟨hk, hxs⟩ := List.nodup_cons.1 hhandles
    obtain ⟨hst, hxs'⟩ := List.nodup_cons.1 hstatements
    have hold := ih hxs hxs'
    refine hold.insert (fun hmem => ?_) (Option.eq_none_iff_forall_not_mem.2 fun h hh => ?_)
    · obtain ⟨st', hst'⟩ := (mem_iff_exists_getElem? _ _).1 hmem
      exact hk (List.mem_map.2 ⟨_, (getElem?_of hxs k st').1 hst', rfl⟩)
    · exact hst (List.mem_map.2 ⟨_, (getElem?_of hxs h st).1 ((hold.inverse st h).1 hh), rfl⟩)

end TripleStore

namespace Environment

variable {e : Environment} {selected : Option (List Node)}

/-! ## Without the other triples -/

/-- The other environment has those triples that lead on, and no others. -/
structure Keeps (e : Environment) (selected : Option (List Node)) (e' : Environment) : Prop where
  id : e'.id = e.id
  tabled : e'.Tabled
  whole : e'.Whole
  statements : ∀ (h : Int) (st : Statement), e'.triples.statements[h]? = some st ↔ e.Leads selected h st

namespace Keeps

variable {e' : Environment}

theorem leads (h : e.Keeps selected e') (k : Int) (st : Statement) :
    e'.Leads none k st ↔ e.Leads selected k st :=
  ⟨fun hl => (h.statements k st).1 hl.stored, fun hl => ⟨(h.statements k st).2 hl, nofun⟩⟩

theorem edges_eq (h : e.Keeps selected e') (he : e.Tabled) {i : Int} (hi : i ∈ e.nodes.cells) :
    e'.edges none (e.node i) = e.edges selected (e.node i) := by
  obtain ⟨ts, hts, hsorted, hmem⟩ := edges_ok he hi selected
  have hnode : e.node i = e'.node i := by rw [node, node, h.id]
  have htriple : ∀ k st, e'.tripleAt k st = e.tripleAt k st := fun k st => by
    simp only [tripleAt, node, h.id]
  rw [hts]
  by_cases hi' : i ∈ e'.nodes.cells
  · obtain ⟨ts', hts', hsorted', hmem'⟩ := edges_ok h.tabled hi' none
    rw [hnode, hts']
    refine congrArg _ (ascending_ext hsorted' hsorted fun t => ?_)
    rw [hmem, hmem']
    simp only [h.leads, htriple]
  · -- nothing leads on from a handle that is gone
    have hnil : e'.edges none (e.node i) = .ok [] := by
      unfold edges ask
      simp only [patternPart, node, h.id, hi', ne_eq, not_true, ↓reduceIte]
      rfl
    have hnone : ts = [] := List.eq_nil_iff_forall_not_mem.2 fun t ht => by
      obtain ⟨k, st, hl, rfl, -⟩ := (hmem t).1 ht
      exact hi' (h.whole k st ((h.statements k st).2 hl)).1
    rw [hnil, hnone]

theorem unfoldFrom_eq (h : e.Keeps selected e') (he : e.Tabled) (hw : e.Whole) (fuel : Nat) :
    ∀ {fuel' : Nat} {path : List Node} {i : Int}, i ∈ e.nodes.cells → e.Enough path fuel → e'.Enough path fuel' →
      e'.unfoldFrom none fuel' path (e.node i) = e.unfoldFrom selected fuel path (e.node i) := by
  induction fuel using Nat.strongRecOn with
  | ind fuel ih =>
    intro fuel' path i hi henough henough'
    by_cases off : e.node i ∈ path
    · rw [unfoldFrom_on off, unfoldFrom_on off]
    obtain ⟨ts, hts, -, -⟩ := edges_ok he hi selected
    have hts' := (h.edges_eq he hi).trans hts
    by_cases more : ts = []
    · subst more
      rw [unfoldFrom_leaf off hts, unfoldFrom_leaf off hts']
    obtain ⟨rest, rfl, hrest⟩ := henough.next he off hts more
    obtain ⟨rest', rfl, hrest'⟩ := henough'.next h.tabled off hts' more
    rw [unfoldFrom_list off hts more, unfoldFrom_list off hts' more]
    rw [mapM_congr_mem fun t ht => ?_]
    obtain ⟨-, j, hj, hobject⟩ := ((leadsTo_iff he hi hts _).2 ⟨t, ht, rfl⟩).live hw
    rw [← hobject, ih rest (Nat.lt_succ_self _) hj hrest hrest']

/-- The region along selected triples is the whole region where there are no others. -/
theorem unfold_eq (h : e.Keeps selected e') (he : e.Tabled) (hw : e.Whole) {i : Int} (hi : i ∈ e.nodes.cells) :
    e'.unfold (.node (e.node i)) none = e.unfold (.node (e.node i)) selected :=
  h.unfoldFrom_eq he hw _ hi (enough_nil e) (enough_nil e')

end Keeps

/-! ## Leaving triples out -/

/-- Whether a triple has a selected predicate. -/
def picks (e : Environment) (selected : Option (List Node)) (st : Statement) : Bool :=
  selected.all (·.contains (e.node st.predicate))

theorem leads_iff (h : Int) (st : Statement) :
    e.Leads selected h st ↔ e.triples.statements[h]? = some st ∧ e.picks selected st = true := by
  have hpicks : e.picks selected st = true ↔ ∀ ps, selected = some ps → e.node st.predicate ∈ ps := by
    cases selected <;> simp [picks]
  rw [hpicks]
  exact ⟨fun h => ⟨h.stored, h.picked⟩, fun h => ⟨h.1, h.2⟩⟩

/-- The statements of the triples with a selected predicate. -/
def kept (e : Environment) (selected : Option (List Node)) : List (Int × Statement) :=
  e.triples.statements.toList.filter fun x => e.picks selected x.2

/-- What stands at a handle when only the triples with a selected predicate are kept. -/
def keptCell (e : Environment) (selected : Option (List Node)) (h : Int) : Cell → Cell
  | .triple => if e.triples.statements[h]?.any (e.picks selected) then .triple else .plain none
  | c => c

/-- The environment with plain nodes in the places of the triples that have no selected predicate. -/
def keeping (e : Environment) (selected : Option (List Node)) : Environment :=
  { e with
    nodes := { e.nodes with cells := e.nodes.cells.map (e.keptCell selected) }
    triples := TripleStore.of (e.kept selected) }

theorem mem_kept (h : Int) (st : Statement) : (h, st) ∈ e.kept selected ↔ e.Leads selected h st := by
  rw [leads_iff, kept, List.mem_filter, ExtTreeMap.mem_toList_iff_getElem?_eq_some]

theorem kept_handles (e : Environment) (selected : Option (List Node)) : ((e.kept selected).map (·.1)).Nodup := by
  have hall : (e.triples.statements.toList.map (·.1)).Nodup := by
    rw [ExtTreeMap.map_fst_toList_eq_keys]
    exact ExtTreeMap.nodup_keys
  exact hall.sublist (List.filter_sublist.map _)

theorem kept_statements (he : e.Tabled) (selected : Option (List Node)) :
    ((e.kept selected).map (·.2)).Nodup := by
  refine (List.Nodup.of_map _ (e.kept_handles selected)).map_on ?_
  rintro ⟨h, st⟩ hx ⟨h', st'⟩ hy rfl
  -- no statement is stored under two handles
  have hh := (he.triples.inverse st h).2 ((mem_kept h st).1 hx).stored
  have hh' := (he.triples.inverse st h').2 ((mem_kept h' st).1 hy).stored
  rw [Option.some.inj (hh.symm.trans hh')]

theorem statements_keeping (h : Int) (st : Statement) :
    (e.keeping selected).triples.statements[h]? = some st ↔ e.Leads selected h st :=
  (TripleStore.getElem?_of (e.kept_handles selected) h st).trans (mem_kept h st)

theorem content_keptCell (h : Int) (c : Cell) : (e.keptCell selected h c).content = c.content := by
  cases c with
  | triple =>
    dsimp only [keptCell]
    split <;> rfl
  | plain _ => rfl
  | proxy _ => rfl

theorem cells_keeping (h : Int) : (e.keeping selected).nodes.cells[h]? = (e.nodes.cells[h]?).map (e.keptCell selected h) :=
  ExtTreeMap.getElem?_map

theorem mem_keeping (h : Int) : h ∈ (e.keeping selected).nodes.cells ↔ h ∈ e.nodes.cells := ExtTreeMap.mem_map

theorem mentions_keeping (h : Int) (t : Node) : (e.keeping selected).Mentions h t ↔ e.Mentions h t := by
  simp only [Mentions, cells_keeping, Option.map_eq_some_iff]
  constructor
  · rintro ⟨_, ⟨c, hc, rfl⟩, ht⟩
    rw [Cell.mentions, content_keptCell] at ht
    exact ⟨c, hc, ht⟩
  · rintro ⟨c, hc, ht⟩
    refine ⟨_, ⟨c, hc, rfl⟩, ?_⟩
    rw [Cell.mentions, content_keptCell]
    exact ht

theorem keptCell_eq_proxy (h : Int) (c : Cell) (t : Node) : e.keptCell selected h c = .proxy t ↔ c = .proxy t := by
  cases c with
  | triple =>
    dsimp only [keptCell]
    split <;> simp
  | plain _ => rfl
  | proxy _ => rfl

theorem keptCell_eq_triple (h : Int) (c : Cell) : e.keptCell selected h c = .triple ↔
    c = .triple ∧ ∃ st, e.Leads selected h st := by
  cases c with
  | triple =>
    simp only [leads_iff, keptCell, true_and]
    cases e.triples.statements[h]? with
    | none => simp
    | some st => simp
  | plain _ => simp [keptCell]
  | proxy _ => simp [keptCell]

theorem keeping_tabled (he : e.Tabled) : (e.keeping selected).Tabled where
  self := (mem_keeping _).2 he.self
  bounds h hh := he.bounds h ((mem_keeping h).1 hh)
  named := ⟨he.named.inverse, fun h s hs => (mem_keeping h).2 (he.named.live h s hs)⟩
  imports t h := by
    refine (he.imports t h).trans ?_
    rw [cells_keeping, Option.map_eq_some_iff]
    simp only [keptCell_eq_proxy, exists_eq_right]
  abroad h t hh := by
    rw [cells_keeping, Option.map_eq_some_iff] at hh
    simp only [keptCell_eq_proxy, exists_eq_right] at hh
    exact he.abroad h t hh
  triples := TripleStore.coherent_of (e.kept_handles selected) (kept_statements he selected)
  statements h := by
    rw [mem_iff_exists_getElem?, cells_keeping, Option.map_eq_some_iff]
    simp only [statements_keeping, keptCell_eq_triple]
    constructor
    · rintro ⟨st, hst⟩
      exact ⟨.triple, (he.statements h).1 (mem_of_getElem? hst.stored), rfl, st, hst⟩
    · rintro ⟨_, -, -, hst⟩
      exact hst

theorem keeping_coherent (he : e.Coherent) : (e.keeping selected).Coherent where
  tabled := keeping_tabled he.tabled
  referrers_tight := he.referrers_tight
  referrers k h := (he.referrers k h).trans (mentions_keeping h ⟨e.id, k⟩).symm

/-- The triples with a selected predicate can be all there are. -/
theorem keeping_keeps (he : e.Tabled) (hw : e.Whole) : e.Keeps selected (e.keeping selected) where
  id := rfl
  tabled := keeping_tabled he
  whole h st hst := by
    obtain ⟨hs, hp, ho⟩ := hw h st ((statements_keeping h st).1 hst).stored
    exact ⟨(mem_keeping _).2 hs, (mem_keeping _).2 hp, (mem_keeping _).2 ho⟩
  statements := statements_keeping

/-! ## Every environment that arises -/

/-- The region of a live node is no list exactly if some node of it lies on a cycle, and a node on a cycle is what is
blamed then; that is told as long as its number can be written. Otherwise it is the node itself or a list with an
entry for each triple that leads on. The triples that are not selected do not count. All this holds as long as the
parts of triples are there, which they are unless the counter is too long to be written. -/
theorem arises_unfolds (h : e.Arises) (hw : Decimal.isWritable e.nodes.next = true ∨ e.Whole) {root : Node}
    (hroot : e.contains (.node root) = true) (selected : Option (List Node)) :
    ((∃ f, e.unfold (.node root) selected = .error f) ↔
      ∃ m, ReflTransGen (e.LeadsTo selected) root m ∧ TransGen (e.LeadsTo selected) m m) ∧
    (∀ f, e.unfold (.node root) selected = .error f →
      ∃ m, f = .cycle m ∧ ReflTransGen (e.LeadsTo selected) root m ∧ TransGen (e.LeadsTo selected) m m ∧
        f.kind = .cyclicStructure ∧ f.told = if m.isWritable then f else .numeral none) ∧
    (∀ s, e.unfold (.node root) selected = .ok s → e.Folds selected root s) ∧
    (e.keeping selected).Coherent ∧ e.Keeps selected (e.keeping selected) ∧
    ∀ e', e.Keeps selected e' → e'.unfold (.node root) none = e.unfold (.node root) selected := by
  have he := h.coherent.tabled
  have hw := h.whole hw
  obtain ⟨i, hi, rfl⟩ : ∃ i ∈ e.nodes.cells, e.node i = root := by
    simp only [contains, Bool.and_eq_true, beq_iff_eq, ExtTreeMap.contains_iff_mem] at hroot
    exact ⟨root.id, hroot.2, by rw [node, ← hroot.1]⟩
  refine ⟨unfold_fails_iff he hw hi, fun f hf => ?_, fun s hs => unfold_folds he hi hs, keeping_coherent h.coherent,
    keeping_keeps he hw, fun e' hkeeps => hkeeps.unfold_eq he hw hi⟩
  obtain ⟨m, rfl, hreach, hcycle⟩ := unfold_fails he hw hi hf
  exact ⟨m, rfl, hreach, hcycle, rfl, rfl⟩

/-- A node has two parts, one of which has the other as its part, and that leads back to the whole. -/
def ring : Environment := (fresh 0).evolved <|
  [.createNode none none, .createNode none none, .createNode none none, .createNode (some "part") none,
    .createNode (some "whole") none, .insertTriple (.node ⟨0, 1⟩) (.node ⟨0, 4⟩) (.node ⟨0, 2⟩),
    .insertTriple (.node ⟨0, 1⟩) (.node ⟨0, 4⟩) (.node ⟨0, 3⟩), .insertTriple (.node ⟨0, 2⟩) (.node ⟨0, 4⟩) (.node ⟨0, 3⟩),
    .insertTriple (.node ⟨0, 3⟩) (.node ⟨0, 5⟩) (.node ⟨0, 1⟩)].map fun op => (.alone, op)

/-- Everything together goes round, and the parts alone do not: the one that is shared stands in two places. -/
theorem ring_unfolds :
    (∃ m, ReflTransGen (ring.LeadsTo none) ⟨0, 1⟩ m ∧ TransGen (ring.LeadsTo none) m m) ∧
    ∃ s, (ring.keeping (some [⟨0, 4⟩])).unfold (.node ⟨0, 1⟩) none = .ok s ∧
      s.print .none = "($0:1 ($0:4 ($0:2 ($0:4 $0:3))) ($0:4 $0:3))" := by
  have harises : ring.Arises := Arises.evolved (.fresh 0) _
  have hroot : ring.contains (.node ⟨0, 1⟩) = true := by decide +kernel
  have hnext : Decimal.isWritable ring.nodes.next = true := by decide +kernel
  obtain ⟨hfails, -⟩ := arises_unfolds harises (.inl hnext) hroot none
  obtain ⟨-, -, -, -, hkeeps, hsame⟩ := arises_unfolds harises (.inl hnext) hroot (some [⟨0, 4⟩])
  constructor
  · have hnone : (ring.unfold (.node ⟨0, 1⟩) none).toOption.isSome = false := by decide +kernel
    cases hs : ring.unfold (.node ⟨0, 1⟩) none with
    | error f => exact hfails.1 ⟨f, hs⟩
    | ok s =>
      rw [hs] at hnone
      cases hnone
  · have hprint : (ring.unfold (.node ⟨0, 1⟩) (some [⟨0, 4⟩])).toOption.map (·.print .none) =
        some "($0:1 ($0:4 ($0:2 ($0:4 $0:3))) ($0:4 $0:3))" := by decide +kernel
    rw [hsame _ hkeeps]
    cases hs : ring.unfold (.node ⟨0, 1⟩) (some [⟨0, 4⟩]) with
    | error f =>
      rw [hs] at hprint
      cases hprint
    | ok s =>
      rw [hs] at hprint
      exact ⟨s, rfl, Option.some.inj hprint⟩

/-- The record of a node beyond the handles that are given out. It leads to itself, and can be reached. -/
def looped : Plain := .object [("format", .text recordFormat), ("version", .int 1), ("id", .int 0),
  ("next", .int (Decimal.firstTooLong + 1)),
  ("nodes", .list [.object [("id", .int 0)], .object [("id", .int Decimal.firstTooLong)]]),
  ("triples", .list [
    .object [("id", .int 1), ("s", .int 0), ("p", .int 0), ("o", .int Decimal.firstTooLong)],
    .object [("id", .int 2), ("s", .int Decimal.firstTooLong), ("p", .int 0), ("o", .int Decimal.firstTooLong)]])]

/-- A node on a cycle is reached, but that cannot be told, since nothing writes its handle. -/
theorem looped_untold : ∃ e f, fromRecord looped = .ok e ∧ e.unfold (.node e.selfNode) none = .error f ∧
    (∃ m, ReflTransGen (e.LeadsTo none) e.selfNode m ∧ TransGen (e.LeadsTo none) m m) ∧
    f.kind = .cyclicStructure ∧ f.told.kind = .misuse := by
  have hrun : (match fromRecord looped with
      | .ok e =>
        match e.unfold (.node e.selfNode) none with
        | .ok _ => false
        | .error f => f.kind == .cyclicStructure && f.told.kind == .misuse
      | .error _ => false) = true := by decide +kernel
  cases hread : fromRecord looped with
  | error f =>
    rw [hread] at hrun
    cases hrun
  | ok e =>
    rw [hread] at hrun
    dsimp only at hrun
    have hs := fromRecord_standalone hread
    cases hf : e.unfold (.node e.selfNode) none with
    | ok s =>
      rw [hf] at hrun
      cases hrun
    | error f =>
      rw [hf] at hrun
      simp only [Bool.and_eq_true, beq_iff_eq] at hrun
      exact ⟨e, f, rfl, hf, (unfold_fails_iff hs.tabled hs.whole hs.tabled.self).1 ⟨f, hf⟩, hrun.1, hrun.2⟩

end Environment

end GraphLisp
