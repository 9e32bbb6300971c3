import GraphLisp.Proofs.Environment.Operations
/-!
# Deleting a handle

A live node is deleted exactly if nothing uses it. `Locale.Refusal` lists the ways to refuse, in the
order in which the uses are looked for; a node in use is refused in one of them, and nothing changes.
`Environment.Loses` says what is left when a node is deleted: every table without what it had under
the handle or for the handle, and as it was otherwise.
-/

namespace GraphLisp

open Std

namespace Environment

/-- An environment has lost a handle, and nothing else. -/
structure Loses (e : Environment) (h : Int) (e' : Environment) : Prop where
  id : e'.id = e.id
  pins : e'.pins = e.pins
  next : e'.nodes.next = e.nodes.next
  cells : e'.nodes.cells = e.nodes.cells.erase h
  nameOf : e'.nodes.nameOf = e.nodes.nameOf.erase h
  statements : e'.triples.statements = e.triples.statements.erase h
  names : ∀ (s : String) (k : Int), e'.nodes.names[s]? = some k ↔ k ≠ h ∧ e.nodes.names[s]? = some k
  imports : ∀ (t : Node) (k : Int), e'.nodes.imports[t]? = some k ↔ k ≠ h ∧ e.nodes.imports[t]? = some k
  handles : ∀ (st : Statement) (k : Int),
    e'.triples.handles[st]? = some k ↔ k ≠ h ∧ e.triples.handles[st]? = some k
  referrers : ∀ k x, x ∈ e'.nodes.referrers.bucket k ↔ x ≠ h ∧ x ∈ e.nodes.referrers.bucket k
  bySubject : ∀ k x, x ∈ e'.triples.bySubject.bucket k ↔ x ≠ h ∧ x ∈ e.triples.bySubject.bucket k
  byPredicate : ∀ k x, x ∈ e'.triples.byPredicate.bucket k ↔ x ≠ h ∧ x ∈ e.triples.byPredicate.bucket k
  byObject : ∀ k x, x ∈ e'.triples.byObject.bucket k ↔ x ≠ h ∧ x ∈ e.triples.byObject.bucket k

end Environment

/-- An index over the statements that are left lists the handles that are left. -/
theorem Index.Files.without {m m' : Index Int Int} {statements : ExtTreeMap Int Statement}
    {part : Statement → Int} {h : Int} (hm : m.Files statements part)
    (hm' : m'.Files (statements.erase h) part) (k x : Int) :
    x ∈ m'.bucket k ↔ x ≠ h ∧ x ∈ m.bucket k := by
  simp only [hm.mem_iff, hm'.mem_iff, getElem?_erase_iff, and_assoc, exists_and_left]

namespace Locale

variable {l l' : Locale} {h : Int}

/-- What a handle mentioned is all that is mentioned no more. -/
theorem Becomes.mentions_without (hb : l.Becomes l' (l.env.contents.without h) l.env.nodes.next) (k : Int)
    (n : Node) : l'.env.Mentions k n ↔ k ≠ h ∧ l.env.Mentions k n := by
  unfold Environment.Mentions
  rw [hb.cells]
  change (∃ c, (l.env.nodes.cells.erase h)[k]? = some c ∧ _) ↔ _
  simp only [getElem?_erase_iff, and_assoc, exists_and_left]

/-- Contents without a handle are those of an environment that has lost it. -/
theorem Becomes.loses (hl : l.Coherent)
    (hb : l.Becomes l' (l.env.contents.without h) l.env.nodes.next) : l.env.Loses h l'.env := by
  have ht := hl.tabled
  have ht' := hb.coherent.tabled
  have hcells : l'.env.nodes.cells = l.env.nodes.cells.erase h := hb.cells
  have hnameOf : l'.env.nodes.nameOf = l.env.nodes.nameOf.erase h := hb.nameOf
  have hst : l'.env.triples.statements = l.env.triples.statements.erase h := hb.statements
  have hsubjects := ht'.triples.subjects
  have hpredicates := ht'.triples.predicates
  have hobjects := ht'.triples.objects
  rw [hst] at hsubjects hpredicates hobjects
  refine ⟨hb.id, hb.pins, hb.next, hcells, hnameOf, hst, fun s k => ?_, fun t k => ?_, fun st k => ?_,
    fun k x => ?_, ht.triples.subjects.without hsubjects, ht.triples.predicates.without hpredicates,
    ht.triples.objects.without hobjects⟩
  · rw [ht'.named.inverse, ht.named.inverse, hnameOf, getElem?_erase_iff]
  · rw [ht'.imports, ht.imports, hcells, getElem?_erase_iff]
  · rw [ht'.triples.inverse, ht.triples.inverse, hst, getElem?_erase_iff]
  · rw [hb.coherent.filed.within, hl.filed.within, hb.id, hb.mentions_without]

/-- The references of a handle that is lost are lost with it, and no others. -/
theorem Becomes.references_without (hl : l.Coherent)
    (hb : l.Becomes l' (l.env.contents.without h) l.env.nodes.next) (t m : Node) :
    m ∈ l'.references.bucket t ↔ m ≠ l.env.node h ∧ m ∈ l.references.bucket t := by
  by_cases hm : m.env = l.env.id
  · obtain ⟨env, k⟩ := m
    obtain rfl : env = l.env.id := hm
    have hacross := hb.coherent.filed.across t k
    rw [hb.node, hb.id, hb.mentions_without] at hacross
    change l.env.node k ∈ _ ↔ l.env.node k ≠ _ ∧ l.env.node k ∈ _
    rw [hacross, hl.filed.across]
    exact and_left_comm.trans (and_congr_left' (not_congr (node_eq_iff l.env k h).symm))
  · rw [hb.elsewhere t m hm]
    exact (and_iff_right fun he => hm (by rw [he]; rfl)).symm

/-! ## Refusals -/

/-- The ways to refuse that a node is deleted. -/
inductive Refusal (l : Locale) (n : Node) : Fault → Prop where
  | self : l.Refusal n (.selfNode n)
  | triples (count : Nat) : l.Refusal n (.usedByTriples n count)
  | structures (count : Nat) : l.Refusal n (.usedByNodes n count)
  | elsewhere : l.Refusal n (.usedElsewhere n (l.references.bucket n).toList)
  | pinned : l.Refusal n (.pinned n)

theorem Refusal.kind {n : Node} {f : Fault} (hf : l.Refusal n f) : f.kind = .referencedNode := by
  cases hf <;> rfl

theorem Refusal.offender {n : Node} {f : Fault} (hf : l.Refusal n f) : f.offender = some (.node n) := by
  cases hf <;> rfl

/-- A refusal is told as it is, unless it lists a holder that nothing writes. -/
theorem Refusal.told {n : Node} {f : Fault} (hf : l.Refusal n f) :
    f.told = f ∨ f = .usedElsewhere n (l.references.bucket n).toList ∧
      ∃ m ∈ (l.references.bucket n).toList, m.isWritable = false := by
  cases hf with
  | elsewhere =>
    by_cases hall : ((l.references.bucket n).toList.all Node.isWritable) = true
    · exact .inl (if_pos hall)
    · obtain ⟨m, hm, hunwritable⟩ := List.all_eq_false.1 (Bool.eq_false_iff.2 hall)
      exact .inr ⟨rfl, m, hm, Bool.eq_false_iff.2 hunwritable⟩
  | _ => exact .inl rfl

/-- A node is found to be in use exactly if something uses it. -/
theorem checkUnused_exact (hl : l.Coherent) (hpins : l.env.pins = []) (around : Surroundings) (h : Int) :
    Ends (checkUnused around (l.env.node h)) l (fun _ l' => l' = l ∧ l.Unused around h)
      (fun f l' => l' = l ∧ ¬l.Unused around h ∧ l.Refusal (l.env.node h) f) := by
  have hpassed := checkUnused_ends hl around h
  suffices hrefused : Ends (checkUnused around (l.env.node h)) l (fun _ _ => True)
      (fun f _ => ¬l.Unused around h ∧ l.Refusal (l.env.node h) f) from
    (hpassed.and hrefused).mono (fun _ _ h => h.1) fun _ _ h => h
  unfold checkUnused
  simp only [ends_bind, ends_get]
  split
  · next hself => exact ⟨fun hu => hu.no_self hself, .self⟩
  split
  · next htriples =>
    refine ⟨fun hu => ?_, .triples _⟩
    have hnone := (TripleStore.involving_eq_nil_iff hl.tabled.triples h).2 hu.no_triple
    rw [Environment.node, hnone] at htriples
    cases htriples
  split
  · next hholders =>
    refine ⟨fun hu => ?_, .structures _⟩
    have hnone : l.env.nodes.referrers.bucket h = ∅ :=
      (Index.bucket_eq_empty_iff _ _).2 fun k hk => hu.no_mention k ((hl.filed.within h k).1 hk)
    rw [Environment.node, hnone] at hholders
    cases hholders
  split
  · next houtside =>
    refine ⟨fun hu => ?_, .elsewhere⟩
    have hnone := (Index.bucket_eq_empty_iff _ _).2 hu.no_reference
    rw [hnone] at houtside
    cases houtside
  split
  · next hpinned =>
    refine ⟨fun hu => ?_, .pinned⟩
    rw [hpins, hu.no_pin] at hpinned
    cases hpinned
  · trivial

/-! ## Deletion of live nodes -/

/-- Deleting a live node that is no triple tells its name and what it was. -/
theorem deleteNode_exact (hl : l.Coherent) (hpins : l.env.pins = []) (around : Surroundings) {c : Cell}
    (hc : l.env.nodes.cells[h]? = some c) (hct : c ≠ .triple) :
    Ends (deleteNode around (.node (l.env.node h))) l
      (fun was l' => was = ⟨l.env.nodes.nameOf[h]?, c⟩ ∧ l.Unused around h ∧
        l.Becomes l' (l.env.contents.without h) l.env.nodes.next)
      (fun f l' => l' = l ∧ ¬l.Unused around h ∧ l.Refusal (l.env.node h) f) := by
  have hr : l.Resident (.node (l.env.node h)) (l.env.node h) := resident_node (mem_of_getElem? hc)
  have hdone := deleteNode_ends hl around (.node (l.env.node h))
  suffices hrefused : Ends (deleteNode around (.node (l.env.node h))) l (fun _ _ => True)
      (fun f _ => ¬l.Unused around h ∧ l.Refusal (l.env.node h) f) by
    refine (hdone.and hrefused).mono ?_ fun _ _ h => h
    rintro ⟨name, cell⟩ l' ⟨⟨n, hn, hcell, -, hname, hu, hb⟩, -⟩
    cases hn.unique hr
    cases hc.symm.trans hcell
    cases hname
    exact ⟨rfl, hu, hb⟩
  unfold deleteNode
  refine (resident_ends l _).test ?_ fun _ _ hnot => absurd hr (hnot.2 _)
  intro n hn
  cases hn.unique hr
  refine (cell_ends (F := fun _ _ => False) hc).test ?_ fun _ _ h => h.elim
  rintro _ rfl
  split
  · exact absurd rfl hct
  refine (checkUnused_exact hl hpins around h).test ?_ fun _ _ h => h.2
  intro _ hu
  have hnt : l.env.nodes.cells[h]? ≠ some .triple := fun he => hct (Option.some.inj (hc.symm.trans he))
  simp only [ends_bind, ends_get, ends_pure]
  exact (drop_plain_ends hl (mem_of_getElem? hc) hu.no_self hnt).mono (fun _ _ _ => trivial)
    fun _ _ h => h.elim

/-- Deleting a live triple tells the relation that it was. -/
theorem deleteTriple_exact (hl : l.Coherent) (hpins : l.env.pins = []) (around : Surroundings)
    {st : Statement} (hst : l.env.triples.statements[h]? = some st) :
    Ends (deleteTriple around (.node (l.env.node h))) l
      (fun r l' => r = (l.env.node st.subject, l.env.node st.predicate, l.env.node st.object) ∧
        l.Unused around h ∧ l.Becomes l' (l.env.contents.without h) l.env.nodes.next)
      (fun f l' => l' = l ∧ ¬l.Unused around h ∧ l.Refusal (l.env.node h) f) := by
  have hc : l.env.nodes.cells[h]? = some .triple := (hl.tabled.statements h).1 (mem_of_getElem? hst)
  have hr : l.Resident (.node (l.env.node h)) (l.env.node h) := resident_node (mem_of_getElem? hc)
  have hdone := deleteTriple_ends hl around (.node (l.env.node h))
  suffices hrefused : Ends (deleteTriple around (.node (l.env.node h))) l (fun _ _ => True)
      (fun f _ => ¬l.Unused around h ∧ l.Refusal (l.env.node h) f) by
    refine (hdone.and hrefused).mono ?_ fun _ _ h => h
    rintro r l' ⟨⟨n, st', hn, -, hst', hr', hu, hb⟩, -⟩
    cases hn.unique hr
    cases hst.symm.trans hst'
    exact ⟨hr', hu, hb⟩
  unfold deleteTriple
  refine (resident_ends l _).test ?_ fun _ _ hnot => absurd hr (hnot.2 _)
  intro n hn
  cases hn.unique hr
  refine (cell_ends (F := fun _ _ => False) hc).test ?_ fun _ _ h => h.elim
  rintro _ rfl
  refine (checkUnused_exact hl hpins around h).test ?_ fun _ _ h => h.2
  intro _ hu
  refine (remove_ends hl hc).bind ?_ fun _ _ h => h.elim
  rintro st' _ ⟨-, t, ht, hs, rfl⟩
  exact (drop_ends hl (mem_of_getElem? hc) hu.no_self ht hs).bind (fun _ _ _ => trivial)
    fun _ _ h => h.elim

end Locale

end GraphLisp
