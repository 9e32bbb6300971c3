import GraphLisp.Proofs.Environment.Handles
import GraphLisp.Proofs.Evaluator.Step
import GraphLisp.Proofs.Region.Unfolding
/-!
# Where a step stands

A place is good to be at if its location is a live node of its environment (`Place.Stands`). A jump leads to
such a place, and what an evaluation removes is not where it is, so that it stands all the way
(`Evaluator.eval_standing`). Whoever stands can be told the triples there, if their numbers can be written
(`Standing.describes`).
-/

namespace GraphLisp

open Std

/-- The location is a live node of the environment at hand. -/
def Place.Stands (place : Place) (u : Universe) : Prop :=
  ∃ n, place.location = .node n ∧ n.env = place.env ∧ u.Live n

/-! ## What stays live -/

/-- An alteration leaves what it does not remove. -/
theorem Locale.Alters.mem_cells {around : Surroundings} {l l' : Locale} {u : Undo} (h : l.Alters around u l') {k : Int}
    (hk : k ∈ l.env.nodes.cells) (hkept : u.removed? ≠ some (l.env.node k)) : k ∈ l'.env.nodes.cells := by
  have hremoved : ∀ j : Int, u.removed? = some (l.env.node j) → j ≠ k := by
    rintro j hj rfl
    exact hkept hj
  cases h with
  | @made _ _ name _ _ _ _ hb =>
    rw [hb.cells]
    cases name <;> exact (mem_insert_iff _ _ _ _).2 (.inr hk)
  | related _ _ _ _ hb =>
    rw [hb.cells]
    exact (mem_insert_iff _ _ _ _).2 (.inr hk)
  | replaced _ _ hb =>
    rw [hb.cells]
    exact (mem_insert_iff _ _ _ _).2 (.inr hk)
  | removedNode _ _ _ _ hb =>
    rw [hb.cells]
    exact (mem_erase_iff _ _ _).2 ⟨(hremoved _ rfl).symm, hk⟩
  | removedTriple _ _ _ hb =>
    rw [hb.cells]
    exact (mem_erase_iff _ _ _).2 ⟨(hremoved _ rfl).symm, hk⟩

namespace Universe

variable {u v : Universe} {n : Node}

theorem Alters.live (hu : u.Coherent) {c : Int × Undo} (h : u.Alters c v) (hn : u.Live n)
    (hkept : c.2.removed? ≠ some n) : v.Live n := by
  obtain ⟨e, l, he, h, rfl⟩ := h
  obtain ⟨d, hd, hlive⟩ := hn
  by_cases henv : n.env = c.1
  · rw [henv, he] at hd
    cases hd
    have hnode : e.node n.id = n := by
      rw [Environment.node, hu.ids _ e he, ← henv]
    exact ⟨l.env, (getElem?_insert_iff _ _ _ _ _).2 (.inl ⟨henv, rfl⟩), h.mem_cells hlive (hnode.symm ▸ hkept)⟩
  · exact ⟨d, (getElem?_insert_iff _ _ _ _ _).2 (.inr ⟨henv, hd⟩), hlive⟩

theorem Alterations.live (hu : u.Coherent) {J : Journal Int} (h : u.Alterations J v) (hn : u.Live n)
    (hkept : ∀ entry ∈ J, entry.2.removed? ≠ some n) : v.Live n := by
  induction h with
  | none => exact hn
  | more h h' ih =>
    exact h'.live (h.coherent hu) (ih fun entry he => hkept entry (.tail _ he)) (hkept _ (.head _))

/-- A jump leads to a live node, in the environment of that node. -/
theorem jump_stands (hu : u.Coherent) {s : Structure} {place : Place} (h : u.jump s = .ok place) :
    place.Stands u := by
  have hmember : ∀ {id : Int} {e : Environment}, u.environment id = .ok e → u.members[e.id]? = some e := by
    intro id e he
    have he := environment_iff.1 he
    rwa [hu.ids id e he]
  unfold jump at h
  split at h
  · next n =>
    split at h
    · obtain ⟨e, he, h⟩ := except_bind_ok.1 h
      cases h
      exact ⟨e.selfNode, rfl, rfl, e, hmember he, (hu.tabled _ e (hmember he)).self⟩
    · obtain ⟨e, he, h⟩ := except_bind_ok.1 h
      split at h
      · next hn =>
        cases h
        obtain ⟨henv, hlive⟩ : n.env = e.id ∧ n.id ∈ e.nodes.cells := by
          simpa [Environment.contains] using hn
        exact ⟨n, rfl, henv, e, henv ▸ hmember he, hlive⟩
      · cases h
  · cases h

end Universe

/-! ## Standing all the way -/

/-- A step is at a live node of the environment at hand. -/
structure Standing (P : Universe → Prop) (p : Progress) : Prop where
  store : Universe.CoherentClosedWith P p.store
  stands : p.place.Stands p.store

section
variable {P : Universe → Prop}

theorem standing_steady (hP : Universe.Lasting P) (c : Context) : Steady c (fun _ => True) (Standing P) where
  coherent hp := hp.store.coherent
  speaks _ hp := ⟨hp.store, hp.stands⟩
  moves hp h := ⟨hp.store, Universe.jump_stands hp.store.coherent h⟩
  alters := by
    rintro p J v ⟨hu, n, hloc, henv, hlive⟩ h hs
    refine ⟨hP.alterations hu h, n, hloc, henv, h.live hu.coherent hlive fun entry he hremoved => ?_⟩
    -- what is removed is compared with the location at that moment
    have haway := (hs entry he n hremoved).2
    rw [hloc] at haway
    simp [Structure.same] at haway
  usual := usual_any
  places _ := .inr trivial

theorem Evaluator.eval_standing (hP : Universe.Lasting P) (setting : Setting) (depth : Nat) (s : Structure)
    (scope : Scope Structure) : Preserves (Standing P) (eval setting depth s scope) :=
  (eval_sustains (standing_steady hP setting.context) rfl depth s scope).preserves

namespace Evaluator

variable (depth : Nat) (setting : Setting) (scope : Scope Structure) {place : Place} {u : Universe}

/-- When evaluating ends, before anything is taken back, the step stands. -/
theorem reached_standing (hP : Universe.Lasting P) (hu : Universe.CoherentClosedWith P u) (hplace : place.Stands u) :
    Standing P (reached depth setting place scope u) :=
  (eval_standing hP setting depth _ scope (.start u place) ⟨hu, hplace⟩).after

/-- A step that succeeds ends where it stands, and one that fails leaves the node where it started, if every node can
be put in words. -/
theorem step_stands (hP : Universe.Lasting P) (hw : ∀ {u}, P u → u.Writable)
    (hu : Universe.CoherentClosedWith P u) (hplace : place.Stands u) :
    Ends (step depth setting place scope) u (fun outcome v => Universe.CoherentClosedWith P v ∧ outcome.place.Stands v)
      fun _ v => Universe.CoherentClosedWith P v ∧ place.Stands v := by
  have heval : Ends (eval setting depth setting.top scope) (.start u place) (fun _ => Standing P) fun _ => Standing P :=
    eval_standing hP setting depth _ scope _ ⟨hu, hplace⟩
  unfold Ends
  cases h : eval setting depth setting.top scope (.start u place) with
  | ok value p =>
    have hp := heval.of_ok h
    rw [step_of_ok h]
    exact ⟨hp.store, hp.stands⟩
  | error fault p =>
    obtain ⟨v, -, hr, hstep⟩ := step_of_error ⟨hu.toCoherentClosed, hw hu.prop⟩ h
    obtain ⟨n, hloc, henv, hlive⟩ := hplace
    rw [hstep]
    exact ⟨hP.undone hu hr, n, hloc, henv, (hr.live_iff n).2 hlive⟩

end Evaluator

end

/-! ## What there is to tell -/

theorem Environment.askAny_ok {e : Environment} (he : e.Tabled) {i : Int} (hi : i ∈ e.nodes.cells) :
    ∃ ts, e.askAny (.node (e.node i)) = .ok ts ∧ ∀ t, t ∈ ts ↔ ∃ h st, e.triples.statements[h]? = some st ∧
      (st.subject = i ∨ st.predicate = i ∨ st.object = i) ∧ t = e.tripleAt h st := by
  have hmem : ∀ k, k ∈ e.triples.involving i ↔ ∃ st, e.triples.statements[k]? = some st ∧
      (st.subject = i ∨ st.predicate = i ∨ st.object = i) := TripleStore.mem_involving he.triples i
  have hresident : e.resident (.node (e.node i)) = .ok (e.node i) := by
    simp [resident, node, hi]
  have hlisted : ∀ k ∈ e.triples.involving i, k ∈ e.triples.statements := fun k hk => by
    obtain ⟨st, hst, -⟩ := (hmem k).1 hk
    exact mem_of_getElem? hst
  refine ⟨(e.triples.involving i).filterMap fun k => e.triples.statements[k]?.map (e.tripleAt k), ?_, fun t => ?_⟩
  · unfold askAny
    rw [hresident]
    exact mapM_triple hlisted
  · simp only [List.mem_filterMap, Option.map_eq_some_iff]
    constructor
    · rintro ⟨k, hk, st, hst, rfl⟩
      obtain ⟨st', hst', hpart⟩ := (hmem k).1 hk
      cases hst.symm.trans hst'
      exact ⟨k, st, hst, hpart, rfl⟩
    · rintro ⟨k, st, hst, hpart, rfl⟩
      exact ⟨k, (hmem k).2 ⟨st, hst, hpart⟩, st, hst, rfl⟩

/-- A triple on a line of its own. -/
def Triple.told (names : Names) (t : Triple) : Effect := ⟨.stdout, "    " ++ t.toStructure.print names⟩

/-- There is an answer to what touches the place, and describing it tells every such triple in turn, or says that
a number in one of them is too long. -/
def Progress.Describes (p : Progress) : Prop :=
  ∃ n e ts, p.place.location = .node n ∧ p.store.members[n.env]? = some e ∧ e.askAny (.node n) = .ok ts ∧
    Ends Eval.describe p
      (fun _ p' => (∀ t ∈ ts, t.toStructure.isPrintable p.store.names = true) ∧
        p' = { p with effects := p.effects ++ ts.map (·.told p.store.names) })
      fun f _ => f = .numeral none ∧ ∃ t ∈ ts, t.toStructure.isPrintable p.store.names = false

namespace Eval

/-- Triples are told in turn, unless a number in one of them is too long. -/
theorem tellAll_ends (names : Names) (ts : List Triple) (p : Progress) :
    Ends (tellAll names ts) p
      (fun _ p' => (∀ t ∈ ts, t.toStructure.isPrintable names = true) ∧
        p' = { p with effects := p.effects ++ ts.map (·.told names) })
      fun f _ => f = .numeral none ∧ ∃ t ∈ ts, t.toStructure.isPrintable names = false := by
  induction ts generalizing p with
  | nil => exact ⟨by simp, by simp⟩
  | cons t rest ih =>
    unfold tellAll
    rw [ends_ite]
    refine ⟨fun ht => ?_, fun ht => ⟨rfl, t, .head _, Bool.eq_false_iff.2 ht⟩⟩
    unfold say
    rw [ends_bind, ends_modify]
    refine (ih _).mono ?_ ?_
    · rintro - _ ⟨hrest, rfl⟩
      refine ⟨List.forall_mem_cons.2 ⟨ht, hrest⟩, ?_⟩
      simp [Triple.told]
    · rintro f _ ⟨rfl, t', ht', hno⟩
      exact ⟨rfl, t', .tail _ ht', hno⟩

theorem describe_ends {p : Progress} {n : Node} {e : Environment} {ts : List Triple}
    (hloc : p.place.location = .node n) (he : p.store.members[n.env]? = some e) (hask : e.askAny (.node n) = .ok ts)
    {Q : Unit → Progress → Prop} {E : Fault → Progress → Prop} :
    Ends describe p Q E ↔ Ends (tellAll p.store.names ts) p Q E := by
  have henv := Universe.environment_iff.2 he
  unfold describe environment
  rw [ends_bind, ends_get, hloc]
  simp only [ends_bind, ends_get, henv, hask, answer, ends_pure]

end Eval

namespace Standing

variable {P : Universe → Prop} {p : Progress}

/-- The triples at a place are those that its location is a part of. -/
theorem exists_answer (hp : Standing P p) : ∃ n e ts, p.place.location = .node n ∧ p.store.members[n.env]? = some e ∧
    e.askAny (.node n) = .ok ts ∧ ∀ t, t ∈ ts ↔ ∃ h st, e.triples.statements[h]? = some st ∧
      (st.subject = n.id ∨ st.predicate = n.id ∨ st.object = n.id) ∧ t = e.tripleAt h st := by
  obtain ⟨hu, n, hloc, -, e, he, hn⟩ := hp
  obtain ⟨ts, hask, hmem⟩ := Environment.askAny_ok (hu.coherent.tabled _ e he) hn
  have hnode : e.node n.id = n := by
    rw [Environment.node, hu.coherent.ids _ e he]
  exact ⟨n, e, ts, hloc, he, hnode ▸ hask, hmem⟩

/-- Whoever stands can have described where it is. -/
theorem describes (hp : Standing P p) : p.Describes := by
  obtain ⟨n, e, ts, hloc, he, hask, -⟩ := hp.exists_answer
  exact ⟨n, e, ts, hloc, he, hask, (Eval.describe_ends hloc he hask).2 (Eval.tellAll_ends _ ts p)⟩

/-- Where every node can be put in words, describing a place does not fail. -/
theorem describe_ok (hp : Standing Universe.Writable p) :
    ∃ effects, Eval.describe p = .ok ⟨⟩ { p with effects := p.effects ++ effects } := by
  obtain ⟨n, e, ts, hloc, he, hask, hmem⟩ := hp.exists_answer
  have hid := hp.store.coherent.ids _ e he
  refine ⟨ts.map (·.told p.store.names), ?_⟩
  refine Ends.eq_ok (((Eval.describe_ends hloc he hask).2 (Eval.tellAll_ends _ ts p)).mono
    (fun _ _ h => ⟨rfl, h.2⟩) ?_)
  rintro _ _ ⟨-, t, ht, hno⟩
  obtain ⟨h, st, hst, -, rfl⟩ := (hmem t).1 ht
  obtain ⟨hs, hpred, ho⟩ := hp.store.closed.parts _ e he h st hst
  have hwritable : ∀ k ∈ e.nodes.cells, (e.node k).isWritable = true := fun k hk =>
    hp.store.prop (e.node k) ⟨e, by rwa [Environment.node, hid], hk⟩
  simp [Triple.toStructure, Environment.tripleAt, Structure.list, Structure.chain, Structure.isPrintable,
    hwritable _ hs, hwritable _ hpred, hwritable _ ho] at hno

end Standing

end GraphLisp
