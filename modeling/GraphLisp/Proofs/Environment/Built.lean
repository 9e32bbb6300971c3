import Mathlib.Logic.Relation
import GraphLisp.Proofs.Environment.Acceptance
import GraphLisp.Proofs.Environment.OnRecord
/-!
# What building can reach

An environment starts with a node at its own handle and never loses it. No handle is given out beyond
the last one, and a triple relates what was there before it, so that triples descend and none leads
back to itself (`Environment.Built`). Operations keep to this, and so does a record that tells of
nothing else. But a record is not asked: the environment that is read from it is a built one exactly
if its rows happen to be (`Environment.fromRecord_built`).
-/

namespace GraphLisp

open Std

/-- All parts of a statement are below a handle. -/
def Statement.Below (st : Statement) (h : Int) : Prop := st.subject < h ∧ st.predicate < h ∧ st.object < h

namespace Environment

/-- What all environments have in common that operations have built from a new one. -/
structure Built (e : Environment) : Prop where
  self : ∃ content, e.nodes.cells[selfHandle]? = some (.plain content)
  range : ∀ h ∈ e.nodes.cells, h ≤ maxHandle
  descends : ∀ (h : Int) (st : Statement), e.triples.statements[h]? = some st → st.Below h

/-- A triple refers to each part of its statement. -/
def RefersTo (e : Environment) (h k : Int) : Prop :=
  ∃ st, e.triples.statements[h]? = some st ∧ (k = st.subject ∨ k = st.predicate ∨ k = st.object)

variable {e : Environment}

/-- References lead downwards only. -/
theorem Built.below (he : e.Built) {h k : Int} (hk : Relation.TransGen e.RefersTo h k) : k < h := by
  have hstep : ∀ {h k}, e.RefersTo h k → k < h := by
    rintro h k ⟨st, hst, rfl | rfl | rfl⟩
    · exact (he.descends h st hst).1
    · exact (he.descends h st hst).2.1
    · exact (he.descends h st hst).2.2
  induction hk with
  | single h => exact hstep h
  | tail _ h ih => exact Int.lt_trans (hstep h) ih

/-- No triple refers to itself, directly or in a circle. -/
theorem Built.no_circle (he : e.Built) (h : Int) : ¬Relation.TransGen e.RefersTo h h :=
  fun hh => Int.lt_irrefl h (he.below hh)

theorem Built.congr (he : e.Built) {e' : Environment} (hcells : e'.nodes.cells = e.nodes.cells)
    (hst : e'.triples.statements = e.triples.statements) : e'.Built where
  self := hcells ▸ he.self
  range := hcells ▸ he.range
  descends := hst ▸ he.descends

theorem fresh_built (id : Int) : (fresh id).Built where
  self := ⟨none, (getElem?_insert_iff _ _ _ _ _).2 (.inl ⟨rfl, rfl⟩)⟩
  range h hh := by
    rcases (mem_insert_iff _ _ _ _).1 hh with rfl | hh
    · decide
    · cases ExtTreeMap.not_mem_empty hh
  descends h st hst := by
    cases ExtTreeMap.getElem?_empty.symm.trans hst

end Environment

/-! ## Operations build -/

/-- The environment of a coherent locale is a built one. -/
structure Locale.Built (l : Locale) : Prop where
  coherent : l.Coherent
  env : l.env.Built

namespace Locale

variable {around : Surroundings} {l l' : Locale}

theorem Built.congr (hl : l.Built) (hl' : l'.Coherent) (hcells : l'.env.nodes.cells = l.env.nodes.cells)
    (hst : l'.env.triples.statements = l.env.triples.statements) : l'.Built :=
  ⟨hl', hl.env.congr hcells hst⟩

/-- What is put at a handle that has been given out leaves a built environment. -/
theorem Built.put (hl : l.Built) (hl' : l'.Coherent) {h : Int} {c : Cell}
    (hcells : l'.env.nodes.cells = l.env.nodes.cells.insert h c) (hh : h ≤ maxHandle)
    (hself : h = selfHandle → ∃ content, c = .plain content)
    (hst : ∀ (k : Int) (st : Statement), l'.env.triples.statements[k]? = some st →
      l.env.triples.statements[k]? = some st ∨ st.Below k) : l'.Built := by
  refine ⟨hl', ?_, fun k hk => ?_, fun k st hk => ?_⟩
  · by_cases hself' : h = selfHandle
    · obtain ⟨content, rfl⟩ := hself hself'
      exact ⟨content, by rw [hcells, hself']; exact (getElem?_insert_iff _ _ _ _ _).2 (.inl ⟨rfl, rfl⟩)⟩
    · obtain ⟨content, hc⟩ := hl.env.self
      exact ⟨content, by rw [hcells]; exact (getElem?_insert_iff _ _ _ _ _).2 (.inr ⟨fun e => hself' e.symm, hc⟩)⟩
  · rw [hcells] at hk
    rcases (mem_insert_iff _ _ _ _).1 hk with rfl | hk
    · exact hh
    · exact hl.env.range k hk
  · exact (hst k st hk).elim (hl.env.descends k st) id

/-- What nothing uses can be removed; the self node is never unused. -/
theorem Built.without (hl : l.Built) {h : Int} (hunused : l.Unused around h)
    (hb : l.Becomes l' (l.env.contents.without h) l.env.nodes.next) : l'.Built := by
  refine ⟨hb.coherent, ?_, fun k hk => ?_, fun k st hk => ?_⟩
  · obtain ⟨content, hc⟩ := hl.env.self
    rw [hb.cells]
    exact ⟨content, (getElem?_erase_iff _ _ _ _).2 ⟨fun e => hunused.no_self e.symm, hc⟩⟩
  · rw [hb.cells] at hk
    exact hl.env.range k ((mem_erase_iff _ _ _).1 hk).2
  · rw [hb.statements] at hk
    exact hl.env.descends k st ((getElem?_erase_iff _ _ _ _).1 hk).2

/-- An alteration builds on what is built. -/
theorem Alters.built {u : Undo} (hl : l.Built) (h : l.Alters around u l') : l'.Built := by
  cases h with
  | @made _ c name _ _ _ room hb =>
    have hcells : l'.env.nodes.cells = l.env.nodes.cells.insert l.env.nodes.next c := by
      rw [hb.cells]; cases name <;> rfl
    have hst : l'.env.triples.statements = l.env.triples.statements := by
      rw [hb.statements]; cases name <;> rfl
    exact hl.put hb.coherent hcells room (fun h => absurd h (next_ne_self hl.coherent))
      fun k st hk => .inl (hst ▸ hk)
  | @related _ st hs hp ho room hb =>
    refine hl.put hb.coherent hb.cells room (fun h => absurd h (next_ne_self hl.coherent)) fun k st' hk => ?_
    rw [hb.statements] at hk
    -- whatever is live has been given out before
    have hlive : ∀ k ∈ l.env.nodes.cells, k < l.env.nodes.next := fun k hk => (hl.coherent.tabled.bounds k hk).2
    rcases (getElem?_insert_iff _ _ _ _ _).1 hk with ⟨rfl, rfl⟩ | ⟨-, hk⟩
    · exact .inr ⟨hlive _ hs, hlive _ hp, hlive _ ho⟩
    · exact .inl hk
  | @replaced _ h previous content cell _ hb =>
    refine hl.put hb.coherent hb.cells (hl.env.range h (mem_of_getElem? cell)) (fun _ => ⟨content, rfl⟩)
      fun k st hk => .inl ?_
    rw [hb.statements] at hk
    exact hk
  | removedNode _ _ _ unused hb => exact hl.without unused hb
  | removedTriple _ _ unused hb => exact hl.without unused hb

/-- Alterations build on what is built. -/
theorem Alterations.built (hl : l.Built) {us : List Undo} (h : l.Alterations around us l') : l'.Built := by
  induction h with
  | none => exact hl
  | more _ h' ih => exact h'.built ih

theorem Changes.built (hl : l.Built) (h : l.Changes around l') : l'.Built := by
  cases h with
  | altered h => exact h.built hl
  | kept hl' _ hcells hst => exact hl.congr hl' hcells hst

/-- Every operation builds on what is built, whether or not it fails. -/
theorem perform_built (around : Surroundings) (op : Operation) : Preserves Built (op.perform around) := fun _ hl =>
  (perform_changes hl.coherent around op).mono (fun _ _ h => h.built hl) fun _ _ h => h.built hl

end Locale

namespace Environment

variable {e : Environment}

theorem Built.operated (he : e.Built) (hc : e.Coherent) (around : Surroundings) (op : Operation) :
    (e.operated around op).Built := by
  rw [operated_eq]
  exact (Locale.perform_built around op _ ⟨hc.locale, he⟩).after.env

/-- Whatever operations make of a built environment is built. -/
theorem evolved_built (ops : List (Surroundings × Operation)) :
    ∀ {e : Environment}, e.Coherent → e.Built → (e.evolved ops).Built := by
  induction ops with
  | nil => exact fun _ he => he
  | cons x ops ih => exact fun hc he => ih (hc.operated x.1 x.2) (he.operated hc x.1 x.2)

/-! ## Records of built environments -/

theorem Built.flattened (he : e.Built) : e.flattened.Built where
  self := by
    obtain ⟨content, hc⟩ := he.self
    exact ⟨_, by rw [getElem?_flattened, hc]; rfl⟩
  range h hh := he.range h ((mem_flattened e h).1 hh)
  descends := he.descends

/-- The record of a built environment is read as a built one. -/
theorem Built.restored (he : e.Built) (hc : e.Coherent) (hen : e.Enclosed) {p : Plain} (hp : e.toRecord = .ok p) :
    ∃ e', fromRecord p = .ok e' ∧ e'.Built := by
  have hrecord : e.onRecord.Built := he.congr rfl rfl
  exact ⟨_, fromRecord_toRecord (hc.standalone hen) ((toRecord_onRecord e).trans hp), hrecord.flattened⟩

/-- Whatever operations make of the environment is built, no triple in it leads back to itself, and its record
is read as a built environment. -/
def StaysBuilt (e : Environment) : Prop :=
  ∀ ops : List (Surroundings × Operation), (e.evolved ops).Built ∧
    (∀ h, ¬Relation.TransGen (e.evolved ops).RefersTo h h) ∧
    ∀ p, (e.evolved ops).toRecord = .ok p → ∃ e', fromRecord p = .ok e' ∧ e'.Built

theorem Built.stays (he : e.Built) (hs : e.Standalone) : e.StaysBuilt := by
  intro ops
  obtain ⟨hc, hen⟩ := evolved_enclosed ops hs.coherent hs.enclosed
  have hbuilt := evolved_built ops hs.coherent he
  exact ⟨hbuilt, hbuilt.no_circle, fun p hp => hbuilt.restored hc hen hp⟩

/-! ## What rows tell of it -/

namespace Holds

variable {r : Plain} {a : Account}

theorem self_iff (he : e.Holds a) (ha : Reports r a) :
    (∃ content, e.nodes.cells[selfHandle]? = some (.plain content)) ↔ ∃ x ∈ a.nodes, x.handle = selfHandle := by
  obtain ⟨-, -, -, -, ⟨rows, -, hnodes⟩, ⟨rows', -, himports⟩, -⟩ := ha
  constructor
  · rintro ⟨content, hc⟩
    rcases (he.cells _ _).1 hc with ⟨x, hx, hself, hcell⟩ | ⟨htriple, -⟩
    · rcases List.mem_append.1 hx with hx | hx
      · exact ⟨x, hx, hself⟩
      · obtain ⟨p, -, hrow⟩ := forall₂_mem_right himports x hx
        cases hrow
        cases hcell
    · cases htriple
  · rintro ⟨x, hx, hself⟩
    obtain ⟨p, -, hrow⟩ := forall₂_mem_right hnodes x hx
    cases hrow
    exact ⟨_, (he.cells _ _).2 (.inl ⟨_, List.mem_append_left _ hx, hself, rfl⟩)⟩

theorem range_iff (he : e.Holds a) : (∀ h ∈ e.nodes.cells, h ≤ maxHandle) ↔ ∀ h ∈ a.handles, h ≤ maxHandle := by
  simp only [he.live_iff]

theorem descends_iff (he : e.Holds a) :
    (∀ (h : Int) (st : Statement), e.triples.statements[h]? = some st → st.Below h) ↔
      ∀ t ∈ a.triples, t.2.Below t.1 := by
  simp only [he.statements, Prod.forall]

end Holds

/-- Nothing but the rows of a record makes what is read from it a built environment: that its own handle is the
one of a node, that no handle is beyond the last, and that all triples descend. What is built stays built, and
so does every new environment. -/
theorem fromRecord_built {r : Plain} (ht : r.Tree) {e : Environment} (hread : fromRecord r = .ok e) :
    (∃ a, Reports r a ∧
      ((∃ content, e.nodes.cells[selfHandle]? = some (.plain content)) ↔ ∃ x ∈ a.nodes, x.handle = selfHandle) ∧
      ((∀ h ∈ e.nodes.cells, h ≤ maxHandle) ↔ ∀ h ∈ a.handles, h ≤ maxHandle) ∧
      ((∀ (h : Int) (st : Statement), e.triples.statements[h]? = some st → st.Below h) ↔
        ∀ t ∈ a.triples, t.2.Below t.1)) ∧
    (e.Built → e.StaysBuilt) ∧ ∀ id, (fresh id).StaysBuilt := by
  obtain ⟨a, ha, -, he⟩ := (fromRecord_ok_iff ht e).1 hread
  exact ⟨⟨a, ha, he.self_iff ha, he.range_iff, he.descends_iff⟩, fun hbuilt => hbuilt.stays he.standalone,
    fun id => (fresh_built id).stays (Universe.fresh_standalone id)⟩

/-- The record of a node, a stand-in, and a triple that relates the two. -/
def modest : Plain := .object [("format", .text recordFormat), ("version", .int 1), ("id", .int 5), ("next", .int 4),
  ("nodes", .list [.object [("id", .int 0)], .object [("id", .int 1), ("name", .text "a")]]),
  ("imports", .list [.object [("id", .int 2), ("node", .list [.int 7, .int 3])]]),
  ("triples", .list [.object [("id", .int 3), ("s", .int 1), ("p", .int 0), ("o", .int 2)]])]

/-- What it says. -/
def modestAccount : Account := ⟨5, 4, [⟨0, none, .plain none⟩, ⟨1, some "a", .plain none⟩], [⟨2, none, .proxy ⟨7, 3⟩⟩],
  [(3, ⟨1, 0, 2⟩)]⟩

theorem modest_reports : Reports modest modestAccount :=
  .record rfl rfl rfl rfl ⟨_, .list _, .cons (.row rfl .null .null) (.cons (.row rfl (.text "a") .null) .nil)⟩
    ⟨_, .list _, .cons (.row rfl .null rfl) .nil⟩ ⟨_, .list _, .cons (.row rfl rfl rfl rfl) .nil⟩

theorem modest_stays_built : modest.Tree ∧ ∃ e, fromRecord modest = .ok e ∧ e.StaysBuilt := by
  have ht : modest.Tree := by simp [modest]
  have hsome : (fromRecord modest).toOption.isSome = true := by decide +kernel
  cases hread : fromRecord modest with
  | error f =>
    rw [hread] at hsome
    cases hsome
  | ok e =>
    obtain ⟨⟨a, ha, hself, hrange, hdescends⟩, hstays, -⟩ := fromRecord_built ht hread
    cases ha.unique modest_reports
    refine ⟨ht, e, rfl, hstays ⟨hself.2 (by decide), hrange.2 (by decide), hdescends.2 fun t ht => ?_⟩⟩
    cases List.mem_singleton.1 ht
    exact ⟨by decide, by decide, by decide⟩

/-- A record of a triple that relates itself under the handle of the environment, and of a node beyond the last
handle. -/
def uncanny : Plain := .object [("format", .text recordFormat), ("version", .int 1), ("id", .int 0),
  ("next", .int (maxHandle + 2)), ("nodes", .list [.object [("id", .int (maxHandle + 1))]]),
  ("triples", .list [.object [("id", .int 0), ("s", .int 0), ("p", .int 0), ("o", .int 0)]])]

/-- It is accepted, and nothing of what building gives holds of it. -/
theorem uncanny_accepted : uncanny.Tree ∧ ∃ e, fromRecord uncanny = .ok e ∧
    ¬(∃ content, e.nodes.cells[selfHandle]? = some (.plain content)) ∧ ¬(∀ h ∈ e.nodes.cells, h ≤ maxHandle) ∧
    e.RefersTo selfHandle selfHandle := by
  have hrun : (match fromRecord uncanny with
      | .ok e => e.isTriple selfHandle && e.nodes.cells.contains (maxHandle + 1) &&
          e.triples.statements[selfHandle]? == some ⟨0, 0, 0⟩
      | .error _ => false) = true := by decide +kernel
  refine ⟨by simp [uncanny], ?_⟩
  cases hread : fromRecord uncanny with
  | error f =>
    rw [hread] at hrun
    cases hrun
  | ok e =>
    rw [hread] at hrun
    simp only [Bool.and_eq_true, beq_iff_eq] at hrun
    obtain ⟨⟨htriple, hbeyond⟩, hst⟩ := hrun
    refine ⟨e, rfl, fun ⟨content, hc⟩ => ?_, fun hrange => ?_, ⟨_, hst, .inl rfl⟩⟩
    · cases hc.symm.trans ((e.isTriple_iff _).1 htriple)
    · exact absurd (hrange _ (ExtTreeMap.contains_iff_mem.1 hbeyond)) (by decide)

end Environment

end GraphLisp
