import GraphLisp.Proofs.Environment.Changes
/-!
# Operations on environments

For each operation one statement of how it ends on a coherent locale: what it had to find in order
to succeed, and what the locale has become. An operation that fails has changed nothing.
-/

namespace GraphLisp

open Std

/-! ## Contents -/

namespace Contents

theorem put_put (g : Contents) (h : Int) (c d : Cell) : (g.put h c).put h d = g.put h d := by
  simp only [put, insert_insert_table]

theorem put_called (g : Contents) (h : Int) (name : Option String) (k : Int) (c : Cell) :
    (g.called h name).put k c = (g.put k c).called h name := by
  cases name <;> rfl

theorem put_relate (g : Contents) (h : Int) (c : Cell) (st : Statement) :
    (g.put h c).relate h st = g.relate h st := by
  have := congrArg Contents.cells (put_put g h c .triple)
  simp only [put] at this
  simp only [put, relate, this]

end Contents

namespace Locale

variable {l : Locale} {around : Surroundings}

/-! ## Tests -/

/-- A node is live, as far as that can be told from here. -/
structure Knows (l : Locale) (around : Surroundings) (n : Node) : Prop where
  here : n.env = l.env.id → n.id ∈ l.env.nodes.cells
  there : n.env ≠ l.env.id → around.resolves n = true

/-- A structure is a live node of the environment. -/
structure Resident (l : Locale) (s : Structure) (n : Node) : Prop where
  eq : s = .node n
  env : n.env = l.env.id
  live : n.id ∈ l.env.nodes.cells

theorem Resident.node_eq {s : Structure} {n : Node} (h : l.Resident s n) : l.env.node n.id = n := by
  rw [Environment.node, ← h.env]

theorem resident_node {h : Int} (hh : h ∈ l.env.nodes.cells) :
    l.Resident (.node (l.env.node h)) (l.env.node h) := ⟨rfl, rfl, hh⟩

theorem Resident.unique {s : Structure} {n m : Node} (h : l.Resident s n) (h' : l.Resident s m) :
    n = m := by
  have := h.eq.symm.trans h'.eq
  exact Structure.node.inj this

theorem resident_ends (l : Locale) (s : Structure) :
    Ends (query (·.resident s)) l (fun n l' => l' = l ∧ l.Resident s n)
      (fun _ l' => l' = l ∧ ∀ n, ¬l.Resident s n) := by
  unfold query Environment.resident
  simp only [ends_bind, ends_get]
  cases s with
  | node n =>
    by_cases hn : n.env = l.env.id
    · by_cases hc : n.id ∈ l.env.nodes.cells
      · simp only [ne_eq, hn, not_true, ↓reduceIte, hc]
        exact ⟨rfl, rfl, hn, hc⟩
      · simp only [ne_eq, hn, not_true, ↓reduceIte, hc]
        exact ⟨rfl, fun m hm => hc (by cases hm.eq; exact hm.live)⟩
    · simp only [ne_eq, hn, not_false_eq_true, ↓reduceIte]
      exact ⟨rfl, fun m hm => hn (by cases hm.eq; exact hm.env)⟩
  | _ => exact ⟨rfl, fun m hm => by cases hm.eq⟩

theorem cell_ends {h : Int} {c : Cell} (hc : l.env.nodes.cells[h]? = some c) {F : Fault → Locale → Prop} :
    Ends (query (·.cell h)) l (fun c' l' => l' = l ∧ c' = c) F := by
  unfold query Environment.cell
  simp only [ends_bind, ends_get, hc]
  exact ⟨rfl, rfl⟩

theorem checkForeign_ends (l : Locale) (around : Surroundings) (content : Option Structure) :
    Ends (checkForeign around content) l
      (fun _ l' => l' = l ∧
        ∀ n ∈ (Cell.plain content).mentions, n.env ≠ l.env.id → around.resolves n = true)
      (fun _ l' => l' = l ∧ ∃ n ∈ (Cell.plain content).mentions, ¬l.Knows around n) := by
  unfold checkForeign
  simp only [ends_bind, ends_get]
  have hmentions : (content.map Structure.mentions).getD [] = (Cell.plain content).mentions := rfl
  rw [hmentions]
  split
  · next n hn =>
    have hp := List.find?_some hn
    simp only [ne_eq, decide_not, Bool.and_eq_true, Bool.not_eq_eq_eq_not, Bool.not_true,
      decide_eq_false_iff_not] at hp
    refine ⟨rfl, n, List.mem_of_find?_eq_some hn, fun hk => ?_⟩
    rw [hk.there hp.1] at hp
    exact absurd hp.2 (by simp)
  · next hn =>
    refine ⟨rfl, fun n hm hne => ?_⟩
    have := List.find?_eq_none.1 hn n hm
    simpa [hne] using this

theorem checkLocal_ends (l : Locale) (around : Surroundings) (content : Option Structure) :
    Ends (checkLocal content) l
      (fun _ l' => l' = l ∧
        ∀ n ∈ (Cell.plain content).mentions, n.env = l.env.id → n.id ∈ l.env.nodes.cells)
      (fun _ l' => l' = l ∧ ∃ n ∈ (Cell.plain content).mentions, ¬l.Knows around n) := by
  unfold checkLocal
  simp only [ends_bind, ends_get]
  have hmentions : (content.map Structure.mentions).getD [] = (Cell.plain content).mentions := rfl
  rw [hmentions]
  split
  · next n hn =>
    have hp := List.find?_some hn
    simp only [Bool.and_eq_true, beq_iff_eq, Bool.not_eq_eq_eq_not, Bool.not_true] at hp
    refine ⟨rfl, n, List.mem_of_find?_eq_some hn, fun hk => ?_⟩
    have := ExtTreeMap.contains_iff_mem.2 (hk.here hp.1)
    rw [this] at hp
    exact absurd hp.2 (by simp)
  · next hn =>
    refine ⟨rfl, fun n hm he => ?_⟩
    have := List.find?_eq_none.1 hn n hm
    simpa [he, ExtTreeMap.contains_iff_mem] using this

/-- Nothing uses a node: no triple, no structure of this environment, none of another one. -/
structure Unused (l : Locale) (around : Surroundings) (h : Int) : Prop where
  no_self : h ≠ selfHandle
  no_triple : ∀ (k : Int) (st : Statement), l.env.triples.statements[k]? = some st →
    st.subject ≠ h ∧ st.predicate ≠ h ∧ st.object ≠ h
  no_mention : ∀ k, ¬l.env.Mentions k (l.env.node h)
  no_reference : ∀ n, n ∉ l.references.bucket (l.env.node h)
  no_pin : around.denotes (l.env.node h) = false

theorem checkUnused_ends (hl : l.Coherent) (around : Surroundings) (h : Int) :
    Ends (checkUnused around (l.env.node h)) l (fun _ l' => l' = l ∧ l.Unused around h)
      (fun _ l' => l' = l) := by
  unfold checkUnused
  simp only [ends_bind, ends_get]
  split
  · rfl
  next h1 =>
  split
  · rfl
  next h2 =>
  split
  · rfl
  next h3 =>
  split
  · rfl
  next h4 =>
  split
  · rfl
  next h5 =>
  simp only [Bool.not_eq_eq_eq_not, Bool.not_true, Bool.not_eq_false, List.isEmpty_iff] at h2
  simp only [Bool.not_eq_eq_eq_not, Bool.not_true, Bool.not_eq_false, ExtTreeSet.isEmpty_iff] at h3 h4
  simp only [Bool.or_eq_true, not_or, Bool.not_eq_true] at h5
  refine ⟨rfl, h1, (TripleStore.involving_eq_nil_iff hl.tabled.triples h).1 h2, fun k hk => ?_,
    fun n hn => ?_, h5.2⟩
  · have := (hl.filed.within h k).2 hk
    simp only [Environment.node] at h3
    simp [h3] at this
  · simp [h4] at hn

/-! ## Making nodes -/

theorem Becomes.names {l' : Locale} {g : Contents} {next : Int} (hl : l.Coherent)
    (h : l.Becomes l' g next) (hg : g.nameOf = l.env.nodes.nameOf) :
    l'.env.nodes.names = l.env.nodes.names :=
  names_eq h.coherent.tabled.named hl.tabled.named (h.nameOf.trans hg)

theorem Becomes.node {l' : Locale} {g : Contents} {next : Int} (h : l.Becomes l' g next) (k : Int) :
    l'.env.node k = l.env.node k := by
  rw [Environment.node, Environment.node, h.id]

/-- The counter moves on when a handle is given out, and the handle is live then. -/
theorem Becomes.live_allocated {l' : Locale} (hl : l.Coherent)
    (h : l.Becomes l' (l.env.contents.put l.env.nodes.next (.plain none)) (l.env.nodes.next + 1)) :
    l'.env.nodes.cells[l.env.nodes.next]? = some (.plain none) ∧ 0 ≤ l.env.nodes.next ∧
      l.env.nodes.next < l'.env.nodes.next := by
  have h0 := (hl.tabled.bounds _ hl.tabled.self)
  refine ⟨?_, by omega, by rw [h.next]; exact Int.lt_succ _⟩
  rw [h.cells]
  exact (getElem?_insert_iff _ _ _ _ _).2 (.inl ⟨rfl, rfl⟩)

theorem createNode_ends (hl : l.Coherent) (around : Surroundings) (name : Option String)
    (content : Option Structure) :
    Ends (createNode around name content) l
      (fun n l' => n = l.env.node l.env.nodes.next ∧
        (∀ s, name = some s → l.env.nodes.names[s]? = none) ∧
        (∀ m ∈ (Cell.plain content).mentions, l.Knows around m) ∧
        l.Becomes l' ((l.env.contents.put l.env.nodes.next (.plain content)).called l.env.nodes.next name)
          (l.env.nodes.next + 1))
      (fun _ l' => l' = l ∧ ((∃ s, name = some s ∧ s ∈ l.env.nodes.names) ∨
        (∃ m ∈ (Cell.plain content).mentions, ¬l.Knows around m) ∨ maxHandle < l.env.nodes.next)) := by
  unfold createNode
  refine (checkForeign_ends l around content).test ?_ fun _ _ h => ⟨h.1, .inr (.inl h.2)⟩
  intro _ hforeign
  simp only [ends_bind, ends_get]
  split
  · next s hs =>
    obtain ⟨hname, htaken⟩ := Option.filter_eq_some_iff.1 hs
    exact ⟨rfl, .inl ⟨s, hname, of_decide_eq_true htaken⟩⟩
  next hfree =>
  refine (checkLocal_ends l around content).test ?_ fun _ _ h => ⟨h.1, .inr (.inl h.2)⟩
  intro _ hlocal
  refine (allocate_ends hl).bind ?_ fun _ _ h => ⟨h.1, .inr (.inr h.2)⟩
  rintro _ l₁ ⟨rfl, -, h₁⟩
  obtain ⟨hcell, h0, hlt⟩ := h₁.live_allocated hl
  have hfree' : ∀ s, name = some s → l.env.nodes.names[s]? = none := by
    rintro s rfl
    refine Option.eq_none_iff_forall_ne_some.2 fun k hk => hfree s ?_
    simp only [Option.filter, mem_of_getElem? hk, decide_true, ↓reduceIte]
  -- the name is given first, then the structure is put at the handle
  have hput : ∀ l₂, l.Becomes l₂ ((l.env.contents.put l.env.nodes.next (.plain none)).called
      l.env.nodes.next name) (l.env.nodes.next + 1) →
      l.Becomes (l₂.hold l.env.nodes.next (.plain content))
        ((l.env.contents.put l.env.nodes.next (.plain content)).called l.env.nodes.next name)
        (l.env.nodes.next + 1) := by
    intro l₂ h₂
    have hcell₂ : l₂.env.nodes.cells[l.env.nodes.next]? = some (.plain none) := by
      rw [h₂.cells, ← hcell, h₁.cells]
      cases name <;> rfl
    have h₃ := hold_becomes h₂.coherent (h := l.env.nodes.next) (c := .plain content) h0
      (by rw [h₂.next]; exact Int.lt_succ _)
      ⟨fun c' hc => ⟨none, by rw [hcell₂] at hc; exact (Option.some.inj hc).symm⟩, by simp,
        fun t ht => by cases ht⟩
    rw [h₂.contents, h₂.next, Contents.put_called, Contents.put_put] at h₃
    exact h₂.trans h₃
  have hknown : ∀ m ∈ (Cell.plain content).mentions, l.Knows around m :=
    fun m hm => ⟨hlocal m hm, hforeign m hm⟩
  cases name with
  | none =>
    have h₃ := hput l₁ h₁
    exact ⟨h₃.node _, hfree', hknown, h₃⟩
  | some s =>
    refine (name_ends h₁.coherent (mem_of_getElem? hcell) s).bind ?_ ?_
    · intro _ l₂ h₂
      rw [h₁.contents, h₁.next] at h₂
      have h₃ := hput l₂ (h₁.trans h₂)
      simp only [ends_bind, ends_modify, ends_get, ends_pure]
      exact ⟨h₃.node _, hfree', hknown, h₃⟩
    · rintro f l₂ ⟨⟨k, -, hk⟩, -⟩
      rw [h₁.names hl rfl, hfree' s rfl] at hk
      cases hk

theorem importNode_ends (hl : l.Coherent) (around : Surroundings) (s : Structure) :
    Ends (importNode around s) l
      (fun r l' => ∃ t, s = .node t ∧ t.env ≠ l.env.id ∧ around.resolves t = true ∧
        ((r.2 = false ∧ l' = l) ∨
          (r = (l.env.node l.env.nodes.next, true) ∧ l.env.nodes.imports[t]? = none ∧
            l.Becomes l' (l.env.contents.put l.env.nodes.next (.proxy t)) (l.env.nodes.next + 1))))
      (fun _ l' => l' = l) := by
  unfold importNode
  cases s with
  | node t =>
    simp only [ends_bind, ends_get]
    split
    · rfl
    next henv =>
    refine (checkForeign_ends l around (some (.node t))).test ?_ fun _ _ h => h.1
    intro _ hforeign
    have hres := hforeign t (by simp [Cell.mentions, Cell.content, Structure.mentions]) henv
    split
    · exact ⟨t, rfl, henv, hres, .inl ⟨rfl, rfl⟩⟩
    next hnone =>
    refine (allocate_ends hl).bind ?_ fun _ _ h => h.1
    rintro _ l₁ ⟨rfl, -, h₁⟩
    obtain ⟨hcell, h0, hlt⟩ := h₁.live_allocated hl
    simp only [ends_bind, ends_modify, ends_pure]
    have himp : l₁.env.nodes.imports[t]? = none := by
      refine Option.eq_none_iff_forall_ne_some.2 fun k hk => ?_
      rw [h₁.coherent.tabled.imports, h₁.cells] at hk
      rcases (getElem?_insert_iff _ _ _ _ _).1 hk with ⟨-, hp⟩ | ⟨-, hk⟩
      · cases hp
      · have := (hl.tabled.imports t k).2 hk
        rw [hnone] at this; cases this
    have h₂ := hold_becomes h₁.coherent (c := .proxy t) h0 hlt
      ⟨fun c' hc => ⟨none, by rw [hcell] at hc; exact (Option.some.inj hc).symm⟩, by simp,
        fun t' ht' => by cases ht'; exact ⟨by rw [h₁.id]; exact henv, himp⟩⟩
    rw [h₁.contents, Contents.put_put, h₁.next] at h₂
    exact ⟨t, rfl, henv, hres, .inr ⟨trivial, hnone, h₁.trans h₂⟩⟩
  | _ => exact rfl

/-! ## Structures and names -/

/-- The structure of a node is replaced if all it mentions is live. -/
theorem setStructure_ends (hl : l.Coherent) (around : Surroundings) (s : Structure)
    (content : Option Structure) :
    Ends (setStructure around s content) l
      (fun previous l' => ∃ n, l.Resident s n ∧ l.env.nodes.cells[n.id]? = some (.plain previous) ∧
        (∀ m ∈ (Cell.plain content).mentions, l.Knows around m) ∧
        l.Becomes l' (l.env.contents.put n.id (.plain content)) l.env.nodes.next)
      (fun _ l' => l' = l ∧ ¬∃ n previous, l.Resident s n ∧
        l.env.nodes.cells[n.id]? = some (.plain previous) ∧
        ∀ m ∈ (Cell.plain content).mentions, l.Knows around m) := by
  unfold setStructure
  refine (checkForeign_ends l around content).test ?_
    fun _ _ ⟨h, m, hm, hn⟩ => ⟨h, fun ⟨_, _, _, _, hk⟩ => hn (hk m hm)⟩
  intro _ hforeign
  refine (resident_ends l s).test ?_ fun _ _ ⟨h, hn⟩ => ⟨h, fun ⟨n, _, hr, _⟩ => hn n hr⟩
  intro n hr
  obtain ⟨c, hc⟩ := (mem_iff_exists_getElem? _ _).1 hr.live
  refine (cell_ends hc).test ?_ fun _ _ h => h
  rintro _ rfl
  rename_i c
  cases c with
  | triple =>
    refine ⟨rfl, fun ⟨m, p, hm, hp, _⟩ => ?_⟩
    rw [hm.unique hr, hc] at hp; cases hp
  | proxy t =>
    refine ⟨rfl, fun ⟨m, p, hm, hp, _⟩ => ?_⟩
    rw [hm.unique hr, hc] at hp; cases hp
  | plain previous =>
    refine (checkLocal_ends l around content).test ?_
      fun _ _ ⟨h, m, hm, hn⟩ => ⟨h, fun ⟨_, _, _, _, hk⟩ => hn (hk m hm)⟩
    intro _ hlocal
    simp only [ends_bind, ends_modify, ends_pure]
    have hb := hl.tabled.bounds _ hr.live
    refine ⟨n, hr, hc, fun m hm => ⟨hlocal m hm, hforeign m hm⟩, ?_⟩
    exact hold_becomes hl (c := .plain content) hb.1 hb.2
      ⟨fun c' hc' => ⟨previous, by rw [hc] at hc'; exact (Option.some.inj hc').symm⟩, by simp,
        fun t ht => by cases ht⟩

theorem rename_ends (hl : l.Coherent) (s : Structure) (name : Option String) :
    Ends (rename s name) l
      (fun _ l' => ∃ n, l.Resident s n ∧
        l.Becomes l' ((l.env.contents.unnamed n.id).called n.id name) l.env.nodes.next)
      (fun _ l' => l' = l) := by
  unfold rename
  refine (resident_ends l s).test ?_ fun _ _ h => h.1
  intro n hr
  simp only [ends_bind, ends_get]
  cases name with
  | none =>
    refine (unname_ends hl n.id).bind ?_ fun _ _ h => h.elim
    exact fun _ l' h => ⟨n, hr, h⟩
  | some s =>
    refine (name_ends hl hr.live s).bind ?_ fun _ _ h => h.2.2
    intro _ l' h
    refine ⟨n, hr, ?_⟩
    simpa only [Contents.called, Contents.named, Contents.unnamed, Environment.contents,
      insert_erase_table] using h

/-! ## Triples -/

/-- A statement can be stored under a handle that holds nothing. -/
theorem relate_becomes (hl : l.Coherent) {h : Int} {st : Statement} (h0 : 0 ≤ h)
    (hn : h < l.env.nodes.next) (hst : l.env.triples.handles[st]? = none)
    (hc : ∀ c, l.env.nodes.cells[h]? = some c → c = .plain none) :
    l.Becomes { l with env := { l.env with
      nodes.cells := l.env.nodes.cells.insert h .triple, triples := l.env.triples.insert h st } }
      (l.env.contents.relate h st) l.env.nodes.next := by
  have hfree : h ∉ l.env.triples.statements := by
    refine hl.tabled.no_statement fun x => ?_
    cases hc _ x
  have hm : ∀ k n, { l.env with nodes := { l.env.nodes with
      cells := l.env.nodes.cells.insert h .triple } }.Mentions k n ↔ l.env.Mentions k n := by
    intro k n
    refine (mentions_insert_iff l.env h k .triple n).trans ?_
    constructor
    · rintro (⟨-, hn⟩ | ⟨-, hm⟩)
      · cases hn
      · exact hm
    · rintro ⟨c, hk, hn⟩
      refine .inr ⟨?_, c, hk, hn⟩
      rintro rfl
      cases hc c hk
      cases hn
  refine ⟨⟨⟨?_, fun k hk => ?_, ⟨hl.tabled.named.inverse, fun k s hk => ?_⟩, fun t k => ?_,
    fun k t hk => ?_, hl.tabled.triples.insert hfree hst, fun k => ?_⟩,
    hl.filed.referrers_tight, hl.filed.references_tight, fun k x => ?_, fun t x => ?_⟩,
    rfl, rfl, rfl, rfl, .refl l⟩
  · exact (mem_insert_iff _ _ _ _).2 (.inr hl.tabled.self)
  · rcases (mem_insert_iff _ _ _ _).1 hk with rfl | hk
    · exact ⟨h0, hn⟩
    · exact hl.tabled.bounds k hk
  · exact (mem_insert_iff _ _ _ _).2 (.inr (hl.tabled.named.live k s hk))
  · refine (hl.tabled.imports t k).trans ?_
    rw [getElem?_insert_iff]
    constructor
    · intro hk
      refine .inr ⟨?_, hk⟩
      rintro rfl
      cases hc _ hk
    · rintro (⟨-, hp⟩ | ⟨-, hk⟩)
      · cases hp
      · exact hk
  · rcases (getElem?_insert_iff _ _ _ _ _).1 hk with ⟨-, hp⟩ | ⟨-, hk⟩
    · cases hp
    · exact hl.tabled.abroad k t hk
  · change k ∈ l.env.triples.statements.insert h st ↔ (l.env.nodes.cells.insert h .triple)[k]? = some .triple
    rw [mem_insert_iff, getElem?_insert_iff, hl.tabled.statements]
    constructor
    · rintro (rfl | hk)
      · exact .inl ⟨rfl, rfl⟩
      · refine .inr ⟨?_, hk⟩
        rintro rfl
        cases hc _ hk
    · rintro (⟨rfl, -⟩ | ⟨-, hk⟩)
      · exact .inl rfl
      · exact .inr hk
  · exact (hl.filed.within k x).trans (hm x _).symm
  · exact (hl.filed.across t x).trans (and_congr_right fun _ => (hm x t).symm)

theorem insertTriple_ends (hl : l.Coherent) (subject predicate object : Structure) :
    Ends (insertTriple subject predicate object) l
      (fun r l' => ∃ s p o, l.Resident subject s ∧ l.Resident predicate p ∧ l.Resident object o ∧
        ((r.2 = false ∧ l' = l ∧ ∃ k : Int, l.env.triples.statements[k]? = some (⟨s.id, p.id, o.id⟩ : Statement)) ∨
          (r = (l.env.node l.env.nodes.next, true) ∧
            (∀ k : Int, l.env.triples.statements[k]? ≠ some (⟨s.id, p.id, o.id⟩ : Statement)) ∧
            l.Becomes l' (l.env.contents.relate l.env.nodes.next ⟨s.id, p.id, o.id⟩)
              (l.env.nodes.next + 1))))
      (fun _ l' => l' = l ∧ ∀ s p o, l.Resident subject s → l.Resident predicate p → l.Resident object o →
        maxHandle < l.env.nodes.next ∧
          ∀ k : Int, l.env.triples.statements[k]? ≠ some (⟨s.id, p.id, o.id⟩ : Statement)) := by
  unfold insertTriple
  refine (resident_ends l subject).test ?_ fun _ _ h => ⟨h.1, fun s _ _ hs _ _ => absurd hs (h.2 s)⟩
  intro s hs
  refine (resident_ends l predicate).test ?_ fun _ _ h => ⟨h.1, fun _ p _ _ hp _ => absurd hp (h.2 p)⟩
  intro p hp
  refine (resident_ends l object).test ?_ fun _ _ h => ⟨h.1, fun _ _ o _ _ ho => absurd ho (h.2 o)⟩
  intro o ho
  simp only [ends_bind, ends_get]
  split
  · next k hk => exact ⟨s, p, o, hs, hp, ho, .inl ⟨rfl, rfl, k, (hl.tabled.triples.inverse _ k).1 hk⟩⟩
  next hnone =>
  have hnone : l.env.triples.handles[(⟨s.id, p.id, o.id⟩ : Statement)]? = none := hnone
  have hnew : ∀ k : Int, l.env.triples.statements[k]? ≠ some (⟨s.id, p.id, o.id⟩ : Statement) := by
    intro k hk
    have := (hl.tabled.triples.inverse ⟨s.id, p.id, o.id⟩ k).2 hk
    rw [hnone] at this
    cases this
  refine (allocate_ends hl).bind ?_ fun _ _ h => ⟨h.1, fun s' p' o' hs' hp' ho' => ⟨h.2, ?_⟩⟩
  rotate_left
  · rw [hs'.unique hs, hp'.unique hp, ho'.unique ho]
    exact hnew
  rintro _ l₁ ⟨rfl, -, h₁⟩
  obtain ⟨hcell, h0, hlt⟩ := h₁.live_allocated hl
  simp only [ends_bind, ends_modify, ends_pure]
  have hst : l₁.env.triples = l.env.triples :=
    triples_eq h₁.coherent.tabled.triples hl.tabled.triples h₁.statements
  have h₂ := relate_becomes h₁.coherent h0 hlt (hst ▸ hnone)
    (fun c hc => by rw [hcell] at hc; exact (Option.some.inj hc).symm)
  rw [h₁.contents, Contents.put_relate, h₁.next] at h₂
  exact ⟨s, p, o, hs, hp, ho, .inr ⟨trivial, hnew, h₁.trans h₂⟩⟩

/-! ## Deleting -/

theorem deleteNode_ends (hl : l.Coherent) (around : Surroundings) (s : Structure) :
    Ends (deleteNode around s) l
      (fun was l' => ∃ n, l.Resident s n ∧ l.env.nodes.cells[n.id]? = some was.cell ∧
        was.cell ≠ .triple ∧ was.name = l.env.nodes.nameOf[n.id]? ∧ l.Unused around n.id ∧
        l.Becomes l' (l.env.contents.without n.id) l.env.nodes.next)
      (fun _ l' => l' = l) := by
  unfold deleteNode
  refine (resident_ends l s).test ?_ fun _ _ h => h.1
  intro n hr
  obtain ⟨c, hc⟩ := (mem_iff_exists_getElem? _ _).1 hr.live
  refine (cell_ends hc).test ?_ fun _ _ h => h
  rintro _ rfl
  rename_i c
  split
  · rfl
  next hct =>
  have hu := checkUnused_ends hl around n.id
  rw [hr.node_eq] at hu
  refine hu.test ?_ fun _ _ h => h
  intro _ hu
  simp only [ends_bind, ends_get]
  have hnt : c ≠ .triple := fun e => hct e
  refine (drop_plain_ends hl hr.live hu.no_self ?_).mono ?_ fun _ _ h => h.elim
  · rw [hc]; exact fun e => hnt (Option.some.inj e)
  · exact fun _ l' h => ⟨n, hr, hc, hnt, rfl, hu, h⟩

/-- The statement of a live triple is removed from the store of triples. -/
theorem remove_ends (hl : l.Coherent) {h : Int} (hh : l.env.nodes.cells[h]? = some .triple) :
    Ends (onTriples (TripleStore.remove h)) l
      (fun st l' => l.env.triples.statements[h]? = some st ∧
        ∃ t, t.Coherent ∧ t.statements = l.env.triples.statements.erase h ∧
          l' = { l with env.triples := t })
      (fun _ _ => False) := by
  obtain ⟨st, hst⟩ := hl.tabled.statement_of_triple hh
  obtain ⟨t, he, hs, ht⟩ := TripleStore.remove_ok hl.tabled.triples hst
  unfold onTriples
  simp only [Ends, he]
  exact ⟨hst, t, ht, hs, rfl⟩

theorem deleteTriple_ends (hl : l.Coherent) (around : Surroundings) (s : Structure) :
    Ends (deleteTriple around s) l
      (fun r l' => ∃ n st, l.Resident s n ∧ l.env.nodes.cells[n.id]? = some .triple ∧
        l.env.triples.statements[n.id]? = some st ∧
        r = (l.env.node st.subject, l.env.node st.predicate, l.env.node st.object) ∧
        l.Unused around n.id ∧ l.Becomes l' (l.env.contents.without n.id) l.env.nodes.next)
      (fun _ l' => l' = l) := by
  unfold deleteTriple
  refine (resident_ends l s).test ?_ fun _ _ h => h.1
  intro n hr
  obtain ⟨c, hc⟩ := (mem_iff_exists_getElem? _ _).1 hr.live
  refine (cell_ends hc).test ?_ fun _ _ h => h
  rintro _ rfl
  rename_i c
  cases c with
  | plain _ => rfl
  | proxy _ => rfl
  | triple =>
  have hu := checkUnused_ends hl around n.id
  rw [hr.node_eq] at hu
  refine hu.test ?_ fun _ _ h => h
  intro _ hu
  refine (remove_ends hl hc).bind ?_ fun _ _ h => h.elim
  rintro st _ ⟨hst, t, ht, hs, rfl⟩
  refine (drop_ends hl hr.live hu.no_self ht hs).bind ?_ fun _ _ h => h.elim
  intro _ l' h
  simp only [ends_bind, ends_get, ends_pure]
  refine ⟨n, st, hr, hc, hst, ?_, hu, h⟩
  rw [h.node, h.node, h.node]

end Locale

end GraphLisp
