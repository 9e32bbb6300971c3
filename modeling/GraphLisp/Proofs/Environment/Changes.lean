import GraphLisp.Proofs.Environment.Coherence
/-!
# Changes of one handle

The operations on an environment are made of a few changes: a handle is given out, a cell is put at
a handle, a handle gets a name or loses it, a handle is dropped. `Locale.Becomes` says what a change
makes of a coherent locale: one that is coherent again, with other contents and perhaps another
counter, and with everything as it was that other environments have filed.
-/

namespace GraphLisp

open Std

namespace Locale

/-- The locale has become one with the contents `g` and the counter `next`. -/
structure Becomes (l l' : Locale) (g : Contents) (next : Int) : Prop where
  coherent : l'.Coherent
  id : l'.env.id = l.env.id
  pins : l'.env.pins = l.env.pins
  contents : l'.env.contents = g
  next : l'.env.nodes.next = next
  elsewhere : l.Elsewhere l'

theorem Becomes.cells {l l' : Locale} {g : Contents} {next : Int} (h : l.Becomes l' g next) :
    l'.env.nodes.cells = g.cells := congrArg Contents.cells h.contents

theorem Becomes.nameOf {l l' : Locale} {g : Contents} {next : Int} (h : l.Becomes l' g next) :
    l'.env.nodes.nameOf = g.nameOf := congrArg Contents.nameOf h.contents

theorem Becomes.statements {l l' : Locale} {g : Contents} {next : Int} (h : l.Becomes l' g next) :
    l'.env.triples.statements = g.statements := congrArg Contents.statements h.contents

theorem Becomes.trans {l l' l'' : Locale} {g g' : Contents} {next next' : Int}
    (h : l.Becomes l' g next) (h' : l'.Becomes l'' g' next') : l.Becomes l'' g' next' where
  coherent := h'.coherent
  id := h'.id.trans h.id
  pins := h'.pins.trans h.pins
  contents := h'.contents
  next := h'.next
  elsewhere := h.elsewhere.trans h'.elsewhere h.id

end Locale

/-! ## Cells -/

/-- The table in which a stand-in that is to come is known already. -/
def NodeTable.receive (t : NodeTable) (handle : Int) : Cell → NodeTable
  | .proxy target => { t with imports := t.imports.insert target handle }
  | _ => t

theorem NodeTable.receive_imports_iff (t : NodeTable) (h k : Int) (c : Cell) (n : Node) :
    (t.receive h c).imports[n]? = some k ↔
      (c = .proxy n ∧ k = h) ∨ (c ≠ .proxy n ∧ t.imports[n]? = some k) := by
  cases c with
  | proxy m =>
    simp only [receive, getElem?_insert_iff, Cell.proxy.injEq, ne_eq, @eq_comm _ m]
  | plain p => simp [receive]
  | triple => simp [receive]

/-- What can be put at a handle: anything but a triple, in place of anything but a stand-in or a
triple, and a stand-in only for a node of another environment that has none. -/
structure Environment.Admits (e : Environment) (handle : Int) (c : Cell) : Prop where
  in_place : ∀ c', e.nodes.cells[handle]? = some c' → ∃ content, c' = .plain content
  no_triple : c ≠ .triple
  proxy : ∀ t, c = .proxy t → t.env ≠ e.id ∧ e.nodes.imports[t]? = none

/-- The environment with a cell put at a handle, and the counter moved on. -/
def Environment.putCell (e : Environment) (handle : Int) (c : Cell) (next : Int) : Environment :=
  { e with nodes := { e.nodes.receive handle c with cells := e.nodes.cells.insert handle c, next } }

theorem Environment.putCell_tables (e : Environment) (h : Int) (c : Cell) (next : Int) :
    (e.putCell h c next).nodes.names = e.nodes.names ∧
      (e.putCell h c next).nodes.nameOf = e.nodes.nameOf ∧
      (e.putCell h c next).nodes.referrers = e.nodes.referrers := by
  cases c <;> exact ⟨rfl, rfl, rfl⟩

theorem Environment.Tabled.putCell {e : Environment} (he : e.Tabled) {h : Int} {c : Cell} {next : Int}
    (h0 : 0 ≤ h) (hn : h < next) (hnext : e.nodes.next ≤ next) (ha : e.Admits h c) :
    (e.putCell h c next).Tabled := by
  obtain ⟨hnames, hnameOf, -⟩ := e.putCell_tables h c next
  refine ⟨?_, fun k hk => ?_, ⟨fun s k => ?_, fun k s hk => ?_⟩, fun t k => ?_, fun k t hk => ?_,
    he.triples, fun k => ?_⟩
  · exact (mem_insert_iff _ _ _ _).2 (.inr he.self)
  · rcases (mem_insert_iff _ _ _ _).1 hk with rfl | hk
    · exact ⟨h0, hn⟩
    · exact ⟨(he.bounds k hk).1, Int.lt_of_lt_of_le (he.bounds k hk).2 hnext⟩
  · rw [hnames, hnameOf]; exact he.named.inverse s k
  · rw [hnameOf] at hk
    exact (mem_insert_iff _ _ _ _).2 (.inr (he.named.live k s hk))
  · change (e.nodes.receive h c).imports[t]? = some k ↔ (e.nodes.cells.insert h c)[k]? = some (.proxy t)
    rw [NodeTable.receive_imports_iff, getElem?_insert_iff, he.imports]
    constructor
    · rintro (⟨rfl, rfl⟩ | ⟨-, hk⟩)
      · exact .inl ⟨rfl, rfl⟩
      · refine .inr ⟨?_, hk⟩
        rintro rfl
        obtain ⟨p, hp⟩ := ha.in_place _ hk
        cases hp
    · rintro (⟨rfl, rfl⟩ | ⟨-, hk⟩)
      · exact .inl ⟨rfl, rfl⟩
      · refine .inr ⟨?_, hk⟩
        rintro rfl
        have := (ha.proxy t rfl).2
        rw [(he.imports t k).2 hk] at this
        cases this
  · rcases (getElem?_insert_iff _ _ _ _ _).1 hk with ⟨-, hc⟩ | ⟨-, hk⟩
    · exact (ha.proxy t hc.symm).1
    · exact he.abroad k t hk
  · refine (he.statements k).trans ?_
    change e.nodes.cells[k]? = some .triple ↔ (e.nodes.cells.insert h c)[k]? = some .triple
    rw [getElem?_insert_iff]
    constructor
    · intro hk
      refine .inr ⟨?_, hk⟩
      rintro rfl
      obtain ⟨p, hp⟩ := ha.in_place _ hk
      cases hp
    · rintro (⟨-, hc⟩ | ⟨-, hk⟩)
      · exact absurd hc.symm ha.no_triple
      · exact hk

namespace Locale

/-- The tables of contents do not depend on what is filed where. -/
theorem tabled_reindex {l : Locale} (hl : l.env.Tabled) (R : Index Int Int) (X : CrossReferences) :
    (l.reindex R X).env.Tabled :=
  ⟨hl.self, hl.bounds, ⟨hl.named.inverse, hl.named.live⟩, hl.imports, hl.abroad, hl.triples,
    hl.statements⟩

theorem Reindexed.tabled {l l' : Locale} (h : l.Reindexed l') (hl : l.env.Tabled) :
    l'.env.Tabled := by
  rw [h.eq]
  exact tabled_reindex hl _ _

theorem Reindexed.contents {l l' : Locale} (h : l.Reindexed l') :
    l'.env.contents = l.env.contents := by
  rw [h.eq]; rfl

/-- The handle that is given out holds nothing yet. -/
theorem allocate_ends {l : Locale} (hl : l.Coherent) :
    Ends allocate l
      (fun h l' => h = l.env.nodes.next ∧ h ≤ maxHandle ∧
        l.Becomes l' (l.env.contents.put h (.plain none)) (h + 1))
      (fun _ l' => l' = l ∧ maxHandle < l.env.nodes.next) := by
  unfold allocate onNodes NodeTable.allocate
  simp only [ends_bind, ends_get]
  split
  · next h =>
    split at h
    · cases h
    · next hmax =>
      cases h
      rw [ends_bind, ends_modify, ends_pure]
      have h0 : 0 ≤ l.env.nodes.next := by
        have := hl.tabled.bounds _ hl.tabled.self
        omega
      have ha : l.env.Admits l.env.nodes.next (.plain none) := by
        refine ⟨fun c' hc => ?_, by simp, fun t ht => by cases ht⟩
        exact absurd (mem_of_getElem? hc) hl.tabled.fresh_handle
      refine ⟨rfl, Int.not_lt.1 hmax, ⟨?_, hl.filed.referrers_tight, hl.filed.references_tight,
        fun k h => ?_, fun t h => ?_⟩, rfl, rfl, rfl, rfl, .refl l⟩
      · exact hl.tabled.putCell h0 (Int.lt_succ _) (Int.le_of_lt (Int.lt_succ _)) ha
      · exact (hl.filed.within k h).trans (mentions_fresh hl.tabled h _).symm
      · exact (hl.filed.across t h).trans (and_congr_right fun _ => (mentions_fresh hl.tabled h t).symm)
  · next h =>
    split at h
    · next hmax => exact ⟨rfl, hmax⟩
    · cases h
where
  /-- A cell without content mentions nothing. -/
  mentions_fresh {e : Environment} (he : e.Tabled) (k : Int) (n : Node) :
      { e with nodes := { e.nodes with
        cells := e.nodes.cells.insert e.nodes.next (.plain none), next := e.nodes.next + 1 } }.Mentions k n ↔
        e.Mentions k n := by
    refine (mentions_insert_iff e _ k _ n).trans ?_
    constructor
    · rintro (⟨-, hn⟩ | ⟨-, hm⟩)
      · cases hn
      · exact hm
    · intro hm
      refine .inr ⟨?_, hm⟩
      rintro rfl
      obtain ⟨c, hc, -⟩ := hm
      exact he.fresh_handle (mem_of_getElem? hc)

/-- A cell can be held at a handle that holds nothing, or nothing but a structure. -/
theorem hold_becomes {l : Locale} (hl : l.Coherent) {h : Int} {c : Cell} (h0 : 0 ≤ h)
    (hn : h < l.env.nodes.next) (ha : l.env.Admits h c) :
    l.Becomes ({ l with env.nodes := l.env.nodes.receive h c }.hold h c) (l.env.contents.put h c)
      l.env.nodes.next := by
  -- which stand-ins are known does not matter to what is filed
  have hcells : ∀ c, (l.env.nodes.receive h c).cells = l.env.nodes.cells := fun c => by cases c <;> rfl
  have href : ∀ c, (l.env.nodes.receive h c).referrers = l.env.nodes.referrers := fun c => by
    cases c <;> rfl
  have hm : ∀ k n, { l with env.nodes := l.env.nodes.receive h c }.env.Mentions k n ↔ l.env.Mentions k n := by
    intro k n
    simp only [Environment.Mentions, hcells]
  have hf : ({ l with env.nodes := l.env.nodes.receive h c } : Locale).Filed
      ({ l with env.nodes := l.env.nodes.receive h c } : Locale).env.Mentions := by
    refine Filed.congr ⟨?_, hl.filed.references_tight, fun k x => ?_, hl.filed.across⟩ hm
    · simp only [href]; exact hl.filed.referrers_tight
    · simp only [href]; exact hl.filed.within k x
  obtain ⟨hr, hf'⟩ := hold_filed hf h c
  have hplace : (({ l with env.nodes := l.env.nodes.receive h c } : Locale).place h c).env =
      l.env.putCell h c l.env.nodes.next := by
    cases c <;> rfl
  have ht := hl.tabled.putCell h0 hn (Int.le_refl _) ha
  rw [← hplace] at ht
  have hnext : (l.env.nodes.receive h c).next = l.env.nodes.next := by cases c <;> rfl
  have hname : (l.env.nodes.receive h c).nameOf = l.env.nodes.nameOf := by cases c <;> rfl
  refine ⟨⟨hr.tabled ht, hf'.congr fun k n => ?_⟩, ?_, ?_, ?_, ?_, hr.elsewhere⟩
  · simp only [Environment.Mentions, hr.cells_eq]
  · rw [hr.eq]; rfl
  · rw [hr.eq]; rfl
  · rw [hr.contents]
    simp [place, Environment.contents, Contents.put, hcells, hname]
  · rw [hr.eq]; exact hnext

/-! ## Names -/

/-- Changing names leaves a locale coherent. -/
theorem renamed_becomes {l : Locale} (hl : l.Coherent) {names : ExtTreeMap String Int}
    {nameOf : ExtTreeMap Int String} (h : ({ l.env.nodes with names, nameOf } : NodeTable).Named) :
    l.Becomes { l with env.nodes := { l.env.nodes with names, nameOf } }
      { l.env.contents with nameOf } l.env.nodes.next :=
  ⟨⟨⟨hl.tabled.self, hl.tabled.bounds, h, hl.tabled.imports, hl.tabled.abroad, hl.tabled.triples,
    hl.tabled.statements⟩, ⟨hl.filed.referrers_tight, hl.filed.references_tight, hl.filed.within,
    hl.filed.across⟩⟩, rfl, rfl, rfl, rfl, .refl l⟩

/-- A live handle gets a name unless another one has it. -/
theorem name_ends {l : Locale} (hl : l.Coherent) {h : Int} (hh : h ∈ l.env.nodes.cells) (s : String) :
    Ends (name h s) l
      (fun _ l' => l.Becomes l' (l.env.contents.named h s) l.env.nodes.next)
      (fun f l' => (∃ k, k ≠ h ∧ l.env.nodes.names[s]? = some k) ∧ f = .nameTaken s ∧ l' = l) := by
  unfold name onNodes
  simp only [ends_bind, ends_get]
  by_cases hs : ∃ k, k ≠ h ∧ l.env.nodes.names[s]? = some k
  · obtain ⟨k, hk, hs⟩ := hs
    simp only [NodeTable.bindName_taken hs hk, bind, Except.bind]
    exact ⟨⟨k, hk, hs⟩, rfl, rfl⟩
  · have hfree : l.env.nodes.names[s]? = none ∨ l.env.nodes.names[s]? = some h := by
      cases hk : l.env.nodes.names[s]? with
      | none => exact .inl rfl
      | some k =>
        by_cases hkh : k = h
        · exact .inr (by rw [hkh])
        · exact absurd ⟨k, hkh, hk⟩ hs
    obtain ⟨names, he, hn⟩ := NodeTable.bindName_ok hl.tabled.named hh hfree
    simp only [he, bind, Except.bind, pure, Except.pure]
    exact renamed_becomes hl hn

/-- A handle can always lose its name. -/
theorem unname_ends {l : Locale} (hl : l.Coherent) (h : Int) :
    Ends (onNodes fun t => return ((), ← t.unbindName h)) l
      (fun _ l' => l.Becomes l' (l.env.contents.unnamed h) l.env.nodes.next) (fun _ _ => False) := by
  unfold onNodes
  simp only [ends_bind, ends_get]
  obtain ⟨names, he, hn, -⟩ := NodeTable.unbindName_ok hl.tabled.named h
  simp only [he, bind, Except.bind, pure, Except.pure]
  exact renamed_becomes hl hn

/-! ## Dropping a handle -/

/-- A handle is dropped with its cell and its name, once it has no statement any more. -/
theorem drop_ends {l : Locale} (hl : l.Coherent) {h : Int} (hh : h ∈ l.env.nodes.cells)
    (hself : h ≠ selfHandle) {t : TripleStore} (ht : t.Coherent)
    (hst : t.statements = l.env.triples.statements.erase h) :
    Ends (drop h) { l with env.triples := t }
      (fun _ l' => l.Becomes l' (l.env.contents.without h) l.env.nodes.next) (fun _ _ => False) := by
  obtain ⟨c, hc⟩ := (mem_iff_exists_getElem? _ _).1 hh
  -- the stand-in is forgotten first
  obtain ⟨imports, hi, himp⟩ : ∃ imports, l.env.nodes.unbindImport c = .ok { l.env.nodes with imports } ∧
      ∀ (n : Node) (k : Int), imports[n]? = some k ↔ k ≠ h ∧ l.env.nodes.cells[k]? = some (.proxy n) := by
    cases c with
    | proxy n =>
      have hn := (hl.tabled.imports n h).2 hc
      refine ⟨l.env.nodes.imports.erase n, by simp [NodeTable.unbindImport, mem_of_getElem? hn],
        fun m k => ?_⟩
      rw [getElem?_erase_iff, hl.tabled.imports]
      refine and_congr_left fun hk => not_congr ⟨?_, ?_⟩
      · rintro rfl
        have := (hl.tabled.imports m k).2 hk
        rw [hn] at this
        exact (Option.some.inj this).symm
      · rintro rfl
        rw [hc] at hk
        cases hk; rfl
    | plain p =>
      refine ⟨l.env.nodes.imports, rfl, fun m k => (hl.tabled.imports m k).trans ?_⟩
      exact ⟨fun hk => ⟨(fun e => by rw [e, hc] at hk; cases hk), hk⟩, And.right⟩
    | triple =>
      refine ⟨l.env.nodes.imports, rfl, fun m k => (hl.tabled.imports m k).trans ?_⟩
      exact ⟨fun hk => ⟨(fun e => by rw [e, hc] at hk; cases hk), hk⟩, And.right⟩
  -- then nothing is filed for the handle
  have hf : ({ l with env := { l.env with triples := t, nodes := { l.env.nodes with imports } } } : Locale).Filed
      l.env.Mentions :=
    ⟨hl.filed.referrers_tight, hl.filed.references_tight, hl.filed.within, hl.filed.across⟩
  have hr := release_reindexed ⟨{ l.env with triples := t, nodes := { l.env.nodes with imports } },
    l.references⟩ h
  have hf' := release_filed (l := ⟨{ l.env with triples := t, nodes := { l.env.nodes with imports } },
    l.references⟩) hf h
  generalize hl' : Locale.release ⟨{ l.env with triples := t, nodes := { l.env.nodes with imports } },
    l.references⟩ h = l' at hr hf'
  have hnamed : l'.env.nodes.Named := by
    rw [hr.eq]; exact ⟨hl.tabled.named.inverse, hl.tabled.named.live⟩
  obtain ⟨names, hu, hn, -⟩ := NodeTable.unbindName_ok hnamed h
  have hd : discardHandle { l with env.triples := t } h = .ok { l' with env.nodes :=
      { l'.env.nodes with cells := l'.env.nodes.cells.erase h, names, nameOf := l'.env.nodes.nameOf.erase h } } := by
    simp only [discardHandle, Environment.cell, hc, hi, bind, Except.bind, hl', hu, pure, Except.pure]
  unfold drop
  simp only [ends_bind, ends_get, hd, ends_set]
  have hm : ∀ k n, { l'.env with nodes := { l'.env.nodes with
      cells := l'.env.nodes.cells.erase h, names, nameOf := l'.env.nodes.nameOf.erase h } }.Mentions k n ↔
      k ≠ h ∧ l.env.Mentions k n := by
    intro k n
    rw [hr.eq]
    simp only [Environment.Mentions, reindex, getElem?_erase_iff, and_assoc, exists_and_left]
  rw [hr.eq] at hn hf' hm ⊢
  refine ⟨⟨⟨?_, fun k hk => ?_, ⟨hn.inverse, fun k s hk => ?_⟩, fun n k => ?_, fun k n hk => ?_, ht,
    fun k => ?_⟩, Filed.congr ⟨hf'.referrers_tight, hf'.references_tight, hf'.within, hf'.across⟩ hm⟩,
    rfl, rfl, ?_, rfl, hr.elsewhere⟩
  · exact (mem_erase_iff _ _ _).2 ⟨hself.symm, hl.tabled.self⟩
  · exact hl.tabled.bounds k ((mem_erase_iff _ _ _).1 hk).2
  · have hkh := ((getElem?_erase_iff _ _ _ _).1 hk).1
    exact (mem_erase_iff _ _ _).2 ⟨hkh, hn.live k s hk⟩
  · exact (himp n k).trans (getElem?_erase_iff _ _ _ _).symm
  · exact hl.tabled.abroad k n ((getElem?_erase_iff _ _ _ _).1 hk).2
  · change k ∈ t.statements ↔ (l.env.nodes.cells.erase h)[k]? = some .triple
    rw [hst, mem_erase_iff, getElem?_erase_iff, hl.tabled.statements]
  · simp only [Environment.contents, reindex, Contents.without, hst]

/-- A handle without a statement is dropped as it stands. -/
theorem drop_plain_ends {l : Locale} (hl : l.Coherent) {h : Int} (hh : h ∈ l.env.nodes.cells)
    (hself : h ≠ selfHandle) (hst : l.env.nodes.cells[h]? ≠ some .triple) :
    Ends (drop h) l (fun _ l' => l.Becomes l' (l.env.contents.without h) l.env.nodes.next)
      (fun _ _ => False) := by
  refine drop_ends hl hh hself hl.tabled.triples (table_ext fun k st => ?_)
  rw [getElem?_erase_iff]
  refine ⟨fun hk => ⟨?_, hk⟩, And.right⟩
  rintro rfl
  exact hl.tabled.no_statement hst (mem_of_getElem? hk)

end Locale

end GraphLisp
