import GraphLisp.Environment.Record
import GraphLisp.Proofs.Environment.Alterations
/-!
# Restored environments

An environment is rebuilt from the rows of its record section by section, and in between its tables
do not agree: handles are reserved before anything is known of them, imports are known before their
cells are filled in. `Draft` says what holds while the nodes and imports are read, and `Filling`
what holds while the cells are filled in. In the end the environment is coherent, its triples are
closed and have no names, and what its structures mention of it is live
(`Environment.fromRecord_standalone`).
-/

namespace GraphLisp

open Std

/-! ## Checks in turn -/

section
variable {ε α β : Type}

/-- What every step of a fold keeps holds of its result. -/
theorem foldlM_keeps {f : β → α → Except ε β} {I : β → Prop}
    (h : ∀ b a b', I b → f b a = .ok b' → I b') (xs : List α) :
    ∀ {b b' : β}, I b → xs.foldlM f b = .ok b' → I b' := by
  induction xs with
  | nil =>
    intro b b' hb hf
    cases hf
    exact hb
  | cons a xs ih =>
    intro b b' hb hf
    rw [List.foldlM_cons, except_bind_ok] at hf
    obtain ⟨b₁, h₁, hf⟩ := hf
    exact ih (h b a b₁ hb h₁) hf

end

namespace Environment

/-! ## Rows -/

/-- The handle in a row. -/
def rowHandle? (row : List (Plain × Plain)) : Option Int :=
  match field row "id" with
  | .int h => some h
  | _ => none

theorem reserve_ok {e e' : Environment} {row : List (Plain × Plain)} {c : Cell} {h : Int}
    (hr : e.reserve row c = .ok (h, e')) :
    rowHandle? row = some h ∧ 0 ≤ h ∧ h < e.nodes.next ∧ h ∉ e.nodes.cells ∧
      e' = { e with nodes.cells := e.nodes.cells.insert h c } := by
  unfold reserve rowHandle? at *
  split at hr
  · split at hr
    · cases hr
    · next hb =>
      split at hr
      · cases hr
      · next hc =>
        cases hr
        exact ⟨by simp_all, by omega, by omega, hc, rfl⟩
  · cases hr

theorem nameRow_ok {e e' : Environment} {h : Int} {row : List (Plain × Plain)}
    (he : e.nodes.Named) (hh : h ∈ e.nodes.cells) (hr : e.nameRow h row = .ok e') :
    ∃ names nameOf, e' = { e with nodes := { e.nodes with names, nameOf } } ∧ e'.nodes.Named := by
  unfold nameRow at hr
  split at hr
  · cases hr
    exact ⟨_, _, rfl, he⟩
  · next name _ =>
    by_cases hs : ∃ k, k ≠ h ∧ e.nodes.names[name]? = some k
    · obtain ⟨k, hk, hs⟩ := hs
      rw [NodeTable.bindName_taken hs hk] at hr
      cases hr
    · have hfree : e.nodes.names[name]? = none ∨ e.nodes.names[name]? = some h := by
        cases hk : e.nodes.names[name]? with
        | none => exact .inl rfl
        | some k =>
          by_cases hkh : k = h
          · exact .inr (by rw [hkh])
          · exact absurd ⟨k, hkh, hk⟩ hs
      obtain ⟨names, hb, hn⟩ := NodeTable.bindName_ok he hh hfree
      rw [hb] at hr
      cases hr
      exact ⟨_, _, rfl, hn⟩
  · cases hr

/-! ## Reserving handles for nodes and imports -/

/-- An environment whose handles are reserved, with the cells that are still to be filled in. -/
structure Draft (id next : Int) (e : Environment) (ps : Pending) : Prop where
  id_eq : e.id = id
  pins : e.pins = []
  next_eq : e.nodes.next = next
  referrers : e.nodes.referrers = ∅
  triples : e.triples = .empty
  cells : ∀ (h : Int) (c : Cell), e.nodes.cells[h]? = some c → c = .plain none ∧ 0 ≤ h ∧ h < next
  named : e.nodes.Named
  imports : ∀ (t : Node) (h : Int), e.nodes.imports[t]? = some h ↔ (h, .proxy t) ∈ ps
  abroad : ∀ h t, (h, Cell.proxy t) ∈ ps → t.env ≠ id
  keys : (ps.map (·.1)).Nodup
  live : ∀ h c, (h, c) ∈ ps → h ∈ e.nodes.cells ∧ c ≠ .triple

variable {id next : Int} {e : Environment} {ps : Pending}

theorem draft_start (id next : Int) : Draft id next { blank id with nodes.next := next } [] where
  id_eq := rfl
  pins := rfl
  next_eq := rfl
  referrers := rfl
  triples := rfl
  cells h c hc := by simp [blank, NodeTable.empty] at hc
  named := ⟨fun s h => by simp [blank, NodeTable.empty], fun h s hs => by
    simp [blank, NodeTable.empty] at hs⟩
  imports t h := by simp [blank, NodeTable.empty]
  abroad h t ht := by cases ht
  keys := List.nodup_nil
  live h c hc := by cases hc

theorem Draft.reserve (hd : Draft id next e ps) {h : Int} (h0 : 0 ≤ h) (hn : h < next) :
    Draft id next { e with nodes.cells := e.nodes.cells.insert h (.plain none) } ps where
  id_eq := hd.id_eq
  pins := hd.pins
  next_eq := hd.next_eq
  referrers := hd.referrers
  triples := hd.triples
  cells k c hc := by
    rcases (getElem?_insert_iff _ _ _ _ _).1 hc with ⟨rfl, rfl⟩ | ⟨-, hc⟩
    · exact ⟨rfl, h0, hn⟩
    · exact hd.cells k c hc
  named := ⟨hd.named.inverse, fun k s hk => (mem_insert_iff _ _ _ _).2 (.inr (hd.named.live k s hk))⟩
  imports := hd.imports
  abroad := hd.abroad
  keys := hd.keys
  live k c hc := ⟨(mem_insert_iff _ _ _ _).2 (.inr (hd.live k c hc).1), (hd.live k c hc).2⟩

theorem Draft.rename (hd : Draft id next e ps) {names : ExtTreeMap String Int}
    {nameOf : ExtTreeMap Int String} (hn : ({ e.nodes with names, nameOf } : NodeTable).Named) :
    Draft id next { e with nodes := { e.nodes with names, nameOf } } ps :=
  ⟨hd.id_eq, hd.pins, hd.next_eq, hd.referrers, hd.triples, hd.cells, hn, hd.imports, hd.abroad, hd.keys,
    hd.live⟩

/-- A cell that is not a stand-in can be left for later. -/
theorem Draft.postpone (hd : Draft id next e ps) {h : Int} (hh : h ∈ e.nodes.cells)
    (hfree : h ∉ ps.map (·.1)) (content : Option Structure) :
    Draft id next e (ps ++ [(h, .plain content)]) where
  id_eq := hd.id_eq
  pins := hd.pins
  next_eq := hd.next_eq
  referrers := hd.referrers
  triples := hd.triples
  cells := hd.cells
  named := hd.named
  imports t k := by simp [hd.imports]
  abroad k t ht := by
    rcases List.mem_append.1 ht with ht | ht
    · exact hd.abroad k t ht
    · simp at ht
  keys := by
    rw [List.map_append, List.nodup_append]
    refine ⟨hd.keys, by simp, ?_⟩
    rintro a ha b hb rfl
    obtain rfl : a = h := by simpa using hb
    exact hfree ha
  live k c hc := by
    rcases List.mem_append.1 hc with hc | hc
    · exact hd.live k c hc
    · simp only [List.mem_singleton, Prod.mk.injEq] at hc
      obtain ⟨rfl, rfl⟩ := hc
      exact ⟨hh, by simp⟩

/-- A stand-in can be left for later once its node is known to have it. -/
theorem Draft.postpone_proxy (hd : Draft id next e ps) {h : Int} (hh : h ∈ e.nodes.cells)
    (hfree : h ∉ ps.map (·.1)) {t : Node} (ht : t.env ≠ id) (hnew : t ∉ e.nodes.imports) :
    Draft id next { e with nodes.imports := e.nodes.imports.insert t h } (ps ++ [(h, .proxy t)]) where
  id_eq := hd.id_eq
  pins := hd.pins
  next_eq := hd.next_eq
  referrers := hd.referrers
  triples := hd.triples
  cells := hd.cells
  named := ⟨hd.named.inverse, hd.named.live⟩
  imports n k := by
    simp only [getElem?_insert_iff, List.mem_append, List.mem_singleton, Prod.mk.injEq,
      Cell.proxy.injEq, hd.imports]
    constructor
    · rintro (⟨rfl, rfl⟩ | ⟨-, hk⟩)
      · exact .inr ⟨rfl, rfl⟩
      · exact .inl hk
    · rintro (hk | ⟨rfl, rfl⟩)
      · refine .inr ⟨?_, hk⟩
        rintro rfl
        exact hnew (mem_of_getElem? ((hd.imports n k).2 hk))
      · exact .inl ⟨rfl, rfl⟩
  abroad k n hn := by
    rcases List.mem_append.1 hn with hn | hn
    · exact hd.abroad k n hn
    · simp only [List.mem_singleton, Prod.mk.injEq, Cell.proxy.injEq] at hn
      rw [hn.2]
      exact ht
  keys := by
    rw [List.map_append, List.nodup_append]
    refine ⟨hd.keys, by simp, ?_⟩
    rintro a ha b hb rfl
    obtain rfl : a = h := by simpa using hb
    exact hfree ha
  live k c hc := by
    rcases List.mem_append.1 hc with hc | hc
    · exact hd.live k c hc
    · simp only [List.mem_singleton, Prod.mk.injEq] at hc
      obtain ⟨rfl, rfl⟩ := hc
      exact ⟨hh, by simp⟩

/-- What is pending has a handle. -/
theorem Draft.pending_live (hd : Draft id next e ps) {h : Int} (hh : h ∉ e.nodes.cells) :
    h ∉ ps.map (·.1) := by
  intro hm
  obtain ⟨⟨k, c⟩, hk, rfl⟩ := List.mem_map.1 hm
  exact hh (hd.live k c hk).1

theorem readNode_draft {found : Plain} {e' : Environment} {ps' : Pending} (hd : Draft id next e ps)
    (hr : readNode (e, ps) found = .ok (e', ps')) : Draft id next e' ps' := by
  unfold readNode at hr
  split at hr
  · next e ps row heq _ =>
    cases heq
    rw [except_bind_ok] at hr
    obtain ⟨⟨h, e₁⟩, h₁, hr⟩ := hr
    obtain ⟨-, h0, hn, hfree, rfl⟩ := reserve_ok h₁
    rw [hd.next_eq] at hn
    have hd₁ := hd.reserve h0 hn
    have hlive : h ∈ e.nodes.cells.insert h (.plain none) := (mem_insert_iff _ _ _ _).2 (.inl rfl)
    rw [except_bind_ok] at hr
    obtain ⟨e₂, h₂, hr⟩ := hr
    obtain ⟨names, nameOf, rfl, hnamed⟩ := nameRow_ok hd₁.named hlive h₂
    have hd₂ := hd₁.rename hnamed
    split at hr
    · cases hr
      exact hd₂
    · rw [except_bind_ok] at hr
      obtain ⟨s, -, hr⟩ := hr
      cases hr
      exact hd₂.postpone hlive (hd.pending_live hfree) _
  · cases hr

theorem readImport_draft {found : Plain} {e' : Environment} {ps' : Pending} (hd : Draft id next e ps)
    (hr : readImport (e, ps) found = .ok (e', ps')) : Draft id next e' ps' := by
  unfold readImport at hr
  split at hr
  · next e ps row heq _ =>
    cases heq
    rw [except_bind_ok] at hr
    obtain ⟨⟨h, e₁⟩, h₁, hr⟩ := hr
    obtain ⟨-, h0, hn, hfree, rfl⟩ := reserve_ok h₁
    rw [hd.next_eq] at hn
    have hd₁ := hd.reserve h0 hn
    have hlive : h ∈ e.nodes.cells.insert h (.plain none) := (mem_insert_iff _ _ _ _).2 (.inl rfl)
    dsimp only at hr
    split at hr
    · next env k _ =>
      split at hr
      · cases hr
      · next ht =>
        rw [not_or] at ht
        rw [except_bind_ok] at hr
        obtain ⟨e₂, h₂, hr⟩ := hr
        have hd₂ := hd₁.postpone_proxy (t := ⟨env, k⟩) hlive (hd.pending_live hfree)
          (by rw [← hd.id_eq]; exact ht.1) ht.2
        obtain ⟨names, nameOf, rfl, hnamed⟩ := nameRow_ok hd₂.named hlive h₂
        cases hr
        exact hd₂.rename hnamed
    · cases hr
  · cases hr

/-! ## Reserving and storing triples -/

/-- The handle in the row of a triple. -/
def tripleHandle? (found : Plain) : Option Int :=
  match found.opened with
  | .map row => rowHandle? row
  | _ => none

/-- Triples get handles of their own. -/
theorem reserveTriples_ok (rows : List Plain) : ∀ {e e' : Environment},
    rows.foldlM reserveTriple e = .ok e' →
    ∃ hs : List Int, rows.map tripleHandle? = hs.map some ∧ hs.Nodup ∧
      (∀ h ∈ hs, h ∉ e.nodes.cells ∧ 0 ≤ h ∧ h < e.nodes.next) ∧
      ∃ cells, e' = { e with nodes.cells := cells } ∧
        ∀ (k : Int) (c : Cell), cells[k]? = some c ↔
          (k ∈ hs ∧ c = .triple) ∨ (k ∉ hs ∧ e.nodes.cells[k]? = some c) := by
  induction rows with
  | nil =>
    intro e e' hf
    cases hf
    refine ⟨[], rfl, List.nodup_nil, ?_, _, rfl, fun k c => ?_⟩
    · intro h hh; cases hh
    · simp
  | cons found rows ih =>
    intro e e' hf
    rw [List.foldlM_cons, except_bind_ok] at hf
    obtain ⟨e₁, h₁, hf⟩ := hf
    unfold reserveTriple at h₁
    split at h₁
    · next row hrow =>
      rw [except_bind_ok] at h₁
      obtain ⟨⟨h, e₂⟩, h₁, he⟩ := h₁
      cases he
      obtain ⟨hrh, h0, hn, hfree, rfl⟩ := reserve_ok h₁
      obtain ⟨hs, hmap, hnodup, hfresh, cells, rfl, hcells⟩ := ih hf
      have hh : h ∉ hs := fun hm => (hfresh h hm).1 ((mem_insert_iff _ _ _ _).2 (.inl rfl))
      refine ⟨h :: hs, ?_, List.nodup_cons.2 ⟨hh, hnodup⟩, ?_, cells, rfl, fun k c => ?_⟩
      · simp only [List.map_cons, hmap, tripleHandle?, hrow, hrh]
      · intro k hk
        rcases List.mem_cons.1 hk with rfl | hk
        · exact ⟨hfree, h0, hn⟩
        · obtain ⟨hk₁, hk₂⟩ := hfresh k hk
          exact ⟨fun x => hk₁ ((mem_insert_iff _ _ _ _).2 (.inr x)), hk₂⟩
      · rw [hcells, getElem?_insert_iff, List.mem_cons]
        constructor
        · rintro (⟨hk, rfl⟩ | ⟨hk, ⟨rfl, rfl⟩ | ⟨hne, hc⟩⟩)
          · exact .inl ⟨.inr hk, rfl⟩
          · exact .inl ⟨.inl rfl, rfl⟩
          · exact .inr ⟨fun x => x.elim hne hk, hc⟩
        · rintro (⟨rfl | hk, rfl⟩ | ⟨hk, hc⟩)
          · exact .inr ⟨hh, .inl ⟨rfl, rfl⟩⟩
          · exact .inl ⟨hk, rfl⟩
          · exact .inr ⟨fun x => hk (.inr x), .inr ⟨fun x => hk (.inl x), hc⟩⟩
    · cases h₁

theorem triplePart_ok {e : Environment} {row : List (Plain × Plain)} {key : String} {k : Int}
    (h : e.triplePart row key = .ok k) : k ∈ e.nodes.cells := by
  unfold triplePart at h
  split at h
  · split at h
    · cases h; assumption
    · cases h
  · cases h

/-- Every part of a statement is live. -/
def Whole (e : Environment) : Prop :=
  ∀ (h : Int) (st : Statement), e.triples.statements[h]? = some st →
    st.subject ∈ e.nodes.cells ∧ st.predicate ∈ e.nodes.cells ∧ st.object ∈ e.nodes.cells

/-- The statements of triples are stored under the handles of their rows. -/
theorem readTriples_ok (rows : List Plain) : ∀ {e e' : Environment} {hs : List Int},
    rows.foldlM readTriple e = .ok e' → rows.map tripleHandle? = hs.map some → hs.Nodup →
    (∀ h ∈ hs, h ∉ e.triples.statements) → e.triples.Coherent → e.Whole →
    ∃ triples, e' = { e with triples } ∧ triples.Coherent ∧ e'.Whole ∧
      ∀ k, k ∈ triples.statements ↔ k ∈ hs ∨ k ∈ e.triples.statements := by
  induction rows with
  | nil =>
    intro e e' hs hf hmap _ _ hc hw
    cases hf
    obtain rfl : hs = [] := by cases hs <;> simp_all
    exact ⟨_, rfl, hc, hw, fun k => by simp⟩
  | cons found rows ih =>
    intro e e' hs hf hmap hnodup hfree hc hw
    cases hs with
    | nil => cases hmap
    | cons h hs =>
      obtain ⟨hh, hnodup'⟩ := List.nodup_cons.1 hnodup
      simp only [List.map_cons, List.cons.injEq] at hmap
      rw [List.foldlM_cons, except_bind_ok] at hf
      obtain ⟨e₁, h₁, hf⟩ := hf
      unfold readTriple at h₁
      split at h₁
      · next row hrow =>
        simp only [except_bind_ok] at h₁
        obtain ⟨s, hs', p, hp, o, ho, h₁⟩ := h₁
        split at h₁
        · next k hnone hid =>
          cases h₁
          have hrh := hmap.1
          simp only [tripleHandle?, hrow, rowHandle?, hid, Option.some.injEq] at hrh
          subst k
          have hh' := hfree _ (List.mem_cons_self ..)
          have hmem : ∀ k, k ∈ (e.triples.insert h ⟨s, p, o⟩).statements ↔ k = h ∨ k ∈ e.triples.statements :=
            fun k => mem_insert_iff _ _ _ _
          obtain ⟨triples, rfl, hc', hw', hk⟩ := ih hf hmap.2 hnodup' (fun k hk hm => by
              rcases (hmem k).1 hm with rfl | hm
              · exact hh hk
              · exact hfree k (List.mem_cons_of_mem _ hk) hm)
            (hc.insert hh' hnone) (fun k st hst => by
              rcases (getElem?_insert_iff _ _ _ _ _).1 hst with ⟨-, rfl⟩ | ⟨-, hst⟩
              · exact ⟨triplePart_ok hs', triplePart_ok hp, triplePart_ok ho⟩
              · exact hw k st hst)
          refine ⟨triples, rfl, hc', hw', fun k => ?_⟩
          rw [hk, hmem, List.mem_cons]
          exact ⟨fun x => x.elim (fun y => .inl (.inr y)) fun y => y.elim (fun z => .inl (.inl z)) .inr,
            fun x => x.elim (fun y => y.elim (fun z => .inr (.inl z)) .inl) fun y => .inr (.inr y)⟩
        · cases h₁
        · cases h₁
      · cases h₁

/-! ## Filling in cells -/

/-- An environment with everything in place but the cells that are pending. -/
structure Filling (l : Locale) (ps : Pending) : Prop where
  self : selfHandle ∈ l.env.nodes.cells
  bounds : ∀ h ∈ l.env.nodes.cells, 0 ≤ h ∧ h < l.env.nodes.next
  named : l.env.nodes.Named
  imports : ∀ (t : Node) (h : Int), l.env.nodes.imports[t]? = some h ↔
    l.env.nodes.cells[h]? = some (.proxy t) ∨ (h, .proxy t) ∈ ps
  abroad : ∀ (h : Int) (t : Node), l.env.nodes.cells[h]? = some (.proxy t) ∨ (h, .proxy t) ∈ ps →
    t.env ≠ l.env.id
  triples : l.env.triples.Coherent
  statements : ∀ h, h ∈ l.env.triples.statements ↔ l.env.nodes.cells[h]? = some .triple
  keys : (ps.map (·.1)).Nodup
  waiting : ∀ h c, (h, c) ∈ ps → l.env.nodes.cells[h]? = some (.plain none) ∧ c ≠ .triple
  filed : l.Filed l.env.Mentions
  whole : l.env.Whole
  /-- What is mentioned of this environment is live. -/
  known : ∀ h t, l.env.Mentions h t → t.env = l.env.id → t.id ∈ l.env.nodes.cells
  /-- Triples have no names. -/
  unnamed : ∀ h : Int, l.env.nodes.cells[h]? = some .triple → l.env.nodes.nameOf[h]? = none

theorem fill_filling {l l' : Locale} {h : Int} {c : Cell} {ps : Pending}
    (hl : Filling l ((h, c) :: ps)) (hf : fill l (h, c) = .ok l') :
    Filling l' ps ∧ l'.env.id = l.env.id ∧ l'.env.pins = l.env.pins ∧
      l'.env.nodes.next = l.env.nodes.next := by
  unfold fill at hf
  dsimp only at hf
  split at hf
  · cases hf
  next hmissing =>
  cases hf
  obtain ⟨hwait, hct⟩ := hl.waiting h c (List.mem_cons_self ..)
  obtain ⟨hkey, hkeys⟩ := List.nodup_cons.1 hl.keys
  obtain ⟨hr, hfiled⟩ := Locale.hold_filed hl.filed h c
  have hother : ∀ d, (h, d) ∉ ps := fun d hd => hkey (List.mem_map.2 ⟨(h, d), hd, rfl⟩)
  generalize l.hold h c = l' at hr hfiled
  have hcells : ∀ (k : Int) (d : Cell), l'.env.nodes.cells[k]? = some d ↔
      (k = h ∧ d = c) ∨ (k ≠ h ∧ l.env.nodes.cells[k]? = some d) := by
    intro k d
    rw [hr.cells_eq]
    exact getElem?_insert_iff _ _ _ _ _
  have hmem : ∀ k, k ∈ l'.env.nodes.cells ↔ k ∈ l.env.nodes.cells := by
    intro k
    rw [hr.cells_eq]
    refine (mem_insert_iff _ _ _ _).trans ⟨?_, .inr⟩
    rintro (rfl | hk)
    · exact mem_of_getElem? hwait
    · exact hk
  have hm : ∀ k n, l'.env.Mentions k n ↔ (l.place h c).env.Mentions k n := fun k n => by
    simp only [Environment.Mentions, hr.cells_eq]
  rw [hr.eq] at hcells hmem hm ⊢
  refine ⟨?_, rfl, rfl, rfl⟩
  constructor
  case self => exact (hmem _).2 hl.self
  case bounds => exact fun k hk => hl.bounds k ((hmem k).1 hk)
  case named => exact ⟨hl.named.inverse, fun k s hk => (hmem k).2 (hl.named.live k s hk)⟩
  case imports =>
    intro t k
    refine (hl.imports t k).trans ?_
    rw [hcells, List.mem_cons]
    constructor
    · rintro (hk | heq | hk)
      · refine .inl (.inr ⟨?_, hk⟩)
        rintro rfl
        rw [hwait] at hk
        cases hk
      · cases heq
        exact .inl (.inl ⟨rfl, rfl⟩)
      · exact .inr hk
    · rintro ((⟨rfl, rfl⟩ | ⟨-, hk⟩) | hk)
      · exact .inr (.inl rfl)
      · exact .inl hk
      · exact .inr (.inr hk)
  case abroad =>
    intro k t hk
    refine hl.abroad k t ?_
    rw [hcells] at hk
    rcases hk with (⟨rfl, rfl⟩ | ⟨-, hk⟩) | hk
    · exact .inr (List.mem_cons_self ..)
    · exact .inl hk
    · exact .inr (List.mem_cons_of_mem _ hk)
  case triples => exact hl.triples
  case statements =>
    intro k
    refine (hl.statements k).trans ?_
    rw [hcells]
    constructor
    · intro hk
      refine .inr ⟨?_, hk⟩
      rintro rfl
      rw [hwait] at hk
      cases hk
    · rintro (⟨-, hc⟩ | ⟨-, hk⟩)
      · exact absurd hc.symm hct
      · exact hk
  case keys => exact hkeys
  case waiting =>
    intro k d hd
    obtain ⟨hk, hdt⟩ := hl.waiting k d (List.mem_cons_of_mem _ hd)
    refine ⟨(hcells _ _).2 (.inr ⟨?_, hk⟩), hdt⟩
    rintro rfl
    exact hother d hd
  case filed => exact Locale.Filed.congr (hr.eq ▸ hfiled) hm
  case whole =>
    intro k st hst
    obtain ⟨hs, hp, ho⟩ := hl.whole k st hst
    exact ⟨(hmem _).2 hs, (hmem _).2 hp, (hmem _).2 ho⟩
  case known =>
    intro k t hk ht
    refine (hmem _).2 ?_
    rcases (Locale.mentions_insert_iff l.env h k c t).1 ((hm k t).1 hk) with ⟨-, hn⟩ | ⟨-, hk⟩
    · -- this is what filling in the cell has checked
      have := List.find?_eq_none.1 hmissing t hn
      have ht : t.env = l.env.id := ht
      simpa [ht, ExtTreeMap.contains_iff_mem] using this
    · exact hl.known k t hk ht
  case unnamed =>
    intro k hk
    refine hl.unnamed k ?_
    rcases (hcells _ _).1 hk with ⟨-, hc⟩ | ⟨-, hk⟩
    · exact absurd hc.symm hct
    · exact hk

theorem fillAll_filling (ps : Pending) : ∀ {l l' : Locale}, Filling l ps → ps.foldlM fill l = .ok l' →
    Filling l' [] ∧ l'.env.id = l.env.id ∧ l'.env.pins = l.env.pins ∧
      l'.env.nodes.next = l.env.nodes.next := by
  induction ps with
  | nil =>
    intro l l' hl hf
    cases hf
    exact ⟨hl, rfl, rfl, rfl⟩
  | cons entry ps ih =>
    intro l l' hl hf
    rw [List.foldlM_cons, except_bind_ok] at hf
    obtain ⟨l₁, h₁, hf⟩ := hf
    obtain ⟨hl₁, hid, hpins, hnext⟩ := fill_filling hl h₁
    obtain ⟨hl', hid', hpins', hnext'⟩ := ih hl₁ hf
    exact ⟨hl', hid'.trans hid, hpins'.trans hpins, hnext'.trans hnext⟩

/-! ## What is rebuilt -/

/-- An environment that is coherent and closed as far as that can be told without the others. -/
structure Standalone (e : Environment) : Prop where
  tabled : e.Tabled
  referrers_tight : e.nodes.referrers.Tight
  referrers : ∀ k h, h ∈ e.nodes.referrers.bucket k ↔ e.Mentions h ⟨e.id, k⟩
  whole : e.Whole
  known : ∀ h t, e.Mentions h t → t.env = e.id → t.id ∈ e.nodes.cells
  unnamed : ∀ h : Int, e.nodes.cells[h]? = some .triple → e.nodes.nameOf[h]? = none
  pins : e.pins = []

/-- When nothing is pending any more, the environment is as it should be. -/
theorem Filling.standalone {l : Locale} (hl : Filling l []) (hpins : l.env.pins = []) : l.env.Standalone where
  tabled :=
    { self := hl.self
      bounds := hl.bounds
      named := hl.named
      imports := fun t h => by simpa using hl.imports t h
      abroad := fun h t hh => hl.abroad h t (.inl hh)
      triples := hl.triples
      statements := hl.statements }
  referrers_tight := hl.filed.referrers_tight
  referrers := hl.filed.within
  whole := hl.whole
  known := hl.known
  unnamed := hl.unnamed
  pins := hpins

/-- The cells of nodes and stand-ins, still empty, and those of triples under handles of their own. -/
structure Reserved (e : Environment) (hs : List Int) (cells : ExtTreeMap Int Cell) : Prop where
  fresh : ∀ h ∈ hs, h ∉ e.nodes.cells ∧ 0 ≤ h ∧ h < e.nodes.next
  cells_iff : ∀ (k : Int) (c : Cell), cells[k]? = some c ↔
    (k ∈ hs ∧ c = .triple) ∨ (k ∉ hs ∧ e.nodes.cells[k]? = some c)

namespace Draft

variable {hs : List Int} {cells : ExtTreeMap Int Cell} (hd : Draft id next e ps) (hr : e.Reserved hs cells)
include hd hr

theorem kept {k : Int} (hk : k ∈ e.nodes.cells) : cells[k]? = some (.plain none) := by
  obtain ⟨c, hc⟩ := (mem_iff_exists_getElem? _ _).1 hk
  obtain rfl := (hd.cells k c hc).1
  exact (hr.cells_iff k _).2 (.inr ⟨fun hm => (hr.fresh k hm).1 hk, hc⟩)

/-- Before cells are filled in, none mentions anything. -/
theorem quiet {k : Int} {c : Cell} (hk : cells[k]? = some c) (n : Node) : n ∉ c.mentions := by
  intro hn
  rcases (hr.cells_iff k c).1 hk with ⟨-, rfl⟩ | ⟨-, hk⟩
  · cases hn
  · obtain rfl := (hd.cells k c hk).1
    cases hn

theorem triple_iff (k : Int) : cells[k]? = some .triple ↔ k ∈ hs := by
  rw [hr.cells_iff]
  constructor
  · rintro (⟨hk, -⟩ | ⟨-, hk⟩)
    · exact hk
    · cases (hd.cells k _ hk).1
  · exact fun hk => .inl ⟨hk, rfl⟩

/-- With the triples stored, only the pending cells are missing. -/
theorem filling {store : TripleStore} (hstore : store.Coherent)
    (hwhole : ({ e with nodes.cells := cells, triples := store } : Environment).Whole)
    (hkeys : ∀ k, k ∈ store.statements ↔ k ∈ hs) (hself : selfHandle ∈ cells) :
    Filling ⟨{ e with nodes.cells := cells, triples := store }, ∅⟩ ps := by
  have hsilent : ∀ (h : Int) (t : Node),
      ¬({ e with nodes.cells := cells, triples := store } : Environment).Mentions h t := by
    rintro h t ⟨c, hc, hn⟩
    exact hd.quiet hr hc t hn
  have hproxy : ∀ (h : Int) (t : Node), cells[h]? ≠ some (.proxy t) := by
    intro h t hh
    exact hd.quiet hr hh t (List.mem_singleton_self t)
  constructor
  case self => exact hself
  case bounds =>
    intro h hh
    obtain ⟨c, hc⟩ := (mem_iff_exists_getElem? _ _).1 hh
    rcases (hr.cells_iff h c).1 hc with ⟨hm, -⟩ | ⟨-, hc⟩
    · exact (hr.fresh h hm).2
    · have hbounds := (hd.cells h c hc).2
      rwa [← hd.next_eq] at hbounds
  case named => exact ⟨hd.named.inverse, fun k s hk => mem_of_getElem? (hd.kept hr (hd.named.live k s hk))⟩
  case imports => exact fun t h => (hd.imports t h).trans (or_iff_right (hproxy h t)).symm
  case abroad =>
    intro h t hh
    have hid : e.id = id := hd.id_eq
    rw [hid]
    exact hd.abroad h t (hh.resolve_left (hproxy h t))
  case triples => exact hstore
  case statements => exact fun h => (hkeys h).trans (hd.triple_iff hr h).symm
  case keys => exact hd.keys
  case waiting => exact fun h c hc => ⟨hd.kept hr (hd.live h c hc).1, (hd.live h c hc).2⟩
  case filed =>
    refine ⟨?_, .empty, fun k h => ?_, fun t h => ?_⟩
    · change e.nodes.referrers.Tight
      rw [hd.referrers]
      exact .empty
    · change h ∈ e.nodes.referrers.bucket k ↔ _
      rw [hd.referrers]
      exact iff_of_false (fun hh => by simp [Index.mem_bucket] at hh) (hsilent h _)
    · exact iff_of_false (fun hh => by simp [Index.mem_bucket] at hh) fun hh => hsilent h t hh.2
  case whole => exact hwhole
  case known => exact fun h t hm => absurd hm (hsilent h t)
  case unnamed =>
    intro h hh
    refine Option.eq_none_iff_forall_ne_some.2 fun s hs => ?_
    exact (hr.fresh h ((hd.triple_iff hr h).1 hh)).1 (hd.named.live h s hs)

end Draft

theorem fromRows_standalone {nodes imports triples : List Plain}
    (hr : fromRows id next nodes imports triples = .ok e) :
    e.Standalone ∧ e.id = id ∧ e.nodes.next = next := by
  unfold fromRows at hr
  dsimp only at hr
  rw [except_bind_ok] at hr
  obtain ⟨⟨e₁, ps₁⟩, h₁, hr⟩ := hr
  have hd₁ : Draft id next e₁ ps₁ := foldlM_keeps (I := fun sofar => Draft id next sofar.1 sofar.2)
    (fun _ _ _ hd hr => readNode_draft hd hr) nodes (draft_start id next) h₁
  rw [except_bind_ok] at hr
  obtain ⟨⟨e₂, ps⟩, h₂, hr⟩ := hr
  have hd : Draft id next e₂ ps := foldlM_keeps (I := fun sofar => Draft id next sofar.1 sofar.2)
    (fun _ _ _ hd hr => readImport_draft hd hr) imports hd₁ h₂
  rw [except_bind_ok] at hr
  obtain ⟨e₃, h₃, hr⟩ := hr
  obtain ⟨hs, hmap, hnodup, hfresh, cells, rfl, hcells⟩ := reserveTriples_ok triples h₃
  have hreserved : e₂.Reserved hs cells := ⟨hfresh, hcells⟩
  rw [except_bind_ok] at hr
  obtain ⟨e₄, h₄, hr⟩ := hr
  have hempty : ∀ k, k ∉ e₂.triples.statements := fun k => by rw [hd.triples]; simp [TripleStore.empty]
  obtain ⟨store, rfl, hstore, hwhole, hkeys⟩ := readTriples_ok triples h₄ hmap hnodup
    (fun h _ => hempty h) (by rw [hd.triples]; exact TripleStore.coherent_empty)
    (fun k st hst => absurd (mem_of_getElem? hst) (hempty k))
  split at hr
  · cases hr
  next hself =>
  rw [except_bind_ok] at hr
  obtain ⟨l, h₅, hr⟩ := hr
  cases hr
  have hfilling := hd.filling hreserved hstore hwhole (fun k => (hkeys k).trans (or_iff_left (hempty k)))
    (Decidable.not_not.1 hself)
  obtain ⟨hl, hid, hpins, hnext⟩ := fillAll_filling ps hfilling h₅
  exact ⟨hl.standalone (hpins.trans hd.pins), hid.trans hd.id_eq, hnext.trans hd.next_eq⟩

/-- A check that was passed. -/
theorem passed {α : Type} {failed : Prop} [Decidable failed] {damage : Damage} {f : Unit → Except Fault α}
    {x : Except Fault α} {a : α} (h : (if failed then damaged damage >>= f else x) = .ok a) : x = .ok a := by
  split at h
  · cases h
  · exact h

/-- The environment of a record is rebuilt from rows. -/
theorem fromRecord_rows {found : Plain} (hr : fromRecord found = .ok e) :
    ∃ id next nodes imports triples, fromRows id next nodes imports triples = .ok e := by
  unfold fromRecord at hr
  split at hr
  · have hr := passed (passed hr)
    split at hr
    · split at hr
      · simp only [except_bind_ok] at hr
        obtain ⟨nodes, -, imports, -, triples, -, hr⟩ := hr
        split at hr
        · exact ⟨_, _, _, _, _, hr⟩
        · cases hr
      · cases hr
    · cases hr
  · cases hr

/-- What is rebuilt from a record is coherent, and closed as far as that can be told. -/
theorem fromRecord_standalone {found : Plain} (hr : fromRecord found = .ok e) : e.Standalone := by
  obtain ⟨_, _, _, _, _, hr⟩ := fromRecord_rows hr
  exact (fromRows_standalone hr).1

end Environment

end GraphLisp
