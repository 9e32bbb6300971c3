import Mathlib.Data.List.Forall2
import GraphLisp.Proofs.Environment.Flattened
import GraphLisp.Proofs.Payload
/-!
# Records read back

The record of an environment that is coherent on its own is read back as the flattened environment
(`fromRecord_toRecord`). The rows are read in the order of their sections, and `Reread` says what is
there after some of them: their handles and names, and their cells as far as they are waiting to be
filled in.
-/

namespace GraphLisp

open Std

/-! ## Lists side by side -/

theorem exists_forall₂ {α β : Type} {R : α → β → Prop} {xs : List α} (h : ∀ x ∈ xs, ∃ y, R x y) :
    ∃ ys, List.Forall₂ R xs ys := by
  induction xs with
  | nil => exact ⟨[], .nil⟩
  | cons x xs ih =>
    obtain ⟨y, hy⟩ := h x (.head _)
    obtain ⟨ys, hys⟩ := ih fun z hz => h z (.tail _ hz)
    exact ⟨y :: ys, .cons hy hys⟩

theorem forall₂_mem_right {α β : Type} {R : α → β → Prop} {xs : List α} {ys : List β} (h : List.Forall₂ R xs ys) :
    ∀ y ∈ ys, ∃ x ∈ xs, R x y := by
  induction h with
  | nil => exact fun y hy => absurd hy List.not_mem_nil
  | cons hxy _ ih =>
    refine List.forall_mem_cons.2 ⟨⟨_, .head _, hxy⟩, fun y hy => ?_⟩
    obtain ⟨x, hx, hR⟩ := ih y hy
    exact ⟨x, .tail _ hx, hR⟩

theorem forall₂_mem_left {α β : Type} {R : α → β → Prop} {xs : List α} {ys : List β} (h : List.Forall₂ R xs ys) :
    ∀ x ∈ xs, ∃ y ∈ ys, R x y := forall₂_mem_right h.flip

theorem mapM_ok {ε α β : Type} {f : α → Except ε β} {xs : List α} {ys : List β}
    (h : xs.mapM f = .ok ys) : List.Forall₂ (fun x y => f x = .ok y) xs ys := by
  induction xs generalizing ys with
  | nil =>
    cases h
    exact .nil
  | cons x xs ih =>
    rw [List.mapM_cons] at h
    simp only [except_bind_ok] at h
    obtain ⟨y, hy, ys, hys, h⟩ := h
    cases h
    exact .cons hy (ih hys)

namespace Environment

/-! ## Sections -/

/-- The cells of one sort, in the order of their handles. -/
def cellsOf (e : Environment) (word : String) : List (Int × Cell) :=
  e.nodes.cells.toList.filter fun x => x.2.word == word

/-- The row of a cell. -/
def IsRow (e : Environment) (x : Int × Cell) (row : Plain) : Prop := e.cellRow x.1 x.2 = .ok row

theorem section_rows {e : Environment} {xs : List (Int × Cell)} {rows : List (Cell × Plain)}
    (h : List.Forall₂ (fun x r => r.1 = x.2 ∧ e.IsRow x r.2) xs rows) {word : String}
    {pick : Cell × Plain → Option Plain}
    (hpick : ∀ r, pick r = if r.1.word == word then some r.2 else none) :
    List.Forall₂ e.IsRow (xs.filter fun x => x.2.word == word) (rows.filterMap pick) := by
  induction h with
  | nil => exact .nil
  | @cons x r xs rows hx _ ih =>
    rw [List.filter_cons, List.filterMap_cons, hpick, hx.1]
    split
    · exact .cons hx.2 ih
    · exact ih

/-- A record has the rows of the cells, sort by sort. -/
theorem toRecord_sections {e : Environment} {p : Plain} (h : e.toRecord = .ok p) :
    ∃ nodes imports triples,
      p = .object [("format", .text recordFormat), ("version", .int recordVersion), ("id", .int e.id),
        ("next", .int e.nodes.next), ("nodes", .list nodes), ("imports", .list imports),
        ("triples", .list triples)] ∧
      List.Forall₂ e.IsRow (e.cellsOf "node") nodes ∧
      List.Forall₂ e.IsRow (e.cellsOf "import") imports ∧
      List.Forall₂ e.IsRow (e.cellsOf "triple") triples := by
  unfold toRecord at h
  rw [except_bind_ok] at h
  obtain ⟨rows, hrows, h⟩ := h
  cases h
  have hrows : List.Forall₂ (fun x (r : Cell × Plain) => r.1 = x.2 ∧ e.IsRow x r.2)
      e.nodes.cells.toList rows := by
    refine (mapM_ok hrows).imp fun x r hr => ?_
    simp only [except_bind_ok] at hr
    obtain ⟨row, hrow, hr⟩ := hr
    cases hr
    exact ⟨rfl, hrow⟩
  refine ⟨_, _, _, rfl, section_rows hrows fun r => ?_, section_rows hrows fun r => ?_,
    section_rows hrows fun r => ?_⟩ <;> obtain ⟨c, row⟩ := r <;> cases c <;> rfl

theorem rows_list {entries : List (Plain × Plain)} {key : String} (items : List Plain)
    (h : Plain.find? entries key = some (.list items)) : rows entries key = .ok items := by
  unfold rows
  rw [h]
  cases items <;> rfl

theorem fromRecord_sections (id next : Int) (nodes imports triples : List Plain) :
    fromRecord (.object [("format", .text recordFormat), ("version", .int recordVersion),
      ("id", .int id), ("next", .int next), ("nodes", .list nodes), ("imports", .list imports),
      ("triples", .list triples)]) = fromRows id next nodes imports triples := by
  have hstep : fromRecord (.object [("format", .text recordFormat), ("version", .int recordVersion),
      ("id", .int id), ("next", .int next), ("nodes", .list nodes), ("imports", .list imports),
      ("triples", .list triples)]) = (do
        let entries : List (Plain × Plain) := [(.text "format", .text recordFormat),
          (.text "version", .int recordVersion), (.text "id", .int id), (.text "next", .int next),
          (.text "nodes", .list nodes), (.text "imports", .list imports), (.text "triples", .list triples)]
        let nodes ← rows entries "nodes"
        let imports ← rows entries "imports"
        let triples ← rows entries "triples"
        fromRows id next nodes imports triples) := rfl
  rw [hstep]
  dsimp only
  rw [rows_list nodes rfl, rows_list imports rfl, rows_list triples rfl]
  rfl

/-- Rows read one after the other, each for a handle that was not read before. -/
theorem foldlM_rows {e : Environment} {β : Type} {f : β → Plain → Except Fault β}
    {I : List (Int × Cell) → β → Prop} {xs : List (Int × Cell)} {rows : List Plain}
    (hrows : List.Forall₂ e.IsRow xs rows)
    (step : ∀ done x row b, x ∈ xs → (∀ c, (x.1, c) ∉ done) → e.IsRow x row → I done b →
      ∃ b', f b row = .ok b' ∧ I (x :: done) b')
    {d : List (Int × Cell)} {b : β} (hnew : ∀ x ∈ xs, ∀ c, (x.1, c) ∉ d)
    (hnodup : (xs.map (·.1)).Nodup) (hb : I d b) :
    ∃ b', rows.foldlM f b = .ok b' ∧ I (xs.reverse ++ d) b' := by
  induction hrows generalizing d b with
  | nil => exact ⟨b, rfl, hb⟩
  | @cons x row xs rows hx _ ih =>
    obtain ⟨hxs, hnodup⟩ := List.nodup_cons.1 hnodup
    obtain ⟨b₁, h₁, hb₁⟩ := step d x row b (.head _) (hnew x (.head _)) hx hb
    have hnew' : ∀ y ∈ xs, ∀ c, (y.1, c) ∉ x :: d := by
      intro y hy c hc
      rcases List.mem_cons.1 hc with rfl | hc
      · exact hxs (List.mem_map.2 ⟨y, hy, rfl⟩)
      · exact hnew y (.tail _ hy) c hc
    obtain ⟨b', h', hb'⟩ := ih (fun done x row b hx => step done x row b (.tail _ hx)) hnew' hnodup hb₁
    refine ⟨b', ?_, ?_⟩
    · rw [List.foldlM_cons, h₁]
      exact h'
    · rwa [List.reverse_cons, List.append_assoc]

theorem exists_mem_cons {k h : Int} {c : Cell} {done : List (Int × Cell)} :
    (∃ d, (k, d) ∈ (h, c) :: done) ↔ k = h ∨ ∃ d, (k, d) ∈ done := by
  simp only [List.mem_cons, Prod.mk.injEq, exists_or, exists_and_left, exists_eq, and_true]

/-! ## Nodes and imports -/

/-- What is there after some rows of nodes and imports were read again. -/
structure Reread (e : Environment) (done : List (Int × Cell)) (sofar : Environment × Pending) : Prop where
  draft : Draft e.id e.nodes.next sofar.1 sofar.2
  cells : ∀ h, h ∈ sofar.1.nodes.cells ↔ ∃ c, (h, c) ∈ done
  nameOf : ∀ (h : Int) (s : String), sofar.1.nodes.nameOf[h]? = some s ↔
    (∃ c, (h, c) ∈ done) ∧ e.nodes.nameOf[h]? = some s
  pending : ∀ h c, (h, c) ∈ sofar.2 ↔ c ≠ .plain none ∧ ∃ c₀, (h, c₀) ∈ done ∧ c = c₀.flattened

section
variable {e : Environment} {done : List (Int × Cell)} {e₁ : Environment} {ps : Pending}

theorem reserve_free (e₁ : Environment) (row : List (Plain × Plain)) {h : Int} (hrow : field row "id" = .int h) (h0 : 0 ≤ h)
    (hn : h < e₁.nodes.next) (hfree : h ∉ e₁.nodes.cells) (c : Cell) :
    e₁.reserve row c = .ok (h, { e₁ with nodes.cells := e₁.nodes.cells.insert h c }) := by
  unfold reserve
  rw [hrow]
  dsimp only
  rw [if_neg (by omega), if_neg hfree]

/-- A handle gets the name again that it had. -/
theorem nameRow_entry (e₁ : Environment) (row : List (Plain × Plain)) {h : Int} (hrow : field row "name" = e.nameEntry h)
    (hn : e₁.nodes.Named) (hh : h ∈ e₁.nodes.cells) (hnone : e₁.nodes.nameOf[h]? = none)
    (hfree : ∀ s, e.nodes.nameOf[h]? = some s → e₁.nodes.names[s]? = none) :
    ∃ names nameOf, e₁.nameRow h row = .ok { e₁ with nodes := { e₁.nodes with names, nameOf } } ∧
      ∀ (k : Int) (s : String), nameOf[k]? = some s ↔
        (k = h ∧ e.nodes.nameOf[h]? = some s) ∨ (k ≠ h ∧ e₁.nodes.nameOf[k]? = some s) := by
  unfold nameRow
  rw [hrow]
  unfold nameEntry
  cases hname : e.nodes.nameOf[h]? with
  | none =>
    refine ⟨e₁.nodes.names, e₁.nodes.nameOf, rfl, fun k s => ?_⟩
    simp only [reduceCtorEq, and_false, false_or, iff_and_self]
    rintro hk rfl
    rw [hnone] at hk
    cases hk
  | some s =>
    obtain ⟨names, hb, -⟩ := NodeTable.bindName_ok hn hh (.inl (hfree s hname))
    refine ⟨names, e₁.nodes.nameOf.insert h s, ?_, fun k t => ?_⟩
    · simp only [Option.map_some, Option.getD_some, hb]
    · rw [getElem?_insert_iff, Option.some.injEq, eq_comm (a := t)]

/-- A name that is still to be given is free. -/
theorem Reread.free (hr : e.Reread done (e₁, ps)) (he : e.Tabled) {h : Int} (hnew : ∀ c, (h, c) ∉ done)
    (s : String) (hs : e.nodes.nameOf[h]? = some s) : e₁.nodes.names[s]? = none := by
  refine Option.eq_none_iff_forall_ne_some.2 fun k hk => ?_
  obtain ⟨⟨c, hc⟩, hks⟩ := (hr.nameOf k s).1 ((hr.draft.named.inverse s k).1 hk)
  have hkh := ((he.named.inverse s k).2 hks).symm.trans ((he.named.inverse s h).2 hs)
  cases hkh
  exact hnew c hc

theorem isRow_plain {h : Int} {o : Option Structure} {row : Plain} (hrow : e.IsRow (h, .plain o) row) :
    row = e.nodeRow h (o.map Structure.encode) ∧ ∀ s, o = some s → s.isWhole = true := by
  unfold IsRow at hrow
  cases o with
  | none =>
    cases hrow
    exact ⟨rfl, nofun⟩
  | some s =>
    unfold cellRow at hrow
    rw [except_bind_ok] at hrow
    obtain ⟨payload, hpayload, hrow⟩ := hrow
    cases hrow
    unfold Structure.payload at hpayload
    split at hpayload
    · next hs =>
      cases hpayload
      exact ⟨rfl, fun t ht => Option.some.inj ht ▸ hs⟩
    · cases hpayload

/-- The entries of the row of a node. -/
def nodeEntries (e : Environment) (h : Int) (o : Option Structure) : List (Plain × Plain) :=
  [(.text "id", .int h), (.text "name", e.nameEntry h),
    (.text "structure", (o.map Structure.encode).getD .null)]

/-- The cell that is left for later when the row of a node is read, if it holds anything. -/
def pendingNode (h : Int) (o : Option Structure) : Pending :=
  (o.map fun s => (h, Cell.plain (some s.flattened))).toList

/-- The row of a node is read once its handle is reserved and named. -/
theorem readNode_entries (ps : Pending) {h : Int} {o : Option Structure} (hwhole : ∀ s, o = some s → s.isWhole = true)
    {e₂ e₃ : Environment} (hreserve : e₁.reserve (e.nodeEntries h o) (.plain none) = .ok (h, e₂))
    (hname : e₂.nameRow h (e.nodeEntries h o) = .ok e₃) :
    readNode (e₁, ps) (e.nodeRow h (o.map Structure.encode)) = .ok (e₃, ps ++ pendingNode h o) := by
  have hopened : (e.nodeRow h (o.map Structure.encode)).opened = .map (e.nodeEntries h o) := rfl
  have hfield : field (e.nodeEntries h o) "structure" = (o.map Structure.encode).getD .null := rfl
  unfold readNode
  rw [hopened]
  dsimp only
  rw [hreserve]
  dsimp only [bind, Except.bind]
  rw [hname, hfield]
  cases o with
  | none => simp [pendingNode, pure, Except.pure]
  | some s =>
    have hdecode := Plain.decode_encode (hwhole s rfl)
    simp only [Option.map_some, Option.getD_some]
    split
    · next hnull => exact absurd hnull (Plain.encode_ne_null (hwhole s rfl))
    · rw [hdecode]
      rfl

theorem mem_pendingNode (h k : Int) (o : Option Structure) (c : Cell) :
    (k, c) ∈ pendingNode h o ↔ k = h ∧ c ≠ .plain none ∧ c = (Cell.plain o).flattened := by
  cases o with
  | none => simp [pendingNode, Cell.flattened]
  | some s => simp +contextual [pendingNode, Cell.flattened]

/-- What is there after another row, given what is reserved and named by it and left for later. -/
theorem Reread.next {h : Int} {c : Cell} {sofar : Environment × Pending} {later : Pending}
    (hr : e.Reread done (e₁, ps)) (hnew : ∀ c, (h, c) ∉ done)
    (hdraft : Draft e.id e.nodes.next sofar.1 sofar.2)
    (hcells : ∀ k, k ∈ sofar.1.nodes.cells ↔ k = h ∨ k ∈ e₁.nodes.cells)
    (hnames : ∀ (k : Int) (s : String), sofar.1.nodes.nameOf[k]? = some s ↔
      (k = h ∧ e.nodes.nameOf[h]? = some s) ∨ (k ≠ h ∧ e₁.nodes.nameOf[k]? = some s))
    (hpending : sofar.2 = ps ++ later)
    (hlater : ∀ k d, (k, d) ∈ later ↔ k = h ∧ d ≠ .plain none ∧ d = c.flattened) :
    e.Reread ((h, c) :: done) sofar where
  draft := hdraft
  cells k := by
    rw [hcells, hr.cells, exists_mem_cons]
  nameOf k s := by
    rw [hnames, hr.nameOf, exists_mem_cons]
    constructor
    · rintro (⟨rfl, hs⟩ | ⟨-, hd, hs⟩)
      · exact ⟨.inl rfl, hs⟩
      · exact ⟨.inr hd, hs⟩
    · rintro ⟨rfl | hd, hs⟩
      · exact .inl ⟨rfl, hs⟩
      · exact .inr ⟨fun hk => have ⟨d, hd⟩ := hd; hnew d (hk ▸ hd), hd, hs⟩
  pending k d := by
    rw [hpending, List.mem_append, hr.pending, hlater]
    constructor
    · rintro (⟨hne, c₀, hc₀, rfl⟩ | ⟨rfl, hne, rfl⟩)
      · exact ⟨hne, c₀, .tail _ hc₀, rfl⟩
      · exact ⟨hne, c, .head _, rfl⟩
    · rintro ⟨hne, c₀, hc₀, rfl⟩
      rcases List.mem_cons.1 hc₀ with heq | hc₀
      · cases heq
        exact .inr ⟨rfl, hne, rfl⟩
      · exact .inl ⟨hne, c₀, hc₀, rfl⟩

theorem readNode_row (he : e.Tabled) {h : Int} {o : Option Structure} {row : Plain}
    (hcell : e.nodes.cells[h]? = some (.plain o)) (hrow : e.IsRow (h, .plain o) row)
    (hnew : ∀ c, (h, c) ∉ done) (hr : e.Reread done (e₁, ps)) :
    ∃ b, readNode (e₁, ps) row = .ok b ∧ e.Reread ((h, .plain o) :: done) b := by
  obtain ⟨rfl, hwhole⟩ := isRow_plain hrow
  obtain ⟨h0, hn⟩ := he.bounds h (mem_of_getElem? hcell)
  have hfree : h ∉ e₁.nodes.cells := fun hh => have ⟨c, hc⟩ := (hr.cells h).1 hh; hnew c hc
  have hreserve := reserve_free e₁ (e.nodeEntries h o) rfl h0 (hr.draft.next_eq ▸ hn) hfree (.plain none)
  have hnone : e₁.nodes.nameOf[h]? = none := by
    refine Option.eq_none_iff_forall_ne_some.2 fun s hs => ?_
    obtain ⟨⟨c, hc⟩, -⟩ := (hr.nameOf h s).1 hs
    exact hnew c hc
  obtain ⟨names, nameOf, hname, hnames⟩ := nameRow_entry
    { e₁ with nodes.cells := e₁.nodes.cells.insert h (.plain none) } (e.nodeEntries h o) rfl
    (hr.draft.reserve h0 hn).named ((mem_insert_iff _ _ _ _).2 (.inl rfl)) hnone (hr.free he hnew)
  have hread := readNode_entries ps hwhole hreserve hname
  exact ⟨_, hread, hr.next hnew (readNode_draft hr.draft hread) (fun k => mem_insert_iff _ _ _ _) hnames rfl
    fun k d => mem_pendingNode h k o d⟩

/-- The entries of the row of an import. -/
def importEntries (e : Environment) (h : Int) (t : Node) : List (Plain × Plain) :=
  [(.text "id", .int h), (.text "name", e.nameEntry h), (.text "node", .list [.int t.env, .int t.id])]

/-- The row of an import is read once its handle is reserved and named. -/
theorem readImport_entries (ps : Pending) {h : Int} {t : Node} {e₂ e₃ : Environment}
    (hreserve : e₁.reserve (e.importEntries h t) (.plain none) = .ok (h, e₂))
    (ht : ¬(t.env = e₂.id ∨ t ∈ e₂.nodes.imports))
    (hname : { e₂ with nodes.imports := e₂.nodes.imports.insert t h }.nameRow h (e.importEntries h t) =
      .ok e₃) :
    readImport (e₁, ps) (e.importRow h t) = .ok (e₃, ps ++ [(h, .proxy t)]) := by
  have hopened : (e.importRow h t).opened = .map (e.importEntries h t) := rfl
  have hfield : field (e.importEntries h t) "node" = .list [.int t.env, .int t.id] := rfl
  unfold readImport
  rw [hopened]
  dsimp only
  rw [hreserve]
  dsimp only [bind, Except.bind]
  rw [hfield]
  dsimp only
  rw [if_neg ht, hname]
  rfl

theorem readImport_row (he : e.Tabled) {h : Int} {t : Node} {row : Plain}
    (hcell : e.nodes.cells[h]? = some (.proxy t)) (hrow : e.IsRow (h, .proxy t) row)
    (hdone : ∀ x ∈ done, e.nodes.cells[x.1]? = some x.2) (hnew : ∀ c, (h, c) ∉ done)
    (hr : e.Reread done (e₁, ps)) :
    ∃ b, readImport (e₁, ps) row = .ok b ∧ e.Reread ((h, .proxy t) :: done) b := by
  cases hrow
  obtain ⟨h0, hn⟩ := he.bounds h (mem_of_getElem? hcell)
  have hfree : h ∉ e₁.nodes.cells := fun hh => have ⟨c, hc⟩ := (hr.cells h).1 hh; hnew c hc
  have hreserve := reserve_free e₁ (e.importEntries h t) rfl h0 (hr.draft.next_eq ▸ hn) hfree (.plain none)
  have habroad : t.env ≠ e.id := he.abroad h t hcell
  -- a node that has a stand-in already would have two of them
  have himport : t ∉ e₁.nodes.imports := by
    intro ht
    obtain ⟨k, hk⟩ := (mem_iff_exists_getElem? _ _).1 ht
    obtain ⟨-, c, hc, hproxy⟩ := (hr.pending k (.proxy t)).1 ((hr.draft.imports t k).1 hk)
    rw [eq_comm, Cell.flattened_eq_proxy_iff] at hproxy
    have hkt := (he.imports t k).2 (hproxy ▸ hdone (k, c) hc)
    cases ((he.imports t h).2 hcell).symm.trans hkt
    exact hnew c hc
  have ht : ¬(t.env = e₁.id ∨ t ∈ e₁.nodes.imports) := by
    rw [hr.draft.id_eq]
    exact fun x => x.elim habroad himport
  have hdraft := hr.draft.reserve h0 hn
  have hnone : e₁.nodes.nameOf[h]? = none := by
    refine Option.eq_none_iff_forall_ne_some.2 fun s hs => ?_
    obtain ⟨⟨c, hc⟩, -⟩ := (hr.nameOf h s).1 hs
    exact hnew c hc
  obtain ⟨names, nameOf, hname, hnames⟩ := nameRow_entry
    { e₁ with
      nodes.cells := e₁.nodes.cells.insert h (.plain none)
      nodes.imports := e₁.nodes.imports.insert t h } (e.importEntries h t) rfl
    ⟨hdraft.named.inverse, hdraft.named.live⟩ ((mem_insert_iff _ _ _ _).2 (.inl rfl)) hnone (hr.free he hnew)
  have hread := readImport_entries ps hreserve ht hname
  refine ⟨_, hread, hr.next hnew (readImport_draft hr.draft hread) (fun k => mem_insert_iff _ _ _ _) hnames rfl
    fun k d => ?_⟩
  rw [List.mem_singleton, Prod.mk.injEq]
  refine and_congr_right fun _ => ⟨?_, And.right⟩
  rintro rfl
  exact ⟨nofun, rfl⟩

end

theorem mem_cellsOf {e : Environment} {word : String} (x : Int × Cell) :
    x ∈ e.cellsOf word ↔ e.nodes.cells[x.1]? = some x.2 ∧ x.2.word = word := by
  obtain ⟨h, c⟩ := x
  rw [cellsOf, List.mem_filter, ExtTreeMap.mem_toList_iff_getElem?_eq_some, beq_iff_eq]

theorem nodup_cellsOf (e : Environment) (word : String) : ((e.cellsOf word).map (·.1)).Nodup := by
  refine List.pairwise_map.2 ((ExtTreeMap.distinct_keys_toList.sublist List.filter_sublist).imp ?_)
  rintro a b hne heq
  exact hne (Std.compare_eq_iff_eq.2 heq)

/-- Every handle belongs to a cell of one sort. -/
theorem word_eq {e : Environment} {word word' : String} {h : Int} {c c' : Cell}
    (hx : (h, c) ∈ e.cellsOf word) (hy : (h, c') ∈ e.cellsOf word') : word = word' := by
  obtain ⟨hc, rfl⟩ := (mem_cellsOf _).1 hx
  obtain ⟨hc', rfl⟩ := (mem_cellsOf _).1 hy
  cases hc.symm.trans hc'
  rfl

/-- The rows of nodes and imports are read again. -/
theorem readCells {e : Environment} (he : e.Tabled) {nodes imports : List Plain}
    (hnodes : List.Forall₂ e.IsRow (e.cellsOf "node") nodes)
    (himports : List.Forall₂ e.IsRow (e.cellsOf "import") imports) :
    ∃ b b' done, nodes.foldlM readNode ({ blank e.id with nodes.next := e.nodes.next }, []) = .ok b ∧
      imports.foldlM readImport b = .ok b' ∧ e.Reread done b' ∧
      ∀ x, x ∈ done ↔ e.nodes.cells[x.1]? = some x.2 ∧ x.2 ≠ .triple := by
  have hstart : e.Reread [] ({ blank e.id with nodes.next := e.nodes.next }, []) := by
    refine ⟨draft_start _ _, fun h => ?_, fun h s => ?_, fun h c => ?_⟩ <;>
      simp [blank, NodeTable.empty]
  obtain ⟨b, hb, hread⟩ := foldlM_rows (f := readNode) (I := fun done b => e.Reread done b) hnodes
    (fun done x row b hx hnew hrow hr => by
      obtain ⟨h, c⟩ := x
      obtain ⟨hcell, hword⟩ := (mem_cellsOf _).1 hx
      cases c with
      | plain o => exact readNode_row he hcell hrow hnew hr
      | proxy t => exact absurd hword (by decide : "import" ≠ "node")
      | triple => exact absurd hword (by decide : "triple" ≠ "node"))
    (fun _ _ _ => List.not_mem_nil) (e.nodup_cellsOf "node") hstart
  rw [List.append_nil] at hread
  have hdone : ∀ x ∈ (e.cellsOf "node").reverse, e.nodes.cells[x.1]? = some x.2 := fun x hx =>
    ((mem_cellsOf x).1 (List.mem_reverse.1 hx)).1
  obtain ⟨b', hb', hread', -⟩ := foldlM_rows (f := readImport)
    (I := fun done b => e.Reread done b ∧ ∀ x ∈ done, e.nodes.cells[x.1]? = some x.2) himports
    (fun done x row b hx hnew hrow hr => by
      obtain ⟨h, c⟩ := x
      obtain ⟨hcell, hword⟩ := (mem_cellsOf _).1 hx
      cases c with
      | plain o => exact absurd hword (by decide : "node" ≠ "import")
      | proxy t =>
        obtain ⟨b', hb', hr'⟩ := readImport_row he hcell hrow hr.2 hnew hr.1
        exact ⟨b', hb', hr', List.forall_mem_cons.2 ⟨hcell, hr.2⟩⟩
      | triple => exact absurd hword (by decide : "triple" ≠ "import"))
    (fun x hx c hc => absurd (word_eq hx (List.mem_reverse.1 hc)) (by decide)) (e.nodup_cellsOf "import")
    ⟨hread, hdone⟩
  refine ⟨b, b', _, hb, hb', hread', fun x => ?_⟩
  rw [List.mem_append, List.mem_reverse, List.mem_reverse, mem_cellsOf, mem_cellsOf, ← and_or_left]
  refine and_congr_right fun _ => ?_
  cases x.2 <;> simp [Cell.word]

/-! ## Triples -/

theorem isRow_triple {e : Environment} {h : Int} {row : Plain} (hrow : e.IsRow (h, .triple) row) :
    ∃ st, e.triples.statements[h]? = some st ∧ row = tripleRow h st := by
  unfold IsRow cellRow at hrow
  rw [except_bind_ok] at hrow
  obtain ⟨st, hst, hrow⟩ := hrow
  cases hrow
  unfold statement at hst
  split at hst
  · next heq =>
    cases hst
    exact ⟨st, heq, rfl⟩
  · cases hst

theorem mem_triples {e : Environment} {h : Int} {c : Cell} :
    (h, c) ∈ e.cellsOf "triple" ↔ c = .triple ∧ e.nodes.cells[h]? = some .triple := by
  rw [mem_cellsOf]
  constructor
  · rintro ⟨hc, hword⟩
    cases c with
    | triple => exact ⟨rfl, hc⟩
    | plain o => exact absurd hword (by decide : "node" ≠ "triple")
    | proxy t => exact absurd hword (by decide : "import" ≠ "triple")
  · rintro ⟨rfl, hc⟩
    exact ⟨hc, rfl⟩

/-- The entries of the row of a triple. -/
def tripleEntries (h : Int) (st : Statement) : List (Plain × Plain) :=
  [(.text "id", .int h), (.text "s", .int st.subject), (.text "p", .int st.predicate),
    (.text "o", .int st.object)]

theorem opened_tripleRow (h : Int) (st : Statement) : (tripleRow h st).opened = .map (tripleEntries h st) :=
  rfl

/-- The handles of triples are reserved again. -/
theorem reserveTriples {e e₂ : Environment} (he : e.Tabled) (hnext : e₂.nodes.next = e.nodes.next)
    {triples : List Plain} (hrows : List.Forall₂ e.IsRow (e.cellsOf "triple") triples)
    (hfree : ∀ h : Int, e.nodes.cells[h]? = some .triple → h ∉ e₂.nodes.cells) :
    ∃ cells, triples.foldlM reserveTriple e₂ = .ok { e₂ with nodes.cells := cells } ∧
      ∀ (k : Int) (d : Cell), cells[k]? = some d ↔ (e.nodes.cells[k]? = some .triple ∧ d = .triple) ∨
        (e.nodes.cells[k]? ≠ some .triple ∧ e₂.nodes.cells[k]? = some d) := by
  obtain ⟨e₃, h₃, ⟨cells, rfl, hcells⟩⟩ := foldlM_rows (f := reserveTriple)
    (I := fun done e₃ => ∃ cells, e₃ = { e₂ with nodes.cells := cells } ∧
      ∀ (k : Int) (d : Cell), cells[k]? = some d ↔ ((∃ c, (k, c) ∈ done) ∧ d = .triple) ∨
        ((¬∃ c, (k, c) ∈ done) ∧ e₂.nodes.cells[k]? = some d)) hrows
    (fun done x row e₃ hx hnew hrow ⟨cells, he₃, hcells⟩ => by
      obtain ⟨h, c⟩ := x
      obtain ⟨rfl, hcell⟩ := mem_triples.1 hx
      obtain ⟨st, -, rfl⟩ := isRow_triple hrow
      obtain ⟨h0, hn⟩ := he.bounds h (mem_of_getElem? hcell)
      subst he₃
      have hnot : ¬∃ c, (h, c) ∈ done := fun ⟨c, hc⟩ => hnew c hc
      have hfreed : h ∉ cells := fun hh => by
        obtain ⟨d, hd⟩ := (mem_iff_exists_getElem? _ _).1 hh
        rcases (hcells h d).1 hd with ⟨hdone, -⟩ | ⟨-, hd⟩
        · exact hnot hdone
        · exact hfree h hcell (mem_of_getElem? hd)
      have hreserve := reserve_free { e₂ with nodes.cells := cells } (tripleEntries h st) rfl
        h0 (hnext ▸ hn) hfreed .triple
      refine ⟨{ e₂ with nodes.cells := cells.insert h .triple }, ?_, _, rfl, fun k d => ?_⟩
      · unfold reserveTriple
        rw [opened_tripleRow]
        dsimp only
        rw [hreserve]
        rfl
      · rw [getElem?_insert_iff, hcells, exists_mem_cons]
        by_cases hk : k = h
        · subst hk
          simp [hnot]
        · simp [hk])
    (d := []) (fun _ _ _ => List.not_mem_nil) (e.nodup_cellsOf "triple")
    ⟨e₂.nodes.cells, rfl, fun k d => by simp⟩
  refine ⟨cells, h₃, fun k d => (hcells k d).trans ?_⟩
  simp only [List.append_nil, List.mem_reverse, mem_triples, exists_eq_left, ne_eq]

theorem triplePart_live {e₃ : Environment} (row : List (Plain × Plain)) {key : String} {k : Int}
    (hrow : field row key = .int k) (hk : k ∈ e₃.nodes.cells) : e₃.triplePart row key = .ok k := by
  unfold triplePart
  rw [hrow]
  exact if_pos hk

/-- The row of a triple is read if its parts are live and it says something new. -/
theorem readTriple_row {e₃ : Environment} {h : Int} {st : Statement} (hs : st.subject ∈ e₃.nodes.cells)
    (hp : st.predicate ∈ e₃.nodes.cells) (ho : st.object ∈ e₃.nodes.cells)
    (hnone : e₃.triples.handles[st]? = none) :
    readTriple e₃ (tripleRow h st) = .ok { e₃ with triples := e₃.triples.insert h st } := by
  have hfind : e₃.triples.find? ⟨st.subject, st.predicate, st.object⟩ = none := hnone
  unfold readTriple
  rw [opened_tripleRow]
  dsimp only
  rw [triplePart_live (tripleEntries h st) rfl hs,
    triplePart_live (tripleEntries h st) rfl hp, triplePart_live (tripleEntries h st) rfl ho]
  dsimp only [bind, Except.bind]
  rw [hfind]
  rfl

/-- The statements of triples are stored again. -/
theorem readTriples {e : Environment} (he : e.Standalone) (e₃ : Environment) (hempty : e₃.triples = .empty)
    {triples : List Plain} (hrows : List.Forall₂ e.IsRow (e.cellsOf "triple") triples)
    (hlive : ∀ k ∈ e.nodes.cells, k ∈ e₃.nodes.cells) :
    ∃ store, triples.foldlM readTriple e₃ = .ok { e₃ with triples := store } ∧
      store.statements = e.triples.statements := by
  obtain ⟨e₄, h₄, store, rfl, -, hstatements⟩ := foldlM_rows (f := readTriple)
    (I := fun done e₄ => ∃ store, e₄ = { e₃ with triples := store } ∧ store.Coherent ∧
      ∀ (k : Int) (st : Statement), store.statements[k]? = some st ↔
        (∃ c, (k, c) ∈ done) ∧ e.triples.statements[k]? = some st) hrows
    (fun done x row e₄ hx hnew hrow ⟨store, he₄, hstore, hstatements⟩ => by
      obtain ⟨h, c⟩ := x
      obtain ⟨st, hst, rfl⟩ := isRow_triple ((mem_triples.1 hx).1 ▸ hrow)
      subst he₄
      obtain ⟨hs, hp, ho⟩ := he.whole h st hst
      have hnone : store.handles[st]? = none := by
        refine Option.eq_none_iff_forall_ne_some.2 fun k hk => ?_
        obtain ⟨⟨d, hd⟩, hkst⟩ := (hstatements k st).1 ((hstore.inverse st k).1 hk)
        cases ((he.tabled.triples.inverse st h).2 hst).symm.trans ((he.tabled.triples.inverse st k).2 hkst)
        exact hnew d hd
      have hfree : h ∉ store.statements := fun hh => by
        obtain ⟨st', hst'⟩ := (mem_iff_exists_getElem? _ _).1 hh
        obtain ⟨⟨d, hd⟩, -⟩ := (hstatements h st').1 hst'
        exact hnew d hd
      refine ⟨{ e₃ with triples := store.insert h st }, ?_, _, rfl, hstore.insert hfree hnone, fun k t => ?_⟩
      · exact readTriple_row (hlive _ hs) (hlive _ hp) (hlive _ ho) hnone
      · refine (getElem?_insert_iff _ _ _ _ _).trans ?_
        rw [hstatements, exists_mem_cons]
        constructor
        · rintro (⟨rfl, rfl⟩ | ⟨-, hd, ht⟩)
          · exact ⟨.inl rfl, hst⟩
          · exact ⟨.inr hd, ht⟩
        · rintro ⟨rfl | hd, ht⟩
          · exact .inl ⟨rfl, Option.some.inj (ht.symm.trans hst)⟩
          · exact .inr ⟨fun hk => have ⟨d, hd⟩ := hd; hnew d (hk ▸ hd), hd, ht⟩)
    (d := []) (fun _ _ _ => List.not_mem_nil) (e.nodup_cellsOf "triple")
    ⟨e₃.triples, rfl, hempty ▸ TripleStore.coherent_empty, fun k st => by simp [hempty, TripleStore.empty]⟩
  refine ⟨store, h₄, table_ext fun k st => (hstatements k st).trans ⟨And.right, fun hst => ⟨⟨.triple, ?_⟩, hst⟩⟩⟩
  rw [List.append_nil, List.mem_reverse, mem_triples]
  exact ⟨rfl, (he.tabled.statements k).1 (mem_of_getElem? hst)⟩

/-! ## Cells -/

/-- The cells that wait are filled in, if what they mention of the environment is live. -/
theorem fillAll {ps : Pending} : ∀ {l : Locale}, (ps.map (·.1)).Nodup →
    (∀ h c, (h, c) ∈ ps → ∀ n ∈ c.mentions, n.env = l.env.id → n.id ∈ l.env.nodes.cells) →
    ∃ l', ps.foldlM fill l = .ok l' ∧ l'.env.nodes.nameOf = l.env.nodes.nameOf ∧
      l'.env.triples = l.env.triples ∧
      ∀ (k : Int) (d : Cell), l'.env.nodes.cells[k]? = some d ↔
        (k, d) ∈ ps ∨ ((∀ c, (k, c) ∉ ps) ∧ l.env.nodes.cells[k]? = some d) := by
  induction ps with
  | nil => exact fun _ _ => ⟨_, rfl, rfl, rfl, fun k d => by simp⟩
  | cons entry ps ih =>
    obtain ⟨h, c⟩ := entry
    intro l hnodup hknown
    obtain ⟨hh, hnodup⟩ := List.nodup_cons.1 hnodup
    have hmissing : c.mentions.find? (fun n => n.env == l.env.id && !l.env.nodes.cells.contains n.id) = none := by
      refine List.find?_eq_none.2 fun n hn => ?_
      by_cases hid : n.env = l.env.id
      · simp [ExtTreeMap.contains_iff_mem.2 (hknown h c (.head _) n hn hid)]
      · simp [hid]
    have hfill : fill l (h, c) = .ok (l.hold h c) := by
      unfold fill
      dsimp only
      rw [hmissing]
    have hre := Locale.hold_reindexed l h c
    have hcells : (l.hold h c).env.nodes.cells = l.env.nodes.cells.insert h c := hre.cells_eq
    obtain ⟨l', hl', hnames, htriples, hall⟩ := ih (l := l.hold h c) hnodup fun k d hd n hn hid => by
      rw [hcells]
      refine (mem_insert_iff _ _ _ _).2 (.inr (hknown k d (.tail _ hd) n hn ?_))
      rw [hid, hre.id_eq]
      rfl
    refine ⟨l', ?_, ?_, ?_, fun k d => ?_⟩
    · rw [List.foldlM_cons, hfill]
      exact hl'
    · rw [hnames, hre.eq]
      rfl
    · rw [htriples, hre.eq]
      rfl
    · have hnot : ∀ d, (h, d) ∉ ps := fun d hd => hh (List.mem_map.2 ⟨(h, d), hd, rfl⟩)
      rw [hall, hcells, getElem?_insert_iff]
      by_cases hk : k = h
      · subst hk
        simp [hnot]
      · simp [hk]

/-- The cells are those that were filled in, and the triples. -/
theorem cells_reread {e e₂ e' : Environment} {ps : Pending} {done : List (Int × Cell)}
    {cells : ExtTreeMap Int Cell} (hr : e.Reread done (e₂, ps))
    (hdone : ∀ x, x ∈ done ↔ e.nodes.cells[x.1]? = some x.2 ∧ x.2 ≠ .triple)
    (hcells : ∀ (k : Int) (d : Cell), cells[k]? = some d ↔ (e.nodes.cells[k]? = some .triple ∧ d = .triple) ∨
      (e.nodes.cells[k]? ≠ some .triple ∧ e₂.nodes.cells[k]? = some d))
    (hall : ∀ (k : Int) (d : Cell), e'.nodes.cells[k]? = some d ↔
      (k, d) ∈ ps ∨ ((∀ c, (k, c) ∉ ps) ∧ cells[k]? = some d)) :
    e'.nodes.cells = e.flattened.nodes.cells := by
  have hpending : ∀ k d, (k, d) ∈ ps ↔
      d ≠ .plain none ∧ ∃ c, (e.nodes.cells[k]? = some c ∧ c ≠ .triple) ∧ d = c.flattened := by
    intro k d
    simp only [hr.pending, hdone]
  have hblank : ∀ (k : Int) (c : Cell), e.nodes.cells[k]? = some c → c ≠ .triple →
      e₂.nodes.cells[k]? = some (.plain none) := by
    intro k c hc hct
    obtain ⟨d, hd⟩ := (mem_iff_exists_getElem? _ _).1 ((hr.cells k).2 ⟨c, (hdone _).2 ⟨hc, hct⟩⟩)
    rwa [(hr.draft.cells k d hd).1] at hd
  refine table_ext fun k d => ?_
  rw [hall, hpending, hcells, getElem?_flattened, Option.map_eq_some_iff]
  constructor
  · rintro (⟨-, c, ⟨hc, -⟩, rfl⟩ | ⟨hnone, ⟨htriple, rfl⟩ | ⟨hct, hd⟩⟩)
    · exact ⟨c, hc, rfl⟩
    · exact ⟨.triple, htriple, rfl⟩
    · obtain ⟨c, hdc⟩ := (hr.cells k).1 (mem_of_getElem? hd)
      obtain ⟨hc, hne⟩ := (hdone _).1 hdc
      cases (hblank k c hc hne).symm.trans hd
      refine ⟨c, hc, Classical.byContradiction fun hflat => hnone c.flattened ?_⟩
      exact (hpending k _).2 ⟨hflat, c, ⟨hc, hne⟩, rfl⟩
  · rintro ⟨c, hc, rfl⟩
    have hown : ∀ d, (k, d) ∈ ps → d ≠ .plain none ∧ c ≠ .triple ∧ d = c.flattened := by
      intro d hd
      obtain ⟨hne, c', ⟨hc', hct⟩, rfl⟩ := (hpending k d).1 hd
      cases hc.symm.trans hc'
      exact ⟨hne, hct, rfl⟩
    by_cases hct : c = .triple
    · subst hct
      exact .inr ⟨fun d hd => (hown d hd).2.1 rfl, .inl ⟨hc, rfl⟩⟩
    · by_cases hflat : c.flattened = .plain none
      · refine .inr ⟨fun d hd => (hown d hd).1 ((hown d hd).2.2.trans hflat), .inr ⟨?_, ?_⟩⟩
        · rw [hc]
          exact fun h => hct (Option.some.inj h)
        · rw [hflat]
          exact hblank k c hc hct
      · exact .inl ⟨hflat, c, ⟨hc, hct⟩, rfl⟩

/-- From the record of an environment, the same handles are reserved again. -/
theorem rereadHandles {e : Environment} (he : e.Tabled) {nodes imports triples : List Plain}
    (hnodes : List.Forall₂ e.IsRow (e.cellsOf "node") nodes)
    (himports : List.Forall₂ e.IsRow (e.cellsOf "import") imports)
    (htriples : List.Forall₂ e.IsRow (e.cellsOf "triple") triples) :
    ∃ b e₂ ps done cells, nodes.foldlM readNode ({ blank e.id with nodes.next := e.nodes.next }, []) = .ok b ∧
      imports.foldlM readImport b = .ok (e₂, ps) ∧
      triples.foldlM reserveTriple e₂ = .ok { e₂ with nodes.cells := cells } ∧ e.Reread done (e₂, ps) ∧
      (∀ x, x ∈ done ↔ e.nodes.cells[x.1]? = some x.2 ∧ x.2 ≠ .triple) ∧
      (∀ (k : Int) (d : Cell), cells[k]? = some d ↔ (e.nodes.cells[k]? = some .triple ∧ d = .triple) ∨
        (e.nodes.cells[k]? ≠ some .triple ∧ e₂.nodes.cells[k]? = some d)) ∧
      ∀ k, k ∈ cells ↔ k ∈ e.nodes.cells := by
  obtain ⟨b, ⟨e₂, ps⟩, done, h₁, h₂, hr, hdone⟩ := readCells he hnodes himports
  have hlive₂ : ∀ k, k ∈ e₂.nodes.cells ↔ ∃ c, e.nodes.cells[k]? = some c ∧ c ≠ .triple := fun k =>
    (hr.cells k).trans (exists_congr fun c => hdone _)
  have hfree : ∀ h : Int, e.nodes.cells[h]? = some .triple → h ∉ e₂.nodes.cells := by
    intro h hh hlive
    obtain ⟨c, hc, hct⟩ := (hlive₂ h).1 hlive
    exact hct (Option.some.inj (hc.symm.trans hh))
  obtain ⟨cells, h₃, hcells⟩ := reserveTriples he hr.draft.next_eq htriples hfree
  refine ⟨b, e₂, ps, done, cells, h₁, h₂, h₃, hr, hdone, hcells, fun k => ⟨fun hk => ?_, fun hk => ?_⟩⟩
  · obtain ⟨d, hd⟩ := (mem_iff_exists_getElem? _ _).1 hk
    rcases (hcells k d).1 hd with ⟨hc, -⟩ | ⟨-, hd⟩
    · exact mem_of_getElem? hc
    · obtain ⟨c, hc, -⟩ := (hlive₂ k).1 (mem_of_getElem? hd)
      exact mem_of_getElem? hc
  · obtain ⟨c, hc⟩ := (mem_iff_exists_getElem? _ _).1 hk
    by_cases hct : c = .triple
    · exact mem_of_getElem? ((hcells k .triple).2 (.inl ⟨hct ▸ hc, rfl⟩))
    · obtain ⟨d, hd⟩ := (mem_iff_exists_getElem? _ _).1 ((hlive₂ k).2 ⟨c, hc, hct⟩)
      refine mem_of_getElem? ((hcells k d).2 (.inr ⟨?_, hd⟩))
      rw [hc]
      exact fun h => hct (Option.some.inj h)

/-- What is filled in was pending. -/
theorem mem_fillAll (ps : Pending) : ∀ {l l' : Locale}, ps.foldlM fill l = .ok l' → ∀ k ∈ l'.env.nodes.cells,
    k ∈ l.env.nodes.cells ∨ k ∈ ps.map (·.1) := by
  induction ps with
  | nil =>
    intro l l' hf k hk
    cases hf
    exact .inl hk
  | cons entry ps ih =>
    intro l l' hf k hk
    rw [List.foldlM_cons, except_bind_ok] at hf
    obtain ⟨l₁, h₁, hf⟩ := hf
    rcases ih hf k hk with hk | hk
    · unfold fill at h₁
      dsimp only at h₁
      split at h₁
      · cases h₁
      · cases h₁
        have hcells : (l.hold entry.1 entry.2).env.nodes.cells = l.env.nodes.cells.insert entry.1 entry.2 :=
          (Locale.hold_reindexed l entry.1 entry.2).cells_eq
        rw [hcells] at hk
        exact ((mem_insert_iff _ _ _ _).1 hk).symm.imp_right fun h => List.mem_cons.2 (.inl h)
    · exact .inr (List.mem_cons_of_mem _ hk)

/-- What is read back from the record of an environment, if it can be read back, has no handles but those that were
live, and the same counter. -/
theorem fromRecord_toRecord_live {e e' : Environment} (he : e.Tabled) {p : Plain} (hp : e.toRecord = .ok p)
    (h : fromRecord p = .ok e') : e'.nodes.next = e.nodes.next ∧ ∀ k ∈ e'.nodes.cells, k ∈ e.nodes.cells := by
  obtain ⟨nodes, imports, triples, rfl, hnodes, himports, htriples⟩ := toRecord_sections hp
  rw [fromRecord_sections] at h
  refine ⟨(fromRows_standalone h).2.2, ?_⟩
  obtain ⟨b, e₂, ps, done, cells, h₁, h₂, h₃, hr, hdone, -, hlive⟩ := rereadHandles he hnodes himports htriples
  unfold fromRows at h
  dsimp only at h
  rw [h₁] at h
  dsimp only [bind, Except.bind] at h
  rw [h₂] at h
  dsimp only at h
  rw [h₃] at h
  obtain ⟨e₄, h₄, h⟩ := except_bind_ok.1 h
  have hsame : e₄.nodes = ({ e₂ with nodes.cells := cells } : Environment).nodes := by
    refine foldlM_keeps (I := fun d => d.nodes = ({ e₂ with nodes.cells := cells } : Environment).nodes)
      (fun d found d' hd hread => ?_) triples rfl h₄
    unfold readTriple at hread
    split at hread
    · simp only [except_bind_ok] at hread
      obtain ⟨_, -, _, -, _, -, hread⟩ := hread
      split at hread
      · cases hread
        exact hd
      · cases hread
      · cases hread
    · cases hread
  split at h
  · cases h
  obtain ⟨l, hfill, h⟩ := except_bind_ok.1 h
  cases h
  intro k hk
  rcases mem_fillAll ps hfill k hk with hk | hk
  · exact (hlive k).1 (by simpa [hsame] using hk)
  · obtain ⟨⟨_, d⟩, hd, rfl⟩ := List.mem_map.1 hk
    obtain ⟨-, c, hc, -⟩ := (hr.pending _ d).1 hd
    exact mem_of_getElem? ((hdone _).1 hc).1

/-- The record of an environment that is coherent on its own is read back as the flattened
environment. -/
theorem fromRecord_toRecord {e : Environment} (he : e.Standalone) {p : Plain} (hp : e.toRecord = .ok p) :
    fromRecord p = .ok e.flattened := by
  obtain ⟨nodes, imports, triples, rfl, hnodes, himports, htriples⟩ := toRecord_sections hp
  rw [fromRecord_sections]
  obtain ⟨b, e₂, ps, done, cells, h₁, h₂, h₃, hr, hdone, hcells, hsame⟩ :=
    rereadHandles he.tabled hnodes himports htriples
  have hlive : ∀ k ∈ e.nodes.cells, k ∈ cells := fun k => (hsame k).2
  obtain ⟨store, h₄, hstore⟩ := readTriples he { e₂ with nodes.cells := cells } hr.draft.triples htriples
    hlive
  obtain ⟨l, h₅, hnames, hstored, hall⟩ := fillAll
    (l := ⟨{ e₂ with nodes.cells := cells, triples := store }, ∅⟩) hr.draft.keys fun h d hd n hn hid => by
      obtain ⟨-, c, hc, rfl⟩ := (hr.pending h d).1 hd
      rw [Cell.mentions_flattened] at hn
      exact hlive _ (he.known h n ⟨c, ((hdone _).1 hc).1, hn⟩ (hid.trans hr.draft.id_eq))
  have hrows : fromRows e.id e.nodes.next nodes imports triples = .ok l.env := by
    unfold fromRows
    dsimp only
    rw [h₁]
    dsimp only [bind, Except.bind]
    rw [h₂]
    dsimp only
    rw [h₃]
    dsimp only
    rw [h₄]
    dsimp only
    rw [if_neg fun h => h (hlive _ he.tabled.self), h₅]
    rfl
  obtain ⟨hstand, hid, hnext⟩ := fromRows_standalone hrows
  have hnameOf : l.env.nodes.nameOf = e.nodes.nameOf := by
    rw [hnames]
    refine table_ext fun h s => (hr.nameOf h s).trans ⟨And.right, fun hs => ⟨?_, hs⟩⟩
    obtain ⟨c, hc⟩ := (mem_iff_exists_getElem? _ _).1 (he.tabled.named.live h s hs)
    refine ⟨c, (hdone _).2 ⟨hc, ?_⟩⟩
    rintro rfl
    cases (he.unnamed h hc).symm.trans hs
  rw [hrows]
  refine congrArg Except.ok (Standalone.ext he.flattened hstand hid hnext ?_)
  unfold contents
  rw [cells_reread hr hdone hcells hall, hnameOf, hstored, hstore]
  rfl

end Environment

end GraphLisp
