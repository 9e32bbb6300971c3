import Mathlib.Data.List.Nodup
import GraphLisp.Proofs.Environment.Drafting
import GraphLisp.Proofs.Environment.Record
/-!
# Which records are accepted

A tree is read as an environment exactly if it is a record whose rows fit together
(`Environment.fromRecord_accepts`). The environment holds what the rows say, in whatever order they
come. Anything else is refused as damaged.
-/

namespace GraphLisp

open Std

/-! ## What rows put in words -/

section
open Environment

theorem IsContent.writable {p : Plain} {content : Option Structure} (h : IsContent p content) (ht : p.Tree)
    (hp : p.isWritable = true) : ∀ n ∈ (Cell.plain content).mentions, n.isWritable = true := by
  cases h with
  | null => exact nofun
  | payload _ hs => exact ((Plain.decode_tells ht).checks.right_of_ok hs).2 hp

theorem handle_writable {row : List (Plain × Plain)} {key : String} {h : Int} (hrow : field row key = .int h)
    (ht : (Plain.map row).Tree) (hp : (Plain.map row).isWritable = true) : Decimal.isWritable h = true := by
  have := (field_part ht key).writable hp
  rwa [hrow] at this

theorem IsNodeRow.writable {p : Plain} {x : Entry} (h : IsNodeRow p x) (ht : p.Tree) (hp : p.isWritable = true) :
    Decimal.isWritable x.handle = true ∧ ∀ n ∈ x.cell.mentions, n.isWritable = true := by
  cases h with
  | row hid _ hcontent =>
    exact ⟨handle_writable hid ht hp,
      hcontent.writable (field_part ht "structure").tree ((field_part ht "structure").writable hp)⟩

theorem IsImportRow.writable {p : Plain} {x : Entry} (h : IsImportRow p x) (ht : p.Tree) (hp : p.isWritable = true) :
    Decimal.isWritable x.handle = true ∧ ∀ n ∈ x.cell.mentions, n.isWritable = true := by
  cases h with
  | @row fields handle name target hid _ hnode =>
    refine ⟨handle_writable hid ht hp, fun n hn => ?_⟩
    obtain rfl : n = target := List.mem_singleton.1 hn
    exact Plain.node_isWritable (hnode ▸ (field_part ht "node").writable hp)

end

namespace Environment

variable {w : Prop} {id next : Int} {e : Environment} {ps : Pending} {rows : List Plain}

/-! ## Sections -/

/-- Rows are trees, and their numbers can be written. -/
def Readable (w : Prop) (rows : List Plain) : Prop := ∀ p ∈ rows, p.Tree ∧ (w → p.isWritable = true)

/-- Sections of nodes and imports are taken in exactly if their rows are such rows and fit together, with those
before them. -/
theorem readEntries_checks {read : Environment × Pending → Plain → Except Fault (Environment × Pending)}
    {R : Plain → Entry → Prop} (unique : ∀ {p x y}, R p x → R p y → x = y)
    (step : ∀ {done e ps found}, Drafted id next done (e, ps) → found.Tree → (w → found.isWritable = true) →
      Checks w (∃ x, R found x ∧ Joins id next done x)
        (fun b => ∃ x, R found x ∧ Joins id next done x ∧ Takes x (e, ps) b) (read (e, ps) found))
    (draft : ∀ {e ps found e' ps'}, Draft id next e ps → read (e, ps) found = .ok (e', ps') → Draft id next e' ps')
    {done : List Entry} {b : Environment × Pending} (hr : Readable w rows) (hfits : Fits id next done)
    (hd : Drafted id next done b) :
    Checks w (∃ xs, List.Forall₂ R rows xs ∧ Fits id next (done ++ xs))
      (fun b' => ∃ xs, List.Forall₂ R rows xs ∧ Fits id next (done ++ xs) ∧ Drafted id next (done ++ xs) b')
      (rows.foldlM read b) := by
  have hfold := Checks.foldlM (w := w) (f := read) (R := R) (F := Fits id next)
    (I := fun done rest b => Fits id next done ∧ Drafted id next done b ∧ Readable w rest) unique
    (fun _ _ h => h.left) And.left ?_ rows done ⟨hfits, hd, hr⟩
  · exact hfold.mono Iff.rfl fun b ⟨xs, hxs, hfits, hd, _⟩ => ⟨xs, hxs, hfits, hd⟩
  · rintro done found rest ⟨e, ps⟩ ⟨hfits, hd, hrest⟩
    obtain ⟨⟨htree, hw⟩, hrest⟩ := List.forall_mem_cons.1 hrest
    refine (step hd htree hw).and_eq.mono ?_ ?_
    · simp only [fits_concat_iff, hfits, true_and]
    · rintro ⟨e', ps'⟩ ⟨⟨x, hx, hj, ht⟩, hread⟩
      exact ⟨x, hx, fits_concat_iff.2 ⟨hfits, hj⟩, hd.take ht (draft hd.draft hread), hrest⟩

section
variable {hs : List Int} {cells : ExtTreeMap Int Cell}

theorem Reserved.live_iff (hr : e.Reserved hs cells) (k : Int) : k ∈ cells ↔ k ∈ hs ∨ k ∈ e.nodes.cells := by
  simp only [mem_iff_exists_getElem?, hr.cells_iff]
  constructor
  · rintro ⟨c, ⟨hk, -⟩ | ⟨-, hc⟩⟩
    · exact .inl hk
    · exact .inr ⟨c, hc⟩
  · rintro (hk | ⟨c, hc⟩)
    · exact ⟨.triple, .inl ⟨hk, rfl⟩⟩
    · exact ⟨c, .inr ⟨fun hk => (hr.fresh k hk).1 (mem_of_getElem? hc), hc⟩⟩

theorem Reserved.concat (hr : e.Reserved hs cells) {h : Int} (hrange : 0 ≤ h ∧ h < e.nodes.next) (hh : h ∉ cells) :
    e.Reserved (hs ++ [h]) (cells.insert h .triple) := by
  rw [hr.live_iff, not_or] at hh
  refine ⟨fun k hk => ?_, fun k c => ?_⟩
  · rcases List.mem_append.1 hk with hk | hk
    · exact hr.fresh k hk
    · cases List.mem_singleton.1 hk
      exact ⟨hh.2, hrange⟩
  · rw [getElem?_insert_iff, hr.cells_iff, List.mem_append, List.mem_singleton]
    constructor
    · rintro (⟨rfl, rfl⟩ | ⟨hne, ⟨hk, rfl⟩ | ⟨hk, hc⟩⟩)
      · exact .inl ⟨.inr rfl, rfl⟩
      · exact .inl ⟨.inl hk, rfl⟩
      · exact .inr ⟨not_or.2 ⟨hk, hne⟩, hc⟩
    · rintro (⟨hk | rfl, rfl⟩ | ⟨hk, hc⟩)
      · exact .inr ⟨fun h => hh.1 (h ▸ hk), .inl ⟨hk, rfl⟩⟩
      · exact .inl ⟨rfl, rfl⟩
      · exact .inr ⟨fun h => hk (.inr h), .inr ⟨fun h => hk (.inl h), hc⟩⟩

end

/-- Handles of triples that are free and differ. -/
def Spare (e : Environment) (hs : List Int) : Prop :=
  hs.Nodup ∧ ∀ h ∈ hs, h ∉ e.nodes.cells ∧ 0 ≤ h ∧ h < e.nodes.next

/-- The handles of triples are reserved exactly if the rows have handles, which are free and differ. -/
theorem reserveTriples_checks (e : Environment) (hr : Readable w rows) :
    Checks w (∃ hs, List.Forall₂ IsTripleId rows hs ∧ e.Spare hs)
      (fun e' => ∃ hs, List.Forall₂ IsTripleId rows hs ∧ hs.Nodup ∧
        ∃ cells, e' = { e with nodes.cells := cells } ∧ e.Reserved hs cells)
      (rows.foldlM reserveTriple e) := by
  have hfold := Checks.foldlM (w := w) (f := reserveTriple) (R := IsTripleId) (F := e.Spare)
    (I := fun hs rest e' => (hs.Nodup ∧ ∃ cells, e' = { e with nodes.cells := cells } ∧ e.Reserved hs cells) ∧
      Readable w rest) (fun hx hy => hx.unique hy) ?_ ?_ ?_ rows [] (b := e)
      ⟨⟨List.nodup_nil, e.nodes.cells, rfl, ?_⟩, hr⟩
  · exact hfold.mono Iff.rfl fun b ⟨hs, hall, ⟨hnodup, hcells⟩, _⟩ => ⟨hs, hall, hnodup, hcells⟩
  · exact fun xs ys ⟨hnodup, h⟩ => ⟨(List.nodup_append.1 hnodup).1, fun k hk => h k (List.mem_append_left ys hk)⟩
  · exact fun ⟨⟨hnodup, _, _, hreserved⟩, _⟩ => ⟨hnodup, hreserved.fresh⟩
  · rintro hs found rest _ ⟨⟨hnodup, cells, rfl, hreserved⟩, hrest⟩
    obtain ⟨⟨htree, hw⟩, hrest⟩ := List.forall_mem_cons.1 hrest
    refine (reserveTriple_checks _ htree hw).mono (exists_congr fun h => and_congr_right fun _ => ?_) ?_
    · change (0 ≤ h ∧ h < e.nodes.next) ∧ h ∉ cells ↔ e.Spare (hs ++ [h])
      unfold Spare
      rw [hreserved.live_iff, not_or, nodup_concat_iff, List.forall_mem_append, List.forall_mem_singleton]
      exact ⟨fun ⟨hrange, hh, hfree⟩ => ⟨⟨hnodup, hh⟩, hreserved.fresh, hfree, hrange⟩,
        fun ⟨⟨_, hh⟩, _, hfree, hrange⟩ => ⟨hrange, hh, hfree⟩⟩
    · rintro _ ⟨h, hid, hrange, hfree, rfl⟩
      have hh : h ∉ hs := fun hm => hfree ((hreserved.live_iff h).2 (.inl hm))
      exact ⟨h, hid, ⟨nodup_concat_iff.2 ⟨hnodup, hh⟩, _, rfl, hreserved.concat hrange hfree⟩, hrest⟩
  · exact ⟨nofun, fun k c => by simp⟩

/-- Triples that can be stored together. -/
def Consonant (e : Environment) (ts : List (Int × Statement)) : Prop :=
  (∀ t ∈ ts, e.Relates t.2) ∧ (ts.map (·.2)).Nodup

/-- A store that has the given triples and no others. -/
structure Stores (ts : List (Int × Statement)) (store : TripleStore) : Prop where
  coherent : store.Coherent
  statements : ∀ (h : Int) (st : Statement), store.statements[h]? = some st ↔ (h, st) ∈ ts

theorem Stores.new_iff {ts : List (Int × Statement)} {store : TripleStore} (hs : Stores ts store) (st : Statement) :
    store.find? st = none ↔ st ∉ ts.map (·.2) := by
  unfold TripleStore.find?
  rw [Option.eq_none_iff_forall_ne_some]
  simp only [ne_eq, hs.coherent.inverse, hs.statements, List.mem_map, not_exists, not_and]
  exact ⟨fun h t ht hst => h t.1 (hst ▸ ht), fun h k hk => h (k, st) hk rfl⟩

theorem Stores.concat {ts : List (Int × Statement)} {store : TripleStore} (hs : Stores ts store) {h : Int}
    {st : Statement} (hh : h ∉ ts.map (·.1)) (hst : store.find? st = none) :
    Stores (ts ++ [(h, st)]) (store.insert h st) where
  coherent := hs.coherent.insert (fun hm => by
    obtain ⟨u, hu⟩ := (mem_iff_exists_getElem? _ _).1 hm
    exact hh (List.mem_map.2 ⟨_, (hs.statements h u).1 hu, rfl⟩)) hst
  statements k u := by
    rw [List.mem_append, List.mem_singleton, Prod.mk.injEq]
    refine (getElem?_insert_iff _ _ _ _ _).trans ?_
    rw [hs.statements]
    constructor
    · rintro (hk | ⟨-, hk⟩)
      · exact .inr hk
      · exact .inl hk
    · rintro (hk | hk)
      · exact .inr ⟨fun h => hh (List.mem_map.2 ⟨_, hk, h⟩), hk⟩
      · exact .inl hk

/-- The statements of triples are stored exactly if their parts are live and no two of them are equal. -/
theorem readTriples_checks (e : Environment) (hempty : e.triples = .empty) {hs : List Int}
    (hids : List.Forall₂ IsTripleId rows hs) (hnodup : hs.Nodup) (hr : Readable w rows) :
    Checks w (∃ ts, List.Forall₂ IsTripleRow rows ts ∧ e.Consonant ts)
      (fun e' => ∃ ts, List.Forall₂ IsTripleRow rows ts ∧ e.Consonant ts ∧
        ∃ store, e' = { e with triples := store } ∧ Stores ts store)
      (rows.foldlM readTriple e) := by
  have hstart : Stores [] e.triples :=
    ⟨hempty ▸ TripleStore.coherent_empty, fun k st => by simp [hempty, TripleStore.empty]⟩
  have hfold := Checks.foldlM (w := w) (f := readTriple) (R := IsTripleRow) (F := e.Consonant)
    (I := fun ts rest e' => (e.Consonant ts ∧ ∃ store, e' = { e with triples := store } ∧ Stores ts store) ∧
      (∃ hs, List.Forall₂ IsTripleId rest hs ∧ (ts.map (·.1) ++ hs).Nodup) ∧ Readable w rest)
      (fun hx hy => hx.unique hy) ?_ ?_ ?_ rows [] (b := e)
      ⟨⟨⟨List.forall_mem_nil _, List.nodup_nil⟩, e.triples, rfl, hstart⟩, ⟨hs, hids, hnodup⟩, hr⟩
  · refine hfold.mono Iff.rfl ?_
    rintro b ⟨ts, hall, hright, -⟩
    exact ⟨ts, hall, hright⟩
  · rintro xs ys ⟨h, hnodup⟩
    exact ⟨fun t ht => h t (List.mem_append_left ys ht), (List.nodup_append.1 (List.map_append ▸ hnodup)).1⟩
  · rintro _ _ _ ⟨⟨h, -⟩, -⟩
    exact h
  · rintro ts found rest _ ⟨⟨hts, store, rfl, hstores⟩, ⟨_, hids, hdistinct⟩, hrest⟩
    obtain ⟨⟨htree, hw⟩, hrest⟩ := List.forall_mem_cons.1 hrest
    cases hids with
    | @cons _ h _ hs hid hids =>
    have hh : h ∉ ts.map (·.1) := fun hm => (List.nodup_append.1 hdistinct).2.2 h hm h (.head _) rfl
    -- a statement that is new does not stand among those before it
    have hfit : ∀ st, e.Consonant (ts ++ [(h, st)]) ↔ e.Relates st ∧ store.find? st = none := by
      intro st
      unfold Consonant
      rw [hstores.new_iff, List.map_append, List.map_singleton, nodup_concat_iff, List.forall_mem_append,
        List.forall_mem_singleton]
      constructor
      · rintro ⟨⟨-, hst⟩, -, hnew⟩
        exact ⟨hst, hnew⟩
      · rintro ⟨hst, hnew⟩
        exact ⟨⟨hts.1, hst⟩, hts.2, hnew⟩
    refine (readTriple_checks { e with triples := store } hid htree hw).mono ⟨?_, ?_⟩ ?_
    · rintro ⟨st, hrow, hst⟩
      exact ⟨(h, st), hrow, (hfit st).2 hst⟩
    · rintro ⟨⟨k, st⟩, hrow, hst⟩
      cases hid.unique (tripleId_of_row hrow)
      exact ⟨st, hrow, (hfit st).1 hst⟩
    · rintro _ ⟨st, hrow, hlive, hnew, rfl⟩
      refine ⟨(h, st), hrow, ⟨(hfit st).2 ⟨hlive, hnew⟩, _, rfl, hstores.concat hh hnew⟩, ⟨hs, hids, ?_⟩, hrest⟩
      rwa [List.map_append, List.map_singleton, List.append_assoc]

/-! ## Whole accounts -/

/-- What the rows of the three sections say. -/
structure Listing (id next : Int) (nodes imports triples : List Plain) (a : Account) : Prop where
  id : a.id = id
  next : a.next = next
  nodes : List.Forall₂ IsNodeRow nodes a.nodes
  imports : List.Forall₂ IsImportRow imports a.imports
  triples : List.Forall₂ IsTripleRow triples a.triples

theorem tripleIds_of_rows {ts : List (Int × Statement)} (h : List.Forall₂ IsTripleRow rows ts) :
    List.Forall₂ IsTripleId rows (ts.map (·.1)) := by
  induction h with
  | nil => exact .nil
  | cons ht _ ih => exact .cons (tripleId_of_row ht) ih

section
variable {a : Account} {cells : ExtTreeMap Int Cell}

theorem Drafted.spare (hd : Drafted a.id a.next a.entries (e, ps)) (hgood : a.WellFormed) :
    e.Spare (a.triples.map (·.1)) := by
  obtain ⟨-, hnodup, hdisjoint⟩ := List.nodup_append.1 hgood.distinct
  refine ⟨hnodup, fun k hk => ⟨(hd.fresh_iff k).2 fun y hy hyk => ?_, ?_⟩⟩
  · exact hdisjoint _ (List.mem_map.2 ⟨y, hy, rfl⟩) k hk hyk
  · have hnext : e.nodes.next = a.next := hd.draft.next_eq
    rw [hnext]
    exact hgood.range k (List.mem_append_right _ hk)

theorem wellFormed_fits (h : a.WellFormed) : Fits a.id a.next a.entries where
  distinct := (List.nodup_append.1 h.distinct).1
  range x hx := h.range _ (List.mem_append_left _ (List.mem_map.2 ⟨x, hx, rfl⟩))
  names := h.names
  targets := h.targets
  abroad := h.abroad

variable {store : TripleStore} (hd : Drafted a.id a.next a.entries (e, ps))
  (hr : e.Reserved (a.triples.map (·.1)) cells)
include hd hr

theorem Drafted.live_iff (k : Int) : k ∈ cells ↔ k ∈ a.handles := by
  rw [hr.live_iff, hd.cells, or_comm]
  simp only [Account.handles, List.mem_append, List.mem_map]

theorem Drafted.consonant (hgood : a.WellFormed) :
    ({ e with nodes.cells := cells } : Environment).Consonant a.triples :=
  ⟨fun t ht k hk => (hd.live_iff hr k).2 (hgood.parts t ht k hk), hgood.statements⟩

/-- What has been checked on the way is that the rows fit together. -/
theorem Drafted.wellFormed (hfits : Fits a.id a.next a.entries) (hnodup : (a.triples.map (·.1)).Nodup)
    (hconsonant : ({ e with nodes.cells := cells } : Environment).Consonant a.triples) (hself : selfHandle ∈ a.handles)
    (hknown : ∀ x ∈ a.nodes, ∀ n ∈ x.cell.mentions, n.env = a.id → n.id ∈ a.handles) : a.WellFormed where
  distinct := by
    refine List.nodup_append.2 ⟨hfits.distinct, hnodup, ?_⟩
    rintro k hk _ hk' rfl
    obtain ⟨x, hx, rfl⟩ := List.mem_map.1 hk
    exact (hr.fresh _ hk').1 ((hd.cells _).2 ⟨x, hx, rfl⟩)
  range k hk := by
    rcases List.mem_append.1 hk with hk | hk
    · obtain ⟨x, hx, rfl⟩ := List.mem_map.1 hk
      exact hfits.range x hx
    · rw [← hd.draft.next_eq]
      exact (hr.fresh k hk).2
  self := hself
  names := hfits.names
  known := hknown
  targets := hfits.targets
  abroad := hfits.abroad
  parts t ht k hk := (hd.live_iff hr k).1 (hconsonant.1 t ht k hk)
  statements := hconsonant.2

/-- Once the cells that wait are filled in, the tables list what the account says. -/
theorem Drafted.lists (hfits : Fits a.id a.next a.entries) (hstores : Stores a.triples store) {e' : Environment}
    (hnameOf : e'.nodes.nameOf = e.nodes.nameOf) (htriples : e'.triples = store)
    (hcells : ∀ (k : Int) (c : Cell), e'.nodes.cells[k]? = some c ↔
      (k, c) ∈ ps ∨ ((∀ d, (k, d) ∉ ps) ∧ cells[k]? = some c)) : e'.Lists a where
  nameOf k s := by rw [hnameOf, hd.nameOf]
  statements k st := by rw [htriples, hstores.statements]
  cells k c := by
    rw [hcells, hd.pending]
    constructor
    · rintro (⟨-, hx⟩ | ⟨hnone, hc⟩)
      · exact .inl hx
      rcases (hr.cells_iff k c).1 hc with ⟨hk, rfl⟩ | ⟨-, hc⟩
      · exact .inr ⟨rfl, hk⟩
      · -- a cell that does not wait is empty, and so its row says
        obtain ⟨rfl, -⟩ := hd.draft.cells k c hc
        obtain ⟨x, hx, rfl⟩ := (hd.cells k).1 (mem_of_getElem? hc)
        refine .inl ⟨x, hx, rfl, Classical.byContradiction fun hne => hnone x.cell ?_⟩
        exact (hd.pending _ _).2 ⟨hne, x, hx, rfl, rfl⟩
    · rintro (⟨x, hx, rfl, rfl⟩ | ⟨rfl, hk⟩)
      · by_cases hempty : x.cell = .plain none
        · refine .inr ⟨fun d hd' => ?_, ?_⟩
          · obtain ⟨hne, y, hy, hyx, rfl⟩ := (hd.pending _ _).1 hd'
            rw [List.inj_on_of_nodup_map hfits.distinct hy hx hyx] at hne
            exact hne hempty
          · rw [hempty]
            exact hd.draft.kept hr ((hd.cells _).2 ⟨x, hx, rfl⟩)
        · exact .inl ⟨hempty, x, hx, rfl, rfl⟩
      · refine .inr ⟨fun d hd' => ?_, (hd.draft.triple_iff hr k).2 hk⟩
        exact (hr.fresh k hk).1 (hd.draft.live k d hd').1

/-- The last checks: there is a self node, and what the cells mention is there. -/
theorem Drafted.finish_checks (hstores : Stores a.triples store) (himports : ∀ x ∈ a.imports, ∃ t, x.cell = .proxy t)
    (hw : w → ∀ x ∈ a.entries, Decimal.isWritable x.handle = true ∧ ∀ n ∈ x.cell.mentions, n.isWritable = true)
    (hgood : selfHandle ∈ a.handles →
      (∀ x ∈ a.nodes, ∀ n ∈ x.cell.mentions, n.env = a.id → n.id ∈ a.handles) → a.WellFormed) :
    Checks w a.WellFormed (·.Lists a)
      (if selfHandle ∉ cells then damaged .noSelfNode
        else do return (← ps.foldlM fill ⟨{ e with nodes.cells := cells, triples := store }, ∅⟩).env) := by
  have hid : e.id = a.id := hd.draft.id_eq
  have hlive := hd.live_iff hr
  split
  · next hself => exact .damaged (fun h => hself ((hlive _).2 h.self)) fun _ => rfl
  next hself =>
  by_cases hknown : ∀ h c, (h, c) ∈ ps → ∀ n ∈ c.mentions, n.env = e.id → n.id ∈ cells
  · obtain ⟨l, hfill, hnameOf, htriples, hcells⟩ :=
      fillAll (l := ⟨{ e with nodes.cells := cells, triples := store }, ∅⟩) hd.draft.keys hknown
    have hgood := hgood ((hlive _).1 (Classical.not_not.1 hself)) fun x hx n hn henv => by
      have hne : x.cell ≠ .plain none := by
        rintro hempty
        rw [hempty] at hn
        cases hn
      have hx := (hd.pending x.handle x.cell).2 ⟨hne, x, List.mem_append_left _ hx, rfl, rfl⟩
      exact (hlive _).1 (hknown _ _ hx n hn (henv.trans hid.symm))
    rw [hfill]
    exact .passed hgood (hd.lists hr (wellFormed_fits hgood) hstores hnameOf htriples hcells)
  · simp only [not_forall] at hknown
    obtain ⟨h, c, hc, n, hn, henv, hk⟩ := hknown
    have hpending : ∀ x ∈ ps, x.1 ∈ cells := fun x hx =>
      mem_of_getElem? (hd.draft.kept hr (hd.draft.live x.1 x.2 hx).1)
    obtain ⟨x, hx, m, hm, hfill⟩ := fillAll_refused (l := ⟨{ e with nodes.cells := cells, triples := store }, ∅⟩)
      hpending ⟨(h, c), hc, n, hn, henv, hk⟩
    rw [hfill]
    refine .refused (fun hgood => hk ?_) fun h => ?_
    · obtain ⟨-, y, hy, rfl, rfl⟩ := (hd.pending h c).1 hc
      rcases List.mem_append.1 hy with hnode | himport
      · exact (hlive _).2 (hgood.known y hnode n hn (henv.trans hid))
      · -- an import mentions no node of this environment
        obtain ⟨t, ht⟩ := himports y himport
        rw [ht] at hn
        cases List.mem_singleton.1 hn
        exact absurd (henv.trans hid) (hgood.abroad n (List.mem_filterMap.2 ⟨y, hy, target?_eq_some_iff.2 ht⟩))
    · obtain ⟨-, y, hy, hyh, hyc⟩ := (hd.pending x.1 x.2).1 hx
      obtain ⟨hhandle, hmentions⟩ := hw h y hy
      have hm : m.isWritable = true := hmentions m (hyc ▸ hm)
      simp only [Damage.isWritable, List.all_cons, List.all_nil, Bool.and_true, Bool.and_eq_true]
      exact ⟨hyh ▸ hhandle, (Bool.and_eq_true_iff.1 hm).2⟩

end

/-- Three sections are read exactly if their rows are such rows and fit together. -/
theorem fromRows_checks {nodes imports triples : List Plain} (hnodes : Readable w nodes) (himports : Readable w imports)
    (htriples : Readable w triples) :
    Checks w (∃ a, Listing id next nodes imports triples a ∧ a.WellFormed)
      (fun e => ∃ a, Listing id next nodes imports triples a ∧ e.Lists a)
      (fromRows id next nodes imports triples) := by
  have tripleId_unique : Relator.RightUnique IsTripleId := fun _ _ _ hx hy => hx.unique hy
  unfold fromRows
  dsimp only
  have hread₁ := readEntries_checks (w := w) (R := IsNodeRow) IsNodeRow.unique readNode_checks readNode_draft hnodes
    ⟨by simp, by simp, by simp, by simp, by simp⟩ (drafted_start id next)
  refine hread₁.bind ?_ ?_
  · rintro ⟨a, ha, hgood⟩
    exact ⟨a.nodes, ha.nodes, by rw [← ha.id, ← ha.next]; exact (wellFormed_fits hgood).left⟩
  rintro ⟨e₁, ps₁⟩ ⟨ns, hns, hfits₁, hd₁⟩
  have hread₂ := readEntries_checks (w := w) (R := IsImportRow) IsImportRow.unique readImport_checks readImport_draft
    himports hfits₁ hd₁
  refine hread₂.bind ?_ ?_
  · rintro ⟨a, ha, hgood⟩
    cases List.right_unique_forall₂' nodeRow_unique hns ha.nodes
    exact ⟨a.imports, ha.imports, by rw [← ha.id, ← ha.next]; exact wellFormed_fits hgood⟩
  rintro ⟨e₂, ps⟩ ⟨is, his, hfits, hd⟩
  -- the rows say one thing, so what has been read of them is part of any account of them
  have hof : ∀ {a}, Listing id next nodes imports triples a → a = ⟨id, next, ns, is, a.triples⟩ := by
    rintro ⟨_, _, _, _, ts⟩ ha
    cases ha.id
    cases ha.next
    cases List.right_unique_forall₂' nodeRow_unique hns ha.nodes
    cases List.right_unique_forall₂' importRow_unique his ha.imports
    rfl
  have hdraft : ∀ {a}, Listing id next nodes imports triples a → Drafted a.id a.next a.entries (e₂, ps) := by
    intro a ha
    rw [hof ha]
    exact hd
  refine (reserveTriples_checks e₂ htriples).bind ?_ ?_
  · rintro ⟨a, ha, hgood⟩
    exact ⟨a.triples.map (·.1), tripleIds_of_rows ha.triples, (hdraft ha).spare hgood⟩
  rintro _ ⟨hs, hids, hnodup, cells, rfl, hreserved⟩
  have hhs : ∀ {ts}, List.Forall₂ IsTripleRow triples ts → hs = ts.map (·.1) := fun hts =>
    List.right_unique_forall₂' tripleId_unique hids (tripleIds_of_rows hts)
  refine (readTriples_checks { e₂ with nodes.cells := cells } hd.draft.triples hids hnodup htriples).bind ?_ ?_
  · rintro ⟨a, ha, hgood⟩
    rw [hhs ha.triples] at hreserved
    exact ⟨a.triples, ha.triples, (hdraft ha).consonant hreserved hgood⟩
  rintro _ ⟨ts, hts, hconsonant, store, rfl, hstores⟩
  have hlisting : Listing id next nodes imports triples ⟨id, next, ns, is, ts⟩ := ⟨rfl, rfl, hns, his, hts⟩
  have hgoal : (⟨id, next, ns, is, ts⟩ : Account).WellFormed ↔
      ∃ a, Listing id next nodes imports triples a ∧ a.WellFormed := by
    refine ⟨fun hgood => ⟨_, hlisting, hgood⟩, fun ⟨a, ha, hgood⟩ => ?_⟩
    have heq := hof ha
    rw [← List.right_unique_forall₂' tripleRow_unique hts ha.triples] at heq
    exact heq ▸ hgood
  cases hhs hts
  have hd := hdraft hlisting
  refine (hd.finish_checks hreserved hstores (fun x hx => ?_) (fun h x hx => ?_)
    (hd.wellFormed hreserved hfits hnodup hconsonant)).mono hgoal fun e he => ⟨_, hlisting, he⟩
  · obtain ⟨p, -, hp⟩ := forall₂_mem_right his x hx
    cases hp with
    | row _ _ _ => exact ⟨_, rfl⟩
  · rcases List.mem_append.1 hx with hx | hx
    · obtain ⟨p, hp, hrow⟩ := forall₂_mem_right hns x hx
      exact hrow.writable (hnodes p hp).1 ((hnodes p hp).2 h)
    · obtain ⟨p, hp, hrow⟩ := forall₂_mem_right his x hx
      exact hrow.writable (himports p hp).1 ((himports p hp).2 h)

/-! ## Whole records -/

theorem rows_eq (entries : List (Plain × Plain)) (key : String) :
    Environment.rows entries key = if (field entries key).isVoid then .ok []
      else match (field entries key).listed? with
        | some items => .ok items
        | none => damaged .badSection := rfl

theorem rows_of_section {entries : List (Plain × Plain)} {key : String} (h : IsSection (field entries key) rows) :
    Environment.rows entries key = .ok rows := by
  rw [rows_eq]
  generalize field entries key = p at h
  cases h with
  | void hvoid => rw [if_pos hvoid]
  | list => cases rows <;> rfl

/-- What a section lists can be read, or there is nothing that it lists. -/
theorem rows_tells {entries : List (Plain × Plain)} (ht : (Plain.map entries).Tree)
    (hw : w → (Plain.map entries).isWritable = true) (key : String) :
    Tells w (Readable w) (Environment.rows entries key) := by
  have hp := field_part ht key
  rw [rows_eq]
  split
  · exact .gave nofun
  · split
    · next items hitems =>
      exact .gave fun q hq =>
        have hq := hp.trans (Plain.part_listed? hp.tree hitems hq)
        ⟨hq.tree, fun h => hq.writable (hw h)⟩
    · exact .refused fun _ => rfl

/-- A section whose rows are maps is a list of them, or there is nothing in it. -/
theorem section_iff {α : Type} {R : Plain → α → Prop} (hR : ∀ p x, R p x → ∃ row, p = .map row)
    {entries : List (Plain × Plain)} (ht : (Plain.map entries).Tree) {key : String}
    (hrows : Environment.rows entries key = .ok rows) {xs : List α} :
    List.Forall₂ R rows xs ↔ SectionReports R (field entries key) xs := by
  have hp := (field_part ht key).tree
  constructor
  · intro hall
    refine ⟨rows, ?_, hall⟩
    rw [rows_eq] at hrows
    generalize field entries key = p at hp hrows
    split at hrows
    · next hvoid =>
      cases hrows
      exact .void hvoid
    next hvoid =>
    split at hrows
    · next items hlisted =>
      cases hrows
      cases rows with
      | nil => exact absurd (Plain.isVoid_of_listed? hp hlisted) hvoid
      | cons q rest =>
        obtain ⟨x, _, hx⟩ := forall₂_mem_left hall q (.head _)
        obtain ⟨row, rfl⟩ := hR q x hx
        rw [Plain.eq_list_of_listed? hp hlisted (.head _) rfl]
        exact .list _
    · cases hrows
  · rintro ⟨given, hgiven, hall⟩
    rw [Except.ok.inj (hrows.symm.trans (rows_of_section hgiven))]
    exact hall

theorem nodeRow_map (p : Plain) (x : Entry) (h : IsNodeRow p x) : ∃ row, p = .map row := by
  cases h with
  | row => exact ⟨_, rfl⟩

theorem importRow_map (p : Plain) (x : Entry) (h : IsImportRow p x) : ∃ row, p = .map row := by
  cases h with
  | row => exact ⟨_, rfl⟩

theorem tripleRow_map (p : Plain) (t : Int × Statement) (h : IsTripleRow p t) : ∃ row, p = .map row := by
  cases h with
  | row => exact ⟨_, rfl⟩

theorem find?_of_field {entries : List (Plain × Plain)} {key : String} {p : Plain} (h : field entries key = p)
    (hp : p ≠ .null) : Plain.find? entries key = some p := by
  unfold field at h
  cases hf : Plain.find? entries key with
  | none =>
    rw [hf] at h
    exact absurd h.symm hp
  | some q =>
    rw [hf] at h
    exact congrArg some h

theorem field_of_find? {entries : List (Plain × Plain)} {key : String} {p : Plain} (h : Plain.find? entries key = some p) :
    field entries key = p := by
  unfold field
  rw [h]
  rfl

/-- A record with given counters and rows reports what is listed in its rows. -/
theorem listing_iff {entries : List (Plain × Plain)} (ht : (Plain.map entries).Tree)
    (format : field entries "format" = .text recordFormat)
    (version : (field entries "version").equal (.int recordVersion) = true) (hid : field entries "id" = .int id)
    (hnext : field entries "next" = .int next) {nodes imports triples : List Plain}
    (hnodes : Environment.rows entries "nodes" = .ok nodes) (himports : Environment.rows entries "imports" = .ok imports)
    (htriples : Environment.rows entries "triples" = .ok triples) (a : Account) :
    Listing id next nodes imports triples a ↔ Reports (.map entries) a := by
  constructor
  · intro ha
    exact .record format version (ha.id ▸ hid) (ha.next ▸ hnext) ((section_iff nodeRow_map ht hnodes).1 ha.nodes)
      ((section_iff importRow_map ht himports).1 ha.imports) ((section_iff tripleRow_map ht htriples).1 ha.triples)
  · rintro ⟨-, -, hid', hnext', hns, his, hts⟩
    exact ⟨Plain.int.inj (hid'.symm.trans hid), Plain.int.inj (hnext'.symm.trans hnext),
      (section_iff nodeRow_map ht hnodes).2 hns, (section_iff importRow_map ht himports).2 his,
      (section_iff tripleRow_map ht htriples).2 hts⟩

/-- A tree is read exactly if it is a record whose rows fit together. -/
theorem fromRecord_checks {r : Plain} (ht : r.Tree) :
    Checks (r.isWritable = true) (∃ a, Reports r a ∧ a.WellFormed) (fun e => ∃ a, Reports r a ∧ e.Holds a)
      (fromRecord r) := by
  unfold fromRecord
  rw [ht.opened]
  split
  next entries =>
    refine .guarded ?_ (fun _ => rfl) fun hformat => ?_
    · rintro hmark ⟨a, ⟨format, -, -, -, -, -, -⟩, -⟩
      rw [find?_of_field format nofun] at hmark
      simp at hmark
    have hmark : field entries "format" = .text recordFormat := by
      rw [Bool.not_eq_true, Bool.not_eq_false'] at hformat
      split at hformat
      · next s hs => rw [field_of_find? hs, eq_of_beq hformat]
      · cases hformat
    refine .guarded ?_ (field_part ht "version").writable fun hversion => ?_
    · rintro hversion ⟨a, ⟨-, version, -, -, -, -, -⟩, -⟩
      rw [version] at hversion
      cases hversion
    split
    next id hid =>
      split
      next next hnext =>
        have hw : (Plain.map entries).isWritable = true → (Plain.map entries).isWritable = true := fun h => h
        refine (rows_tells ht hw "nodes").checks.bind ?_ fun nodes ⟨hnodes, hrnodes⟩ => ?_
        · rintro ⟨a, ⟨-, -, -, -, nodes, -, -⟩, -⟩
          exact ⟨_, rows_of_section nodes.choose_spec.1⟩
        refine (rows_tells ht hw "imports").checks.bind ?_ fun imports ⟨himports, hrimports⟩ => ?_
        · rintro ⟨a, ⟨-, -, -, -, -, imports, -⟩, -⟩
          exact ⟨_, rows_of_section imports.choose_spec.1⟩
        refine (rows_tells ht hw "triples").checks.bind ?_ fun triples ⟨htriples, hrtriples⟩ => ?_
        · rintro ⟨a, ⟨-, -, -, -, -, -, triples⟩, -⟩
          exact ⟨_, rows_of_section triples.choose_spec.1⟩
        split
        next id next =>
          have hreports := listing_iff ht hmark (by simpa using hversion) (field_of_find? hid) (field_of_find? hnext)
            hnodes himports htriples
          refine (fromRows_checks hrnodes hrimports hrtriples).and_eq.mono ?_ ?_
          · simp only [hreports]
          · rintro e ⟨⟨a, ha, he⟩, hread⟩
            obtain ⟨hstandalone, heid, henext⟩ := fromRows_standalone hread
            exact ⟨a, (hreports a).1 ha, ⟨he, heid.trans ha.id.symm, henext.trans ha.next.symm, hstandalone⟩⟩
        next hcounters =>
          refine .damaged ?_ fun _ => rfl
          rintro ⟨a, ⟨-, -, id, next, -, -, -⟩, -⟩
          exact hcounters _ _ ((field_of_find? hid).symm.trans id) ((field_of_find? hnext).symm.trans next)
      next hnext =>
        refine .refused ?_ fun _ => rfl
        rintro ⟨a, ⟨-, -, -, next, -, -, -⟩, -⟩
        exact hnext _ (find?_of_field next nofun)
    next hid =>
      refine .refused ?_ fun _ => rfl
      rintro ⟨a, ⟨-, -, id, -, -, -, -⟩, -⟩
      exact hid _ (find?_of_field id nofun)
  next hmap =>
    refine .damaged ?_ fun _ => rfl
    rintro ⟨a, ⟨-⟩, -⟩
    exact hmap _ rfl

/-- What is read from a record is what holds all that the record says. -/
theorem fromRecord_ok_iff {r : Plain} (ht : r.Tree) (e : Environment) :
    fromRecord r = .ok e ↔ ∃ a, Reports r a ∧ a.WellFormed ∧ e.Holds a := by
  have hchecks := fromRecord_checks ht
  constructor
  · intro hread
    obtain ⟨a, ha, hgood⟩ := hchecks.ok_iff.1 ⟨e, hread⟩
    obtain ⟨b, hb, he⟩ := hchecks.right_of_ok hread
    exact ⟨a, ha, hgood, hb.unique ha ▸ he⟩
  · rintro ⟨a, ha, hgood, he⟩
    obtain ⟨e', hread⟩ := hchecks.ok_iff.2 ⟨a, ha, hgood⟩
    obtain ⟨b, hb, he'⟩ := hchecks.right_of_ok hread
    rw [hb.unique ha] at he'
    rw [hread, he.unique he']

theorem reordered_tree {r r' : Plain} (h : Reordered r r') (ht : r.Tree) : r'.Tree := by
  obtain ⟨h⟩ := h
  next es fs =>
  refine Plain.tree_map_iff.2 fun f hf => ?_
  obtain ⟨e, he, hkey, hvalue⟩ := forall₂_mem_right h f hf
  obtain ⟨hscalar, htree⟩ := Plain.tree_map_iff.1 ht e he
  refine ⟨hkey ▸ hscalar, ?_⟩
  rcases hvalue with heq | ⟨xs, ys, hxs, hys, hp⟩
  · exact heq ▸ htree
  · rw [hxs, Plain.tree_list_iff] at htree
    rw [hys]
    exact .list fun q hq => htree q (hp.mem_iff.1 hq)

/-- A record with its rows in other orders is read as the same environment. -/
theorem fromRecord_reordered {r r' : Plain} (ht : r.Tree) (h : Reordered r r') {e : Environment}
    (hread : fromRecord r = .ok e) : fromRecord r' = .ok e := by
  obtain ⟨a, ha, hgood, he⟩ := (fromRecord_ok_iff ht e).1 hread
  obtain ⟨b, hb, hp⟩ := h.reports ha
  exact (fromRecord_ok_iff (reordered_tree h ht) e).2 ⟨b, hb, hgood.perm hp, he.perm hp⟩

/-- What becomes of a tree that is to be a record. -/
structure Accepts (r : Plain) : Prop where
  /-- It is read if it is a well-formed record. -/
  read_iff : (∃ e, fromRecord r = .ok e) ↔ ∃ a, Reports r a ∧ a.WellFormed
  /-- What is read holds just what the rows say. -/
  exact_iff : ∀ e, fromRecord r = .ok e ↔ ∃ a, Reports r a ∧ a.WellFormed ∧ e.Holds a
  /-- Otherwise it is refused as damaged, which a number that is too long to be written may keep from being told. -/
  refused : ∀ f, fromRecord r = .error f → f.kind = .corruptSnapshot ∧
    (f.told = f ∨ (r.isWritable = false ∧ f.told = .numeral none))
  /-- The order of the rows in a section does not count. -/
  reordered : ∀ r', Reordered r r' → ∀ e, fromRecord r' = .ok e ↔ fromRecord r = .ok e

/-- A tree is read exactly if it is a well-formed record, and what is read holds just what its rows say, in whatever
order; any other tree is refused as damaged. -/
theorem fromRecord_accepts {r : Plain} (ht : r.Tree) : Accepts r where
  read_iff := (fromRecord_checks ht).ok_iff
  exact_iff := fromRecord_ok_iff ht
  refused f hf := by
    have h := (fromRecord_checks ht).told_or_untold hf
    rwa [Bool.not_eq_true] at h
  reordered r' h e := ⟨fromRecord_reordered (reordered_tree h ht) h.symm, fromRecord_reordered ht h⟩

/-- The row of a node that holds a closure over a triple, and other nodes. -/
def closureRow : Plain := .object [("id", .int 3), ("name", .text "b"), ("structure", .object [("proc",
  .object [("params", .list [.text "x"]), ("body", .object [("node", .list [.int 0, .int 0])]),
    ("frame", .list [.list [.text "k", .object [("node", .list [.int 0, .int 4])]]])])])]

/-- A record with sections in the given orders; its rows refer to rows that come later. -/
def ample (nodes triples : List Plain) : Plain := .object [("triples", .list triples),
  ("format", .text recordFormat), ("version", .int 1), ("id", .int 0), ("next", .int 9), ("nodes", .list nodes),
  ("imports", .list [.object [("id", .int 1), ("name", .text "a"), ("node", .list [.int 7, .int 3])]])]

/-- The nodes of that record. -/
def ampleNodes : List Plain := [closureRow, .object [("id", .int 0), ("name", .null)]]

/-- The triples of that record. -/
def ampleTriples : List Plain :=
  [.object [("id", .int 2), ("s", .int 3), ("p", .int 1), ("o", .int 4)],
    .object [("id", .int 4), ("s", .int 0), ("p", .int 1), ("o", .int 2)]]

theorem ample_accepted : (ample ampleNodes ampleTriples).Tree ∧
    ∃ e a, Reports (ample ampleNodes ampleTriples) a ∧ a.WellFormed ∧ e.Holds a ∧
      fromRecord (ample ampleNodes ampleTriples) = .ok e ∧
      fromRecord (ample ampleNodes.reverse ampleTriples.reverse) = .ok e := by
  have ht : (ample ampleNodes ampleTriples).Tree := by
    simp [ample, ampleNodes, ampleTriples, closureRow]
  have haccepts := fromRecord_accepts ht
  have hreordered : Reordered (ample ampleNodes ampleTriples) (ample ampleNodes.reverse ampleTriples.reverse) :=
    .map (.cons ⟨rfl, .inr ⟨_, _, rfl, rfl, List.reverse_perm _⟩⟩ <| .cons ⟨rfl, .inl rfl⟩ <|
      .cons ⟨rfl, .inl rfl⟩ <| .cons ⟨rfl, .inl rfl⟩ <| .cons ⟨rfl, .inl rfl⟩ <|
      .cons ⟨rfl, .inr ⟨_, _, rfl, rfl, List.reverse_perm _⟩⟩ <| .cons ⟨rfl, .inl rfl⟩ .nil)
  have hsome : (fromRecord (ample ampleNodes ampleTriples)).toOption.isSome = true := by decide +kernel
  cases he : fromRecord (ample ampleNodes ampleTriples) with
  | error fault =>
    rw [he] at hsome
    cases hsome
  | ok e =>
    obtain ⟨a, ha, hgood, hholds⟩ := (haccepts.exact_iff e).1 he
    exact ⟨ht, e, a, ha, hgood, hholds, rfl, (haccepts.reordered _ hreordered e).2 he⟩

/-- A record with a handle that no decimal is long enough for. -/
def overlong : Plain := .object [("format", .text recordFormat), ("version", .int 1), ("id", .int 0), ("next", .int 1),
  ("nodes", .list [.object [("id", .int Decimal.firstTooLong)]])]

/-- Such a record is no well-formed one, and still what is told of it is no damage. -/
theorem overlong_untold : overlong.Tree ∧ ∃ f, fromRecord overlong = .error f ∧ f.told.kind = .misuse := by
  have ht : overlong.Tree := by
    unfold overlong
    -- the number itself does not matter, and nothing may try to spell it
    generalize (Decimal.firstTooLong : Int) = n
    simp
  refine ⟨ht, ?_⟩
  have hrun : (match fromRecord overlong with
      | .ok _ => false
      | .error f => f.told.kind == .misuse) = true := by decide +kernel
  cases hf : fromRecord overlong with
  | ok e =>
    rw [hf] at hrun
    cases hrun
  | error f =>
    rw [hf] at hrun
    exact ⟨f, rfl, eq_of_beq hrun⟩

end Environment

end GraphLisp
