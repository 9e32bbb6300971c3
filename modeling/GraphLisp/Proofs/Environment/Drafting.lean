import GraphLisp.Proofs.Environment.Account
import GraphLisp.Proofs.Tree
/-!
# Rows taken in

Each row of a record is refused exactly if it is no row of its section or does not fit together with the rows
before it (`readNode_checks`, `readImport_checks`, `reserveTriple_checks`, `readTriple_checks`). `Drafted` says
what is there after some rows of nodes and imports: what they say, and nothing else. Whether a row is good
depends on the rows before it (`Joins`), but whether all of them are depends on all of them together (`Fits`).
-/

namespace GraphLisp

open Std

namespace Environment

variable {w : Prop} {id next : Int} {e : Environment} {ps : Pending}

/-! ## Fields -/

theorem field_part {row : List (Plain × Plain)} (h : (Plain.map row).Tree) (key : String) :
    (Plain.map row).Part (field row key) := by
  unfold field
  cases hp : Plain.find? row key with
  | none => exact ⟨.scalar rfl, Nat.zero_le _, fun _ => rfl⟩
  | some p => exact (Plain.part_find? h hp).1

theorem reserve_checks (e : Environment) (row : List (Plain × Plain)) (c : Cell)
    (hw : w → (field row "id").isWritable = true) :
    Checks w (∃ h, field row "id" = .int h ∧ (0 ≤ h ∧ h < e.nodes.next) ∧ h ∉ e.nodes.cells)
      (fun r => ∃ h, field row "id" = .int h ∧ (0 ≤ h ∧ h < e.nodes.next) ∧ h ∉ e.nodes.cells ∧
        r = (h, { e with nodes.cells := e.nodes.cells.insert h c }))
      (e.reserve row c) := by
  unfold reserve
  split
  · next h hid =>
    split
    · refine .damaged ?_ fun h => hid ▸ hw h
      rintro ⟨k, hk, hrange, -⟩
      cases hid.symm.trans hk
      omega
    · split
      · next hrange hlive =>
        refine .damaged ?_ fun h => by rw [hid] at hw; exact hw h
        rintro ⟨k, hk, -, hfree⟩
        cases hid.symm.trans hk
        exact hfree hlive
      · next hrange hlive => exact .passed ⟨h, hid, by omega, hlive⟩ ⟨h, hid, by omega, hlive, rfl⟩
  · next hid => exact .damaged (fun ⟨k, hk, _⟩ => hid k hk) hw

/-- A handle without a name gets the name in its row, if the name is free. -/
theorem nameRow_checks (row : List (Plain × Plain)) {h : Int} (hn : e.nodes.Named) (hh : h ∈ e.nodes.cells)
    (hnone : e.nodes.nameOf[h]? = none) (hw : w → Decimal.isWritable h = true) :
    Checks w (∃ name, IsName (field row "name") name ∧ ∀ s, name = some s → e.nodes.names[s]? = none)
      (fun e' => ∃ name names nameOf, IsName (field row "name") name ∧
        (∀ s, name = some s → e.nodes.names[s]? = none) ∧
        e' = { e with nodes := { e.nodes with names, nameOf } } ∧
        ∀ (k : Int) (s : String), nameOf[k]? = some s ↔ (k = h ∧ name = some s) ∨ e.nodes.nameOf[k]? = some s)
      (e.nameRow h row) := by
  unfold nameRow
  split
  · next hname =>
    exact .passed ⟨none, hname ▸ .null, nofun⟩ ⟨none, _, _, hname ▸ .null, nofun, rfl, fun k s => by simp⟩
  · next s hname =>
    have hgood : IsName (field row "name") (some s) := hname ▸ .text s
    cases hs : e.nodes.names[s]? with
    | none =>
      obtain ⟨names, hb, -⟩ := NodeTable.bindName_ok hn hh (.inl hs)
      have hfree : ∀ t, some s = some t → e.nodes.names[t]? = none := fun t ht => Option.some.inj ht ▸ hs
      rw [hb]
      refine .passed ⟨_, hgood, hfree⟩ ⟨_, names, _, hgood, hfree, rfl, fun k t => ?_⟩
      rw [getElem?_insert_iff, Option.some.injEq]
      constructor
      · rintro (⟨rfl, rfl⟩ | ⟨-, hk⟩)
        · exact .inl ⟨rfl, rfl⟩
        · exact .inr hk
      · rintro (⟨rfl, rfl⟩ | hk)
        · exact .inl ⟨rfl, rfl⟩
        · refine .inr ⟨?_, hk⟩
          rintro rfl
          cases hnone.symm.trans hk
    | some k =>
      have hkh : k ≠ h := by
        rintro rfl
        cases hnone.symm.trans ((hn.inverse s k).1 hs)
      rw [NodeTable.bindName_taken hs hkh]
      refine .damaged ?_ fun _ => rfl
      rintro ⟨name, hname', hfree⟩
      cases hgood.unique hname'
      cases hs.symm.trans (hfree s rfl)
  · next hnull htext =>
    refine .damaged ?_ hw
    rintro ⟨name, hname, -⟩
    cases hp : field row "name" <;> rw [hp] at hname hnull htext <;> cases hname
    · exact hnull rfl
    · exact htext _ rfl

/-! ## Entries -/

/-- Rows of nodes and imports that fit together: handles below the counter that differ, names that differ,
and imports of different nodes of other environments. -/
structure Fits (id next : Int) (xs : List Entry) : Prop where
  distinct : (xs.map (·.handle)).Nodup
  range : ∀ x ∈ xs, 0 ≤ x.handle ∧ x.handle < next
  names : (xs.filterMap (·.name)).Nodup
  targets : (xs.filterMap Entry.target?).Nodup
  abroad : ∀ t ∈ xs.filterMap Entry.target?, t.env ≠ id

theorem Fits.left {xs ys : List Entry} (h : Fits id next (xs ++ ys)) : Fits id next xs where
  distinct := (List.nodup_append.1 (List.map_append ▸ h.distinct)).1
  range x hx := h.range x (List.mem_append_left ys hx)
  names := (List.nodup_append.1 (List.filterMap_append ▸ h.names)).1
  targets := (List.nodup_append.1 (List.filterMap_append ▸ h.targets)).1
  abroad t ht := h.abroad t (by rw [List.filterMap_append]; exact List.mem_append_left _ ht)

/-- A row fits to those before it. -/
structure Joins (id next : Int) (done : List Entry) (x : Entry) : Prop where
  fresh : ∀ y ∈ done, y.handle ≠ x.handle
  range : 0 ≤ x.handle ∧ x.handle < next
  name : ∀ y ∈ done, ∀ s, y.name = some s → x.name ≠ some s
  target : ∀ t, x.target? = some t → t.env ≠ id ∧ ∀ y ∈ done, y.target? ≠ some t

theorem nodup_concat_iff {α : Type} {xs : List α} {x : α} : (xs ++ [x]).Nodup ↔ xs.Nodup ∧ x ∉ xs := by
  rw [List.nodup_append]
  constructor
  · rintro ⟨h, -, hx⟩
    exact ⟨h, fun hm => hx x hm x (List.mem_singleton_self x) rfl⟩
  · rintro ⟨h, hx⟩
    refine ⟨h, by simp, fun a ha b hb hab => hx ?_⟩
    rwa [← List.mem_singleton.1 hb, ← hab]

theorem nodup_filterMap_concat_iff {α β : Type} {f : α → Option β} {xs : List α} {x : α} :
    ((xs ++ [x]).filterMap f).Nodup ↔
      (xs.filterMap f).Nodup ∧ ∀ y ∈ xs, ∀ b, f y = some b → f x ≠ some b := by
  rw [List.filterMap_append]
  cases hx : f x with
  | none => simp [hx]
  | some b =>
    have hsingle : [x].filterMap f = [b] := by simp [hx]
    rw [hsingle, nodup_concat_iff, List.mem_filterMap]
    refine and_congr_right fun _ => ⟨?_, ?_⟩
    · rintro h y hy c hc hcb
      exact h ⟨y, hy, hcb ▸ hc⟩
    · rintro h ⟨y, hy, hyb⟩
      exact h y hy b hyb rfl

theorem fits_concat_iff {done : List Entry} {x : Entry} :
    Fits id next (done ++ [x]) ↔ Fits id next done ∧ Joins id next done x := by
  constructor
  · intro h
    refine ⟨h.left, ?_, h.range x (by simp), (nodup_filterMap_concat_iff.1 h.names).2, fun t ht => ⟨?_, ?_⟩⟩
    · have hd := h.distinct
      rw [List.map_append, List.map_singleton, nodup_concat_iff] at hd
      exact fun y hy hyx => hd.2 (List.mem_map.2 ⟨y, hy, hyx⟩)
    · exact h.abroad t (List.mem_filterMap.2 ⟨x, by simp, ht⟩)
    · exact fun y hy hyt => (nodup_filterMap_concat_iff.1 h.targets).2 y hy t hyt ht
  · rintro ⟨h, ha⟩
    constructor
    case distinct =>
      rw [List.map_append, List.map_singleton, nodup_concat_iff]
      refine ⟨h.distinct, fun hx => ?_⟩
      obtain ⟨y, hy, hyx⟩ := List.mem_map.1 hx
      exact ha.fresh y hy hyx
    case range =>
      intro y hy
      rcases List.mem_append.1 hy with hy | hy
      · exact h.range y hy
      · exact List.mem_singleton.1 hy ▸ ha.range
    case names => exact nodup_filterMap_concat_iff.2 ⟨h.names, ha.name⟩
    case targets => exact nodup_filterMap_concat_iff.2 ⟨h.targets, fun y hy t hyt hxt => (ha.target t hxt).2 y hy hyt⟩
    case abroad =>
      intro t ht
      obtain ⟨y, hy, hyt⟩ := List.mem_filterMap.1 ht
      rcases List.mem_append.1 hy with hy | hy
      · exact h.abroad t (List.mem_filterMap.2 ⟨y, hy, hyt⟩)
      · cases List.mem_singleton.1 hy
        exact (ha.target t hyt).1

/-! ## Nodes and imports -/

/-- What is there after some rows: what they say, and nothing else. -/
structure Drafted (id next : Int) (done : List Entry) (sofar : Environment × Pending) : Prop where
  draft : Draft id next sofar.1 sofar.2
  cells : ∀ h, h ∈ sofar.1.nodes.cells ↔ ∃ x ∈ done, x.handle = h
  nameOf : ∀ (h : Int) (s : String), sofar.1.nodes.nameOf[h]? = some s ↔ ∃ x ∈ done, x.handle = h ∧ x.name = some s
  pending : ∀ h c, (h, c) ∈ sofar.2 ↔ c ≠ .plain none ∧ ∃ x ∈ done, x.handle = h ∧ x.cell = c

/-- One more row has been taken in. -/
structure Takes (x : Entry) (sofar sofar' : Environment × Pending) : Prop where
  cells : ∀ k, k ∈ sofar'.1.nodes.cells ↔ k = x.handle ∨ k ∈ sofar.1.nodes.cells
  nameOf : ∀ (k : Int) (s : String), sofar'.1.nodes.nameOf[k]? = some s ↔
    (k = x.handle ∧ x.name = some s) ∨ sofar.1.nodes.nameOf[k]? = some s
  pending : ∀ k c, (k, c) ∈ sofar'.2 ↔ (c ≠ .plain none ∧ k = x.handle ∧ c = x.cell) ∨ (k, c) ∈ sofar.2

theorem exists_mem_concat {α : Type} {xs : List α} {x : α} {P : α → Prop} :
    (∃ y ∈ xs ++ [x], P y) ↔ P x ∨ ∃ y ∈ xs, P y := by
  simp only [List.mem_append, List.mem_singleton, or_and_right, exists_or, exists_eq_left]
  exact or_comm

section
variable {done : List Entry} {sofar sofar' : Environment × Pending}

theorem mem_pending_concat (ps : Pending) (h : Int) {c : Cell} (hc : c ≠ .plain none) (k : Int) (d : Cell) :
    (k, d) ∈ ps ++ [(h, c)] ↔ (d ≠ .plain none ∧ k = h ∧ d = c) ∨ (k, d) ∈ ps := by
  rw [List.mem_append, List.mem_singleton, Prod.mk.injEq, or_comm]
  exact or_congr_left ⟨fun ⟨hk, hd⟩ => ⟨hd ▸ hc, hk, hd⟩, And.right⟩

theorem drafted_start (id next : Int) : Drafted id next [] ({ blank id with nodes.next := next }, []) where
  draft := draft_start id next
  cells h := by simp [blank, NodeTable.empty]
  nameOf h s := by simp [blank, NodeTable.empty]
  pending h c := by simp

theorem Drafted.take (hd : Drafted id next done sofar) {x : Entry} (ht : Takes x sofar sofar')
    (hdraft : Draft id next sofar'.1 sofar'.2) : Drafted id next (done ++ [x]) sofar' where
  draft := hdraft
  cells k := by rw [ht.cells, hd.cells, exists_mem_concat, eq_comm]
  nameOf k s := by rw [ht.nameOf, hd.nameOf, exists_mem_concat, eq_comm]
  pending k c := by
    rw [ht.pending, hd.pending, exists_mem_concat, ← and_or_left, eq_comm (a := k), eq_comm (a := c)]

theorem Drafted.free (hd : Drafted id next done sofar) {h : Int} (hh : h ∉ sofar.1.nodes.cells) :
    sofar.1.nodes.nameOf[h]? = none :=
  Option.eq_none_iff_forall_ne_some.2 fun s hs => hh (hd.draft.named.live h s hs)

theorem Drafted.fresh_iff (hd : Drafted id next done sofar) (h : Int) :
    h ∉ sofar.1.nodes.cells ↔ ∀ y ∈ done, y.handle ≠ h := by
  simp [hd.cells]

/-- The names that are free are those of no row. -/
theorem Drafted.name_free_iff (hd : Drafted id next done sofar) (s : String) :
    sofar.1.nodes.names[s]? = none ↔ ∀ y ∈ done, y.name ≠ some s := by
  rw [Option.eq_none_iff_forall_ne_some]
  simp only [ne_eq, hd.draft.named.inverse, hd.nameOf, not_exists, not_and]
  exact ⟨fun h y hy hs => h y.handle y hy rfl hs, fun h k y hy _ hs => h y hy hs⟩

theorem target?_eq_some_iff {x : Entry} {t : Node} : x.target? = some t ↔ x.cell = .proxy t := by
  unfold Entry.target?
  cases x.cell <;> simp

/-- The nodes that have a stand-in are those of the rows of imports. -/
theorem Drafted.import_free_iff (hd : Drafted id next done sofar) (t : Node) :
    t ∉ sofar.1.nodes.imports ↔ ∀ y ∈ done, y.target? ≠ some t := by
  rw [mem_iff_exists_getElem?]
  simp only [hd.draft.imports, hd.pending, target?_eq_some_iff, ne_eq, not_exists, not_and]
  exact ⟨fun h y hy ht => h y.handle (by simp) y hy rfl ht, fun h k _ y hy _ ht => h y hy ht⟩

/-- The handle of a row is reserved exactly if it is in range and no row before has it. -/
theorem Drafted.reserve_checks (hd : Drafted id next done (e, ps)) {row : List (Plain × Plain)}
    (hw : w → (field row "id").isWritable = true) :
    Checks w (∃ h, field row "id" = .int h ∧ (0 ≤ h ∧ h < next) ∧ ∀ y ∈ done, y.handle ≠ h)
      (fun r => ∃ h, field row "id" = .int h ∧ (0 ≤ h ∧ h < next) ∧ (∀ y ∈ done, y.handle ≠ h) ∧
        h ∉ e.nodes.cells ∧ r = (h, { e with nodes.cells := e.nodes.cells.insert h (.plain none) }))
      (e.reserve row (.plain none)) := by
  have hnext : e.nodes.next = next := hd.draft.next_eq
  have hfresh : ∀ h, h ∉ e.nodes.cells ↔ ∀ y ∈ done, y.handle ≠ h := hd.fresh_iff
  refine (Environment.reserve_checks e row (.plain none) hw).mono ?_ ?_
  · simp only [hnext, hfresh]
  · rintro r ⟨h, hid, hrange, hfree, hr⟩
    exact ⟨h, hid, hnext ▸ hrange, (hfresh h).1 hfree, hfree, hr⟩

/-- A row names its handle exactly if it has a name, if any, that no row before has. -/
theorem Drafted.nameRow_checks (hd : Drafted id next done (e, ps)) {e' : Environment} (row : List (Plain × Plain))
    {h : Int} (hn : e'.nodes.Named) (hh : h ∈ e'.nodes.cells) (hfree : h ∉ e.nodes.cells)
    (hnames : e'.nodes.names = e.nodes.names) (hnameOf : e'.nodes.nameOf = e.nodes.nameOf)
    (hw : w → Decimal.isWritable h = true) :
    Checks w (∃ name, IsName (field row "name") name ∧ ∀ y ∈ done, ∀ s, y.name = some s → name ≠ some s)
      (fun r => ∃ name names nameOf, IsName (field row "name") name ∧
        (∀ y ∈ done, ∀ s, y.name = some s → name ≠ some s) ∧
        r = { e' with nodes := { e'.nodes with names, nameOf } } ∧
        ∀ (k : Int) (s : String), nameOf[k]? = some s ↔ (k = h ∧ name = some s) ∨ e.nodes.nameOf[k]? = some s)
      (e'.nameRow h row) := by
  have hunbound : ∀ name : Option String, (∀ s, name = some s → e'.nodes.names[s]? = none) ↔
      ∀ y ∈ done, ∀ s, y.name = some s → name ≠ some s := by
    intro name
    simp only [hnames, hd.name_free_iff]
    exact ⟨fun h y hy s hys hs => h s hs y hy hys, fun h s hs y hy hys => h y hy s hys hs⟩
  have hnone : e'.nodes.nameOf[h]? = none := by
    rw [hnameOf]
    exact hd.free hfree
  refine (Environment.nameRow_checks row hn hh hnone hw).mono ?_ ?_
  · simp only [hunbound]
  · rintro r ⟨name, names, nameOf, hname, hun, hr, hentries⟩
    exact ⟨name, names, nameOf, hname, (hunbound name).1 hun, hr, hnameOf ▸ hentries⟩

end

section
variable {done : List Entry} {found : Plain}

/-- The row of a node is taken in exactly if it is one and fits to those before it. -/
theorem readNode_checks (hd : Drafted id next done (e, ps)) (ht : found.Tree) (hw : w → found.isWritable = true) :
    Checks w (∃ x, IsNodeRow found x ∧ Joins id next done x)
      (fun b => ∃ x, IsNodeRow found x ∧ Joins id next done x ∧ Takes x (e, ps) b)
      (readNode (e, ps) found) := by
  unfold readNode
  rw [ht.opened]
  split
  next e₀ ps₀ row heq =>
    cases heq
    have hfield := fun key => (field_part ht key)
    have hid := fun h => (hfield "id").writable (hw h)
    refine (hd.reserve_checks hid).bind ?_ ?_
    · rintro ⟨_, ⟨hid, -, -⟩, hj⟩
      exact ⟨_, hid, hj.range, hj.fresh⟩
    rintro _ ⟨h, hid', hrange, hfresh, hfree, rfl⟩
    have hwritable : w → Decimal.isWritable h = true := fun h => by rw [hid'] at hid; exact hid h
    have hlive : h ∈ e.nodes.cells.insert h (.plain none) := (mem_insert_iff _ _ _ _).2 (.inl rfl)
    have hd₁ := hd.draft.reserve hrange.1 hrange.2
    refine (hd.nameRow_checks row hd₁.named hlive hfree rfl rfl hwritable).bind ?_ ?_
    · rintro ⟨_, ⟨-, hname, -⟩, hj⟩
      exact ⟨_, hname, hj.name⟩
    rintro _ ⟨name, names, nameOf, hname, hunbound, rfl, hnameOf⟩
    -- whatever the node holds, its row fits to the others
    have hjoins : ∀ content, Joins id next done ⟨h, name, .plain content⟩ := fun content =>
      ⟨hfresh, hrange, hunbound, nofun⟩
    split
    · next hnull =>
      have hx : IsNodeRow (.map row) ⟨h, name, .plain none⟩ := .row hid' hname (hnull ▸ .null)
      refine .passed ⟨_, hx, hjoins _⟩ ⟨_, hx, hjoins _, fun k => mem_insert_iff _ _ _ _, hnameOf, fun k c => ?_⟩
      refine ⟨.inr, fun hk => hk.resolve_left ?_⟩
      rintro ⟨hne, -, rfl⟩
      exact hne rfl
    · next hnull =>
      have hpart := hfield "structure"
      have htells := (Plain.decode_tells hpart.tree).mono (fun h => hpart.writable (hw h)) fun _ h => h
      refine htells.checks.bind ?_ ?_
      · rintro ⟨_, hx, -⟩
        cases hx with
        | row _ _ hcontent =>
          generalize field row "structure" = p at hcontent hnull
          cases hcontent with
          | null => exact absurd rfl hnull
          | payload _ hs => exact ⟨_, hs⟩
      · rintro s ⟨hs, -⟩
        have hx : IsNodeRow (.map row) ⟨h, name, .plain (some s)⟩ := .row hid' hname (.payload hnull hs)
        refine .passed ⟨_, hx, hjoins _⟩ ⟨_, hx, hjoins _, fun k => mem_insert_iff _ _ _ _, hnameOf, ?_⟩
        exact mem_pending_concat ps h (c := .plain (some s)) (by simp)
  next hrow =>
    refine .damaged ?_ hw
    rintro ⟨_, ⟨-, -, -⟩, -⟩
    exact hrow _ _ _ rfl rfl

/-- The row of an import is taken in exactly if it is one and fits to those before it. -/
theorem readImport_checks (hd : Drafted id next done (e, ps)) (ht : found.Tree) (hw : w → found.isWritable = true) :
    Checks w (∃ x, IsImportRow found x ∧ Joins id next done x)
      (fun b => ∃ x, IsImportRow found x ∧ Joins id next done x ∧ Takes x (e, ps) b)
      (readImport (e, ps) found) := by
  unfold readImport
  rw [ht.opened]
  split
  next e₀ ps₀ row heq =>
    cases heq
    have hfield := fun key => (field_part ht key)
    have hid := fun h => (hfield "id").writable (hw h)
    refine (hd.reserve_checks hid).bind ?_ ?_
    · rintro ⟨_, ⟨hid, -, -⟩, hj⟩
      exact ⟨_, hid, hj.range, hj.fresh⟩
    rintro _ ⟨h, hid', hrange, hfresh, hfree, rfl⟩
    have hwritable : w → Decimal.isWritable h = true := fun h => by rw [hid'] at hid; exact hid h
    have hlive : h ∈ e.nodes.cells.insert h (.plain none) := (mem_insert_iff _ _ _ _).2 (.inl rfl)
    have hd₁ := hd.draft.reserve hrange.1 hrange.2
    dsimp only
    split
    · next env k hnode =>
      split
      · next hrefused =>
        refine .damaged ?_ fun h => ?_
        · rintro ⟨x, hx, hj⟩
          obtain ⟨habroad, hnew⟩ := hj.target _ (hx.target_eq hnode)
          rcases hrefused with henv | himports
          · exact habroad (henv.trans hd.draft.id_eq)
          · exact (hd.import_free_iff _).2 hnew himports
        · have htold := Plain.node_isWritable (n := ⟨env, k⟩) (hnode ▸ (hfield "node").writable (hw h))
          rw [Damage.isWritable, Bool.and_eq_true]
          exact ⟨htold, hwritable h⟩
      · next haccepted =>
        rw [not_or] at haccepted
        obtain ⟨habroad, hnew⟩ := haccepted
        have hd₂ := hd₁.postpone_proxy (t := ⟨env, k⟩) hlive (hd.draft.pending_live hfree)
          (by rw [← hd.draft.id_eq]; exact habroad) hnew
        refine (hd.nameRow_checks row hd₂.named hlive hfree rfl rfl hwritable).bind ?_ ?_
        · rintro ⟨_, ⟨-, hname, -⟩, hj⟩
          exact ⟨_, hname, hj.name⟩
        rintro _ ⟨name, names, nameOf, hname, hunbound, rfl, hnameOf⟩
        have hx : IsImportRow (.map row) ⟨h, name, .proxy ⟨env, k⟩⟩ := .row hid' hname hnode
        have hjoins : Joins id next done ⟨h, name, .proxy ⟨env, k⟩⟩ := by
          refine ⟨hfresh, hrange, hunbound, fun t ht => ?_⟩
          cases ht
          exact ⟨fun henv => habroad (henv.trans hd.draft.id_eq.symm), (hd.import_free_iff _).1 hnew⟩
        refine .passed ⟨_, hx, hjoins⟩ ⟨_, hx, hjoins, fun k => mem_insert_iff _ _ _ _, hnameOf, ?_⟩
        exact mem_pending_concat ps h (c := .proxy ⟨env, k⟩) (by simp)
    · next hnode =>
      refine .damaged ?_ hwritable
      rintro ⟨_, ⟨-, -, hnode'⟩, -⟩
      exact hnode _ _ hnode'
  next hrow =>
    refine .damaged ?_ hw
    rintro ⟨_, ⟨-, -, -⟩, -⟩
    exact hrow _ _ _ rfl rfl

end

/-! ## Triples -/

/-- A row of a triple, as far as its handle goes. -/
inductive IsTripleId : Plain → Int → Prop where
  | row {fields : List (Plain × Plain)} {handle : Int} (hid : field fields "id" = .int handle) :
      IsTripleId (.map fields) handle

theorem IsTripleId.unique {p : Plain} {h k : Int} (hh : IsTripleId p h) (hk : IsTripleId p k) : h = k := by
  obtain ⟨hid⟩ := hh
  cases hk with
  | row hid' =>
    cases hid.symm.trans hid'
    rfl

theorem tripleId_of_row {p : Plain} {t : Int × Statement} (h : IsTripleRow p t) : IsTripleId p t.1 := by
  cases h with
  | row hid _ _ _ => exact .row hid

section
variable {found : Plain}

/-- The handle of a triple is reserved exactly if the row has one and it is free. -/
theorem reserveTriple_checks (e : Environment) (ht : found.Tree) (hw : w → found.isWritable = true) :
    Checks w (∃ h, IsTripleId found h ∧ (0 ≤ h ∧ h < e.nodes.next) ∧ h ∉ e.nodes.cells)
      (fun e' => ∃ h, IsTripleId found h ∧ (0 ≤ h ∧ h < e.nodes.next) ∧ h ∉ e.nodes.cells ∧
        e' = { e with nodes.cells := e.nodes.cells.insert h .triple })
      (reserveTriple e found) := by
  unfold reserveTriple
  rw [ht.opened]
  split
  next row =>
    refine (reserve_checks e row .triple fun h => (field_part ht "id").writable (hw h)).bind ?_ ?_
    · rintro ⟨h, hid, hfree⟩
      cases hid with
      | row hid => exact ⟨h, hid, hfree⟩
    · rintro _ ⟨h, hid, hrange, hfree, rfl⟩
      exact .passed ⟨h, .row hid, hrange, hfree⟩ ⟨h, .row hid, hrange, hfree, rfl⟩
  next hrow =>
    refine .damaged ?_ hw
    rintro ⟨_, hid, -⟩
    cases hid with
    | row => exact hrow _ rfl

theorem triplePart_checks (e : Environment) {row : List (Plain × Plain)} (key : String) (ht : (Plain.map row).Tree)
    (hw : w → (Plain.map row).isWritable = true) :
    Checks w (∃ k, field row key = .int k ∧ k ∈ e.nodes.cells)
      (fun k => field row key = .int k ∧ k ∈ e.nodes.cells) (e.triplePart row key) := by
  have hid := fun h => (field_part ht "id").writable (hw h)
  have hkey := fun h => (field_part ht key).writable (hw h)
  unfold triplePart
  split
  · next k hk =>
    rw [hk] at hkey
    split
    · next hlive => exact .passed ⟨k, hk, hlive⟩ ⟨hk, hlive⟩
    · next hlive =>
      refine .damaged ?_ fun h => Bool.and_eq_true_iff.2 ⟨hid h, hkey h⟩
      rintro ⟨k', hk', hlive'⟩
      cases hk.symm.trans hk'
      exact hlive hlive'
  · next hk =>
    exact .damaged (fun ⟨k, hk', _⟩ => hk k hk') fun h => Bool.and_eq_true_iff.2 ⟨hid h, hkey h⟩

/-- Every part of a statement is live. -/
def Relates (e : Environment) (st : Statement) : Prop :=
  ∀ k ∈ [st.subject, st.predicate, st.object], k ∈ e.nodes.cells

/-- The statement of a row is stored exactly if its parts are live and it is new. -/
theorem readTriple_checks (e : Environment) {h : Int} (hid : IsTripleId found h) (ht : found.Tree)
    (hw : w → found.isWritable = true) :
    Checks w (∃ st, IsTripleRow found (h, st) ∧ e.Relates st ∧ e.triples.find? st = none)
      (fun e' => ∃ st, IsTripleRow found (h, st) ∧ e.Relates st ∧ e.triples.find? st = none ∧
        e' = { e with triples := e.triples.insert h st })
      (readTriple e found) := by
  obtain ⟨hid⟩ := hid
  next row =>
  -- the parts that a row has, if it has any, are those of its fields
  have hpart : ∀ key, (∀ st, IsTripleRow (.map row) (h, st) → e.Relates st →
      ∃ k, field row key = .int k ∧ k ∈ e.nodes.cells) →
      (∃ st, IsTripleRow (.map row) (h, st) ∧ e.Relates st ∧ e.triples.find? st = none) →
      ∃ k, field row key = .int k ∧ k ∈ e.nodes.cells := fun key hkey ⟨st, hrow, hlive, _⟩ => hkey st hrow hlive
  unfold readTriple
  dsimp only [Plain.opened]
  refine (triplePart_checks e "s" ht hw).bind (hpart "s" fun st hrow hlive => ?_) fun s ⟨hs, hslive⟩ => ?_
  · cases hrow with
    | row _ hs _ _ => exact ⟨_, hs, hlive _ (by simp)⟩
  refine (triplePart_checks e "p" ht hw).bind (hpart "p" fun st hrow hlive => ?_) fun p ⟨hp, hplive⟩ => ?_
  · cases hrow with
    | row _ _ hp _ => exact ⟨_, hp, hlive _ (by simp)⟩
  refine (triplePart_checks e "o" ht hw).bind (hpart "o" fun st hrow hlive => ?_) fun o ⟨ho, holive⟩ => ?_
  · cases hrow with
    | row _ _ _ ho => exact ⟨_, ho, hlive _ (by simp)⟩
  have hrow : IsTripleRow (.map row) (h, ⟨s, p, o⟩) := .row hid hs hp ho
  have hlive : e.Relates ⟨s, p, o⟩ := by
    intro k hk
    simp only [List.mem_cons, List.not_mem_nil, or_false] at hk
    rcases hk with rfl | rfl | rfl <;> assumption
  rw [hid]
  cases hfind : e.triples.find? ⟨s, p, o⟩ with
  | none => exact .passed ⟨_, hrow, hlive, hfind⟩ ⟨_, hrow, hlive, hfind, rfl⟩
  | some k =>
    refine .damaged ?_ fun h => ?_
    · rintro ⟨st, hrow', -, hnone⟩
      cases hrow.unique hrow'
      cases hfind.symm.trans hnone
    · have hwritable : ∀ (key : String) (k : Int), field row key = .int k → Decimal.isWritable k = true := by
        intro key k hk
        have := (field_part ht key).writable (hw h)
        rwa [hk] at this
      simp only [Damage.isWritable, List.all_cons, List.all_nil, Bool.and_true, Bool.and_eq_true]
      exact ⟨hwritable "s" s hs, hwritable "p" p hp, hwritable "o" o ho⟩

end

/-! ## Cells -/

/-- A cell that mentions what is not there is refused, and so are all that are to be filled in. -/
theorem fillAll_refused {ps : Pending} : ∀ {l : Locale}, (∀ x ∈ ps, x.1 ∈ l.env.nodes.cells) →
    (∃ x ∈ ps, ∃ n ∈ x.2.mentions, n.env = l.env.id ∧ n.id ∉ l.env.nodes.cells) →
    ∃ x ∈ ps, ∃ n ∈ x.2.mentions, ps.foldlM fill l = damaged (.dangling x.1 n.id) := by
  induction ps with
  | nil => exact fun _ ⟨_, hx, _⟩ => (nomatch hx)
  | cons x ps ih =>
    intro l hlive hunknown
    obtain ⟨hx, hlive⟩ := List.forall_mem_cons.1 hlive
    rw [List.foldlM_cons]
    unfold fill
    dsimp only
    split
    · next n hn => exact ⟨x, .head _, n, List.mem_of_find?_eq_some hn, rfl⟩
    · next hnone =>
      have hre := Locale.hold_reindexed l x.1 x.2
      have hcells : ∀ k, k ∈ (l.hold x.1 x.2).env.nodes.cells ↔ k ∈ l.env.nodes.cells := by
        intro k
        rw [hre.cells_eq]
        refine (mem_insert_iff _ _ _ _).trans ⟨?_, .inr⟩
        rintro (rfl | hk)
        · exact hx
        · exact hk
      obtain ⟨y, hy, n, hn, hfill⟩ := ih (l := l.hold x.1 x.2) (fun y hy => (hcells _).2 (hlive y hy)) <| by
        obtain ⟨y, hy, n, hn, henv, hk⟩ := hunknown
        rcases List.mem_cons.1 hy with rfl | hy
        · have hfound := List.find?_eq_none.1 hnone n hn
          simp [henv, hk] at hfound
        · exact ⟨y, hy, n, hn, henv.trans hre.id_eq.symm, fun h => hk ((hcells _).1 h)⟩
      exact ⟨y, .tail _ hy, n, hn, hfill⟩

end Environment

end GraphLisp
