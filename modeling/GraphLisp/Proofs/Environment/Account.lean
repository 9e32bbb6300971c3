import Mathlib.Data.List.Perm.Basic
import GraphLisp.Proofs.Environment.Flattened
/-!
# What records say

An account is what a record says, apart from how it says it: which handles there are, and what each of them
stands for. `Reports r a` is about the record alone, row by row, `Account.WellFormed` about how the rows fit
together, and `Environment.Holds` about an environment that contains just that. An environment is
determined by the account that it holds (`Environment.Holds.unique`), and the order of rows does not
count (`Reordered.reports`).
-/

namespace GraphLisp

open Environment

/-! ## Accounts -/

/-- What the row of a node or an import says. -/
structure Entry where
  handle : Int
  name : Option String
  cell : Cell

/-- The node that an import stands for. -/
def Entry.target? (x : Entry) : Option Node :=
  match x.cell with
  | .proxy target => some target
  | _ => none

/-- What a record says: its counters, and what its rows say section by section. -/
structure Account where
  id : Int
  next : Int
  nodes : List Entry
  imports : List Entry
  triples : List (Int × Statement)

namespace Account

/-- The rows of nodes and imports, which may have names. -/
def entries (a : Account) : List Entry := a.nodes ++ a.imports

/-- The handles of all rows. -/
def handles (a : Account) : List Int := a.entries.map (·.handle) ++ a.triples.map (·.1)

/-- The names in all rows. -/
def names (a : Account) : List String := a.entries.filterMap (·.name)

/-- The nodes that the imports stand for. -/
def targets (a : Account) : List Node := a.entries.filterMap Entry.target?

/-- The rows of a record fit together. Every row has a handle of its own, and one of them is the self node;
names, imported nodes and statements differ; what is mentioned of this environment and what is related are
handles of rows. -/
structure WellFormed (a : Account) : Prop where
  distinct : a.handles.Nodup
  range : ∀ h ∈ a.handles, 0 ≤ h ∧ h < a.next
  self : selfHandle ∈ a.handles
  names : a.names.Nodup
  known : ∀ x ∈ a.nodes, ∀ n ∈ x.cell.mentions, n.env = a.id → n.id ∈ a.handles
  targets : a.targets.Nodup
  abroad : ∀ t ∈ a.targets, t.env ≠ a.id
  parts : ∀ t ∈ a.triples, ∀ h ∈ [t.2.subject, t.2.predicate, t.2.object], h ∈ a.handles
  statements : (a.triples.map (·.2)).Nodup

/-- The same rows in other orders. -/
structure Perm (a b : Account) : Prop where
  id : b.id = a.id
  next : b.next = a.next
  nodes : b.nodes.Perm a.nodes
  imports : b.imports.Perm a.imports
  triples : b.triples.Perm a.triples

section
variable {a b : Account}

theorem Perm.entries (h : a.Perm b) : b.entries.Perm a.entries := h.nodes.append h.imports

theorem Perm.handles (h : a.Perm b) : b.handles.Perm a.handles :=
  (h.entries.map _).append (h.triples.map _)

theorem WellFormed.perm (h : a.WellFormed) (hp : a.Perm b) : b.WellFormed where
  distinct := hp.handles.nodup_iff.2 h.distinct
  range k hk := by
    rw [hp.next]
    exact h.range k (hp.handles.mem_iff.1 hk)
  self := hp.handles.mem_iff.2 h.self
  names := (hp.entries.filterMap _).nodup_iff.2 h.names
  known x hx n hn hid := hp.handles.mem_iff.2 (h.known x (hp.nodes.mem_iff.1 hx) n hn (hid.trans hp.id))
  targets := (hp.entries.filterMap _).nodup_iff.2 h.targets
  abroad t ht := by
    rw [hp.id]
    exact h.abroad t ((hp.entries.filterMap _).mem_iff.1 ht)
  parts t ht k hk := hp.handles.mem_iff.2 (h.parts t (hp.triples.mem_iff.1 ht) k hk)
  statements := (hp.triples.map _).nodup_iff.2 h.statements

end

end Account

/-! ## Records -/

/-- A name in a row: null or a text. -/
inductive IsName : Plain → Option String → Prop where
  | null : IsName .null none
  | text (name : String) : IsName (.text name) (some name)

/-- What a row says that a node holds: nothing, or what a payload stands for. -/
inductive IsContent : Plain → Option Structure → Prop where
  | null : IsContent .null none
  | payload {p : Plain} {s : Structure} (hp : p ≠ .null) (hs : p.decode = .ok s) : IsContent p (some s)

/-- The row of a node. -/
inductive IsNodeRow : Plain → Entry → Prop where
  | row {fields : List (Plain × Plain)} {handle : Int} {name : Option String} {content : Option Structure}
      (hid : field fields "id" = .int handle) (hname : IsName (field fields "name") name)
      (hcontent : IsContent (field fields "structure") content) :
      IsNodeRow (.map fields) ⟨handle, name, .plain content⟩

/-- The row of an import. -/
inductive IsImportRow : Plain → Entry → Prop where
  | row {fields : List (Plain × Plain)} {handle : Int} {name : Option String} {target : Node}
      (hid : field fields "id" = .int handle) (hname : IsName (field fields "name") name)
      (hnode : field fields "node" = .list [.int target.env, .int target.id]) :
      IsImportRow (.map fields) ⟨handle, name, .proxy target⟩

/-- The row of a triple. -/
inductive IsTripleRow : Plain → Int × Statement → Prop where
  | row {fields : List (Plain × Plain)} {handle : Int} {st : Statement} (hid : field fields "id" = .int handle)
      (hs : field fields "s" = .int st.subject) (hp : field fields "p" = .int st.predicate)
      (ho : field fields "o" = .int st.object) : IsTripleRow (.map fields) (handle, st)

/-- The rows of a section are those of a list, and none if there is nothing in it. -/
inductive IsSection : Plain → List Plain → Prop where
  | void {p : Plain} (h : p.isVoid = true) : IsSection p []
  | list (rows : List Plain) : IsSection (.list rows) rows

/-- The rows of a section say what is listed. -/
def SectionReports {α : Type} (IsRow : Plain → α → Prop) (p : Plain) (xs : List α) : Prop :=
  ∃ rows, IsSection p rows ∧ List.Forall₂ IsRow rows xs

/-- What a record says, row by row. -/
inductive Reports : Plain → Account → Prop where
  | record {entries : List (Plain × Plain)} {a : Account}
      (format : field entries "format" = .text recordFormat)
      (version : (field entries "version").equal (.int recordVersion) = true)
      (id : field entries "id" = .int a.id) (next : field entries "next" = .int a.next)
      (nodes : SectionReports IsNodeRow (field entries "nodes") a.nodes)
      (imports : SectionReports IsImportRow (field entries "imports") a.imports)
      (triples : SectionReports IsTripleRow (field entries "triples") a.triples) : Reports (.map entries) a

section
variable {p : Plain} {x y : Entry}

theorem IsName.unique {m n : Option String} (hm : IsName p m) (hn : IsName p n) : m = n := by
  cases hm <;> cases hn <;> rfl

theorem IsContent.unique {s t : Option Structure} (hs : IsContent p s) (ht : IsContent p t) : s = t := by
  cases hs with
  | null =>
    cases ht with
    | null => rfl
    | payload hp _ => exact absurd rfl hp
  | payload hp hs =>
    cases ht with
    | null => exact absurd rfl hp
    | payload _ ht => rw [Except.ok.inj (hs.symm.trans ht)]

theorem IsNodeRow.unique (hx : IsNodeRow p x) (hy : IsNodeRow p y) : x = y := by
  obtain ⟨hid, hname, hcontent⟩ := hx
  cases hy with
  | row hid' hname' hcontent' =>
    cases hid.symm.trans hid'
    rw [hname.unique hname', hcontent.unique hcontent']

theorem IsImportRow.unique (hx : IsImportRow p x) (hy : IsImportRow p y) : x = y := by
  cases hx with
  | @row fields handle name target hid hname hnode =>
    cases hy with
    | @row _ _ _ target' hid' hname' hnode' =>
      cases hid.symm.trans hid'
      have htarget : target = target' := by
        obtain ⟨env, id⟩ := target
        obtain ⟨env', id'⟩ := target'
        cases hnode.symm.trans hnode'
        rfl
      rw [hname.unique hname', htarget]

theorem IsImportRow.target_eq {row : List (Plain × Plain)} (hx : IsImportRow (.map row) x) {env k : Int}
    (hnode : field row "node" = .list [.int env, .int k]) : x.target? = some ⟨env, k⟩ := by
  cases hx with
  | @row _ _ _ target _ _ hnode' =>
    obtain ⟨env', k'⟩ := target
    cases hnode.symm.trans hnode'
    rfl

theorem IsTripleRow.unique {t u : Int × Statement} (ht : IsTripleRow p t) (hu : IsTripleRow p u) : t = u := by
  cases ht with
  | @row fields handle st hid hs hp ho =>
    cases hu with
    | @row _ _ st' hid' hs' hp' ho' =>
      cases hid.symm.trans hid'
      have hst : st = st' := by
        obtain ⟨s, r, o⟩ := st
        obtain ⟨s', r', o'⟩ := st'
        cases hs.symm.trans hs'
        cases hp.symm.trans hp'
        cases ho.symm.trans ho'
        rfl
      rw [hst]

theorem IsSection.unique {rows rows' : List Plain} (h : IsSection p rows) (h' : IsSection p rows') : rows = rows' := by
  cases h with
  | void h =>
    cases h' with
    | void _ => rfl
    | list => cases rows' <;> first | rfl | cases h
  | list =>
    cases h' with
    | void h => cases rows <;> first | rfl | cases h
    | list => rfl

theorem SectionReports.unique {α : Type} {R : Plain → α → Prop} (hR : Relator.RightUnique R) {xs ys : List α}
    (hx : SectionReports R p xs) (hy : SectionReports R p ys) : xs = ys := by
  obtain ⟨rows, hrows, hx⟩ := hx
  obtain ⟨rows', hrows', hy⟩ := hy
  cases hrows.unique hrows'
  exact List.right_unique_forall₂' hR hx hy

theorem nodeRow_unique : Relator.RightUnique IsNodeRow := fun _ _ _ hx hy => hx.unique hy

theorem importRow_unique : Relator.RightUnique IsImportRow := fun _ _ _ hx hy => hx.unique hy

theorem tripleRow_unique : Relator.RightUnique IsTripleRow := fun _ _ _ hx hy => hx.unique hy

/-- A record says one thing. -/
theorem Reports.unique {a b : Account} (ha : Reports p a) (hb : Reports p b) : a = b := by
  cases ha with
  | record _ _ id next nodes imports triples =>
  cases hb with
  | record _ _ id' next' nodes' imports' triples' =>
  obtain ⟨i, n, ns, is, ts⟩ := a
  obtain ⟨i', n', ns', is', ts'⟩ := b
  cases id.symm.trans id'
  cases next.symm.trans next'
  cases nodes.unique nodeRow_unique nodes'
  cases imports.unique importRow_unique imports'
  cases triples.unique tripleRow_unique triples'
  rfl

end

/-! ## The order of rows -/

/-- Records that differ only in the order of the lists under their keys, such as the rows of a section. -/
inductive Reordered : Plain → Plain → Prop where
  | map {es fs : List (Plain × Plain)}
      (h : List.Forall₂ (fun e f => f.1 = e.1 ∧
        (f.2 = e.2 ∨ ∃ xs ys, e.2 = .list xs ∧ f.2 = .list ys ∧ ys.Perm xs)) es fs) :
      Reordered (.map es) (.map fs)

namespace Reordered

theorem symm {r r' : Plain} (h : Reordered r r') : Reordered r' r := by
  obtain ⟨h⟩ := h
  refine .map (h.flip.imp fun f e ⟨hkey, hvalue⟩ => ⟨hkey.symm, ?_⟩)
  rcases hvalue with hvalue | ⟨xs, ys, he, hf, hp⟩
  · exact .inl hvalue.symm
  · exact .inr ⟨ys, xs, hf, he, hp.symm⟩

/-- Under each key there is the same value, or a list in another order. -/
theorem field {es fs : List (Plain × Plain)} (h : Reordered (.map es) (.map fs)) (key : String) :
    field fs key = field es key ∨
      ∃ xs ys, field es key = .list xs ∧ field fs key = .list ys ∧ ys.Perm xs := by
  obtain ⟨h⟩ := h
  unfold Environment.field Plain.find?
  induction h with
  | nil => exact .inl rfl
  | @cons e f es fs hef _ ih =>
    obtain ⟨hkey, hvalue⟩ := hef
    rw [List.find?_cons, List.find?_cons, hkey]
    split
    · exact hvalue
    · exact ih

/-- A section in another order says the same in another order. -/
theorem section_reports {α : Type} {IsRow : Plain → α → Prop} {p q : Plain} {xs : List α} (h : SectionReports IsRow p xs)
    (hq : q = p ∨ ∃ rows rows', p = .list rows ∧ q = .list rows' ∧ rows'.Perm rows) :
    ∃ ys, SectionReports IsRow q ys ∧ ys.Perm xs := by
  rcases hq with rfl | ⟨rows, rows', rfl, rfl, hp⟩
  · exact ⟨xs, h, .refl xs⟩
  · obtain ⟨given, hgiven, hall⟩ := h
    have hrows : given = rows := by
      cases hgiven with
      | void h => cases rows <;> first | rfl | cases h
      | list => rfl
    subst hrows
    obtain ⟨ys, hys, hperm⟩ := List.perm_comp_forall₂ hp hall
    exact ⟨ys, ⟨rows', .list rows', hys⟩, hperm⟩

/-- What a record says does not depend on the order of its rows. -/
theorem reports {r r' : Plain} (h : Reordered r r') {a : Account} (ha : Reports r a) : ∃ b, Reports r' b ∧ a.Perm b := by
  cases h with
  | @map es fs hall =>
  have h : Reordered (.map es) (.map fs) := .map hall
  cases ha with
  | record format version id next nodes imports triples =>
  have hscalar : ∀ key, (∀ xs, Environment.field es key ≠ .list xs) →
      Environment.field fs key = Environment.field es key := fun key hkey =>
    (h.field key).resolve_right fun ⟨xs, _, hxs, _⟩ => hkey xs hxs
  obtain ⟨ns, hns, hnp⟩ := section_reports nodes (h.field "nodes")
  obtain ⟨is, his, hip⟩ := section_reports imports (h.field "imports")
  obtain ⟨ts, hts, htp⟩ := section_reports triples (h.field "triples")
  refine ⟨⟨a.id, a.next, ns, is, ts⟩, .record ?_ ?_ ?_ ?_ hns his hts, ⟨rfl, rfl, hnp, hip, htp⟩⟩
  · rw [hscalar "format" (by rw [format]; exact nofun), format]
  · have hversion : ∀ xs, Environment.field es "version" ≠ .list xs := by
      intro xs hxs
      rw [hxs] at version
      cases version
    rw [hscalar "version" hversion, version]
  · rw [hscalar "id" (by rw [id]; exact nofun), id]
  · rw [hscalar "next" (by rw [next]; exact nofun), next]

end Reordered

/-! ## Environments -/

/-- The tables of an environment list what the rows of an account say, and nothing else. -/
structure Environment.Lists (e : Environment) (a : Account) : Prop where
  cells : ∀ (h : Int) (c : Cell), e.nodes.cells[h]? = some c ↔
    (∃ x ∈ a.entries, x.handle = h ∧ x.cell = c) ∨ (c = .triple ∧ h ∈ a.triples.map (·.1))
  nameOf : ∀ (h : Int) (s : String), e.nodes.nameOf[h]? = some s ↔ ∃ x ∈ a.entries, x.handle = h ∧ x.name = some s
  statements : ∀ (h : Int) (st : Statement), e.triples.statements[h]? = some st ↔ (h, st) ∈ a.triples

/-- An environment holds what an account says, and nothing else: whatever the account leaves open follows from
what it says. -/
structure Environment.Holds (e : Environment) (a : Account) : Prop extends e.Lists a where
  id : e.id = a.id
  next : e.nodes.next = a.next
  standalone : e.Standalone

namespace Environment.Holds

variable {e e' : Environment} {a b : Account}

/-- There is one environment that holds an account. -/
theorem unique (h : e.Holds a) (h' : e'.Holds a) : e' = e := by
  refine h.standalone.ext h'.standalone (h'.id.trans h.id.symm) (h'.next.trans h.next.symm) ?_
  have hcells : e'.nodes.cells = e.nodes.cells := table_ext fun k c => (h'.cells k c).trans (h.cells k c).symm
  have hnameOf : e'.nodes.nameOf = e.nodes.nameOf := table_ext fun k s => (h'.nameOf k s).trans (h.nameOf k s).symm
  have hstatements : e'.triples.statements = e.triples.statements :=
    table_ext fun k st => (h'.statements k st).trans (h.statements k st).symm
  unfold contents
  rw [hcells, hnameOf, hstatements]

theorem perm (h : e.Holds a) (hp : a.Perm b) : e.Holds b where
  id := h.id.trans hp.id.symm
  next := h.next.trans hp.next.symm
  cells k c := by
    simp only [h.cells, hp.entries.mem_iff, (hp.triples.map (·.1)).mem_iff]
  nameOf k s := by
    simp only [h.nameOf, hp.entries.mem_iff]
  statements k st := (h.statements k st).trans hp.triples.mem_iff.symm
  standalone := h.standalone

/-- The live handles are those of the rows. -/
theorem live_iff (h : e.Holds a) (k : Int) : k ∈ e.nodes.cells ↔ k ∈ a.handles := by
  rw [mem_iff_exists_getElem?]
  simp only [h.cells, Account.handles, List.mem_append, List.mem_map]
  constructor
  · rintro ⟨c, ⟨x, hx, rfl, -⟩ | ⟨-, hk⟩⟩
    · exact .inl ⟨x, hx, rfl⟩
    · exact .inr hk
  · rintro (⟨x, hx, rfl⟩ | hk)
    · exact ⟨x.cell, .inl ⟨x, hx, rfl, rfl⟩⟩
    · exact ⟨.triple, .inr ⟨rfl, hk⟩⟩

end Environment.Holds

end GraphLisp
