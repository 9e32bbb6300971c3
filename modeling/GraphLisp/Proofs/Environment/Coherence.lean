import GraphLisp.Proofs.Environment.References
import GraphLisp.Proofs.Environment.Tables
/-!
# Coherent environments

An environment keeps what it contains in several tables at once. `Contents` is the part that says
it all: the cells, the names of handles and the statements. `Environment.Tabled` and
`Locale.Coherent` say that every other table follows from it, so that coherent environments with
the same contents are equal but for the counter (`Locale.Coherent.eq_of_contents`).
-/

namespace GraphLisp

open Std

/-- What an environment contains. -/
structure Contents where
  cells : ExtTreeMap Int Cell
  nameOf : ExtTreeMap Int String
  statements : ExtTreeMap Int Statement

namespace Contents

/-- A cell put at a handle. -/
def put (g : Contents) (handle : Int) (c : Cell) : Contents :=
  { g with cells := g.cells.insert handle c }

/-- A name given to a handle. -/
def named (g : Contents) (handle : Int) (name : String) : Contents :=
  { g with nameOf := g.nameOf.insert handle name }

/-- A name given to a handle, or none. -/
def called (g : Contents) (handle : Int) : Option String → Contents
  | some name => g.named handle name
  | none => g

/-- A statement stored under a handle. -/
def relate (g : Contents) (handle : Int) (st : Statement) : Contents :=
  ⟨g.cells.insert handle .triple, g.nameOf, g.statements.insert handle st⟩

/-- The name of a handle taken away. -/
def unnamed (g : Contents) (handle : Int) : Contents :=
  { g with nameOf := g.nameOf.erase handle }

/-- A handle removed, with its name and its statement. -/
def without (g : Contents) (handle : Int) : Contents :=
  ⟨g.cells.erase handle, g.nameOf.erase handle, g.statements.erase handle⟩

end Contents

namespace Environment

/-- What the environment contains. -/
def contents (e : Environment) : Contents := ⟨e.nodes.cells, e.nodes.nameOf, e.triples.statements⟩

/-- The tables of names, imports and triples follow from the contents. -/
structure Tabled (e : Environment) : Prop where
  /-- The environment's own node is live. -/
  self : selfHandle ∈ e.nodes.cells
  bounds : ∀ h ∈ e.nodes.cells, 0 ≤ h ∧ h < e.nodes.next
  named : e.nodes.Named
  imports : ∀ (t : Node) (h : Int), e.nodes.imports[t]? = some h ↔ e.nodes.cells[h]? = some (.proxy t)
  /-- A stand-in stands for a node of another environment. -/
  abroad : ∀ (h : Int) (t : Node), e.nodes.cells[h]? = some (.proxy t) → t.env ≠ e.id
  triples : e.triples.Coherent
  statements : ∀ h, h ∈ e.triples.statements ↔ e.nodes.cells[h]? = some .triple

theorem Tabled.fresh_handle {e : Environment} (he : e.Tabled) : e.nodes.next ∉ e.nodes.cells :=
  fun h => Int.lt_irrefl _ (he.bounds _ h).2

theorem Tabled.statement_of_triple {e : Environment} (he : e.Tabled) {h : Int}
    (hh : e.nodes.cells[h]? = some .triple) : ∃ st, e.triples.statements[h]? = some st :=
  (mem_iff_exists_getElem? _ _).1 ((he.statements h).2 hh)

theorem Tabled.no_statement {e : Environment} (he : e.Tabled) {h : Int}
    (hh : e.nodes.cells[h]? ≠ some .triple) : h ∉ e.triples.statements :=
  fun x => hh ((he.statements h).1 x)

/-- A new environment has its own node and nothing else. -/
theorem fresh_cells (id h : Int) (c : Cell) :
    (fresh id).nodes.cells[h]? = some c ↔ h = selfHandle ∧ c = .plain none := by
  refine (getElem?_insert_iff _ _ _ _ _).trans ?_
  simp [NodeTable.empty]

theorem mem_fresh {id h : Int} (hh : h ∈ (fresh id).nodes.cells) : h = selfHandle := by
  obtain ⟨c, hc⟩ := (mem_iff_exists_getElem? _ _).1 hh
  exact ((fresh_cells id h c).1 hc).1

end Environment

namespace Locale

/-- Every table of the environment follows from its contents, the shared references included as
far as they are the environment's own. -/
structure Coherent (l : Locale) : Prop where
  tabled : l.env.Tabled
  filed : l.Filed l.env.Mentions

/-- Names are determined by the names of handles. -/
theorem names_eq {t t' : NodeTable} (ht : t.Named) (ht' : t'.Named) (h : t.nameOf = t'.nameOf) :
    t.names = t'.names :=
  table_ext fun s k => by rw [ht.inverse, ht'.inverse, h]

theorem imports_eq {e e' : Environment} (he : e.Tabled) (he' : e'.Tabled)
    (h : e.nodes.cells = e'.nodes.cells) : e.nodes.imports = e'.nodes.imports :=
  table_ext fun t k => by rw [he.imports, he'.imports, h]

theorem files_eq {m m' : Index Int Int} {statements : ExtTreeMap Int Statement}
    {part : Statement → Int} (hm : m.Files statements part) (hm' : m'.Files statements part) :
    m = m' :=
  hm.tight.ext hm'.tight fun k h => by rw [hm.mem_iff, hm'.mem_iff]

theorem triples_eq {t t' : TripleStore} (ht : t.Coherent) (ht' : t'.Coherent)
    (h : t.statements = t'.statements) : t = t' := by
  obtain ⟨st, hs, bs, bp, bo⟩ := t
  obtain ⟨st', hs', bs', bp', bo'⟩ := t'
  cases h
  have hh : hs = hs' := table_ext fun s k => (ht.inverse s k).trans (ht'.inverse s k).symm
  cases hh
  cases files_eq ht.subjects ht'.subjects
  cases files_eq ht.predicates ht'.predicates
  cases files_eq ht.objects ht'.objects
  rfl

/-- Environments with the same cells and statements are equal but for names and the counter, if their
other tables follow and list the same referrers. -/
theorem eq_but_names {e e' : Environment} (he : e.Tabled) (he' : e'.Tabled) (hid : e'.id = e.id)
    (hpins : e'.pins = e.pins) (hcells : e'.nodes.cells = e.nodes.cells)
    (hst : e'.triples.statements = e.triples.statements) (ht : e.nodes.referrers.Tight)
    (ht' : e'.nodes.referrers.Tight)
    (hr : ∀ k h, h ∈ e'.nodes.referrers.bucket k ↔ h ∈ e.nodes.referrers.bucket k) :
    e' = { e with nodes.names := e'.nodes.names, nodes.nameOf := e'.nodes.nameOf, nodes.next := e'.nodes.next } := by
  have hreferrers := ht'.ext ht hr
  obtain ⟨id, ⟨cells, names, nameOf, referrers, imports, next⟩, triples, pins⟩ := e
  obtain ⟨id', ⟨cells', names', nameOf', referrers', imports', next'⟩, triples', pins'⟩ := e'
  simp only at hid hpins hcells hst hreferrers
  subst hid hpins hcells hreferrers
  have hi := imports_eq he' he rfl
  have htriples := triples_eq he'.triples he.triples hst
  simp only at hi htriples
  subst hi htriples
  rfl

/-- Environments with the same contents are equal but for the counter, if their other tables follow
and list the same referrers. -/
theorem eq_of_tabled {e e' : Environment} (he : e.Tabled) (he' : e'.Tabled) (hid : e'.id = e.id)
    (hpins : e'.pins = e.pins) (hg : e'.contents = e.contents) (ht : e.nodes.referrers.Tight)
    (ht' : e'.nodes.referrers.Tight)
    (hr : ∀ k h, h ∈ e'.nodes.referrers.bucket k ↔ h ∈ e.nodes.referrers.bucket k) :
    e' = { e with nodes.next := e'.nodes.next } := by
  have hnameOf : e'.nodes.nameOf = e.nodes.nameOf := congrArg Contents.nameOf hg
  have hnames := names_eq he'.named he.named hnameOf
  have heq := eq_but_names he he' hid hpins (congrArg Contents.cells hg) (congrArg Contents.statements hg) ht ht' hr
  rw [hnames, hnameOf] at heq
  exact heq

/-- Coherent environments with the same contents are equal but for the counter. -/
theorem Coherent.eq_of_contents {l l' : Locale} (hl : l.Coherent) (hl' : l'.Coherent)
    (hid : l'.env.id = l.env.id) (hpins : l'.env.pins = l.env.pins)
    (hg : l'.env.contents = l.env.contents) :
    l'.env = { l.env with nodes.next := l'.env.nodes.next } := by
  have hcells : l'.env.nodes.cells = l.env.nodes.cells := congrArg Contents.cells hg
  refine eq_of_tabled hl.tabled hl'.tabled hid hpins hg hl.filed.referrers_tight
    hl'.filed.referrers_tight fun k h => ?_
  rw [hl'.filed.within, hl.filed.within, hid]
  unfold Environment.Mentions
  rw [hcells]

end Locale

end GraphLisp
