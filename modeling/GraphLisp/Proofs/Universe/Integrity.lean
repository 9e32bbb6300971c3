import GraphLisp.Proofs.Session.Turns
import GraphLisp.Proofs.Structure
/-!
# Referential integrity

Whatever is done to a universe, by operations on its environments or by runs of agents, and whether
or not it succeeds, nothing in the universe leads to a node that is gone
(`Universe.evolved_integrity`). Every operation either alters its environment, as a step would, or
leaves all cells and statements as they were.
-/

namespace GraphLisp

open Std

/-- A public operation on an environment. -/
inductive Operation where
  | createNode (name : Option String) (content : Option Structure)
  | setStructure (node : Structure) (content : Option Structure)
  | rename (node : Structure) (name : Option String)
  | deleteNode (node : Structure)
  | importNode (original : Structure)
  | insertTriple (subject predicate object : Structure)
  | deleteTriple (node : Structure)
  /-- Makes a region; what was made is removed again if that fails. -/
  | rebuild (region : Structure)
  /-- Makes a region for a journal; what was made stays. -/
  | raise (region : Structure)

/-- Performs an operation, whatever it returns. -/
def Operation.perform (around : Surroundings) : Operation → Op Unit
  | .createNode name content => do let _ ← Locale.createNode around name content
  | .setStructure node content => do let _ ← Locale.setStructure around node content
  | .rename node name => do let _ ← Locale.rename node name
  | .deleteNode node => do let _ ← Locale.deleteNode around node
  | .importNode original => do let _ ← Locale.importNode around original
  | .insertTriple s p o => do let _ ← Locale.insertTriple s p o
  | .deleteTriple node => do let _ ← Locale.deleteTriple around node
  | .rebuild region => do let _ ← Locale.rebuild around region
  | .raise region => do let _ ← Locale.raise around region

/-- Something that is done to a universe. -/
inductive Action where
  | createEnvironment (name : Option String)
  | link (source predicate target : Structure)
  | operate (env : Int) (op : Operation)
  /-- A run of any agent in any context. -/
  | turn (context : Context) (t : Turn)

/-- The universe that an action leaves, whether or not it fails. -/
def Action.play (u : Universe) : Action → Universe
  | .createEnvironment name => after (Universe.createEnvironment name) u
  | .link source predicate target => after (Universe.link source predicate target) u
  | .operate env op => after (Universe.within env fun around => op.perform around) u
  | .turn context t => t.play context u

/-- The universe after actions. -/
def Universe.evolved (u : Universe) (actions : List Action) : Universe := actions.foldl Action.play u

namespace Locale

variable {around : Surroundings} {l l' : Locale}

/-- What an operation does to its environment: it alters it, or it leaves what matters alone. -/
inductive Changes (around : Surroundings) (l l' : Locale) : Prop where
  | altered {us : List Undo} (h : l.Alterations around us l')
  | kept (coherent : l'.Coherent) (id : l'.env.id = l.env.id)
    (cells : l'.env.nodes.cells = l.env.nodes.cells)
    (statements : l'.env.triples.statements = l.env.triples.statements) (elsewhere : l.Elsewhere l')
    (next : l.env.nodes.next ≤ l'.env.nodes.next) (pins : l'.env.pins = l.env.pins)

theorem Changes.same (hl : l.Coherent) : l.Changes around l := .kept hl rfl rfl rfl (.refl l) (Int.le_refl _) rfl

theorem Alters.changes {undo : Undo} (h : l.Alters around undo l') : l.Changes around l' :=
  .altered (.more .none h)

theorem Restored.changes (h : l.Restored l') (he : l.Elsewhere l') : l.Changes around l' :=
  .kept h.coherent h.id h.cells h.statements he h.next h.pins

theorem Alterations.pins {us : List Undo} (h : l.Alterations around us l') : l'.env.pins = l.env.pins := by
  induction h with
  | none => rfl
  | more _ h' ih =>
    obtain ⟨g, next, hb, -⟩ := h'.becomes
    exact hb.pins.trans ih

/-- No operation pins a node or frees it. -/
theorem Changes.pins (h : l.Changes around l') : l'.env.pins = l.env.pins := by
  cases h with
  | altered h => exact h.pins
  | kept _ _ _ _ _ _ pins => exact pins

theorem rename_changes (hl : l.Coherent) (s : Structure) (name : Option String) :
    Ends (rename s name) l (fun _ l' => l.Changes around l') (fun _ l' => l.Changes around l') := by
  refine (rename_ends hl s name).mono ?_ ?_
  · rintro _ l' ⟨n, -, hb⟩
    refine .kept hb.coherent hb.id ?_ ?_ hb.elsewhere (Int.le_of_eq hb.next.symm) hb.pins
    · rw [hb.cells]; cases name <;> rfl
    · rw [hb.statements]; cases name <;> rfl
  · rintro _ _ rfl
    exact .same hl

/-- However an operation ends, it has altered the environment or left it alone. -/
theorem perform_changes (hl : l.Coherent) (around : Surroundings) (op : Operation) :
    Ends (op.perform around) l (fun _ l' => l.Changes around l') (fun _ l' => l.Changes around l') := by
  have hsame : ∀ (fault : Fault) (l' : Locale), l' = l → l.Changes around l' := by
    rintro _ _ rfl
    exact .same hl
  cases op with
  | createNode name content =>
    exact (createNode_alters hl around name content).bind (fun _ _ h => h.changes) hsame
  | setStructure node content =>
    refine (setStructure_ends hl around node content).bind ?_ fun f l' h => hsame f l' h.1
    rintro _ l' ⟨m, -, cell, known, h⟩
    exact Alters.changes (.replaced cell known h)
  | rename node name => exact (rename_changes hl node name).bind (fun _ _ h => h) fun _ _ h => h
  | deleteNode node =>
    refine (deleteNode_ends hl around node).bind ?_ hsame
    rintro _ l' ⟨m, -, cell, hc, name, unused, h⟩
    exact Alters.changes (.removedNode cell hc name unused h)
  | importNode original =>
    refine (importNode_alters hl around original).bind ?_ hsame
    rintro r l' (⟨-, h⟩ | ⟨-, rfl⟩)
    · exact h.changes
    · exact .same hl
  | insertTriple s p o =>
    refine (insertTriple_alters hl around s p o).bind ?_ hsame
    rintro r l' (⟨-, h⟩ | ⟨-, rfl⟩)
    · exact h.changes
    · exact .same hl
  | deleteTriple node =>
    refine (deleteTriple_ends hl around node).bind ?_ hsame
    rintro _ l' ⟨m, st, -, cell, hst, -, unused, h⟩
    exact Alters.changes (.removedTriple cell hst unused h)
  | rebuild region =>
    refine (rebuild_ends hl around region).bind ?_ fun _ _ h => h.1.changes h.2
    rintro _ l' ⟨us, h⟩
    exact .altered h
  | raise region => exact (raise_alters hl around region).bind (fun _ _ h => .altered h) fun _ _ h => h.elim

end Locale

/-! ## Universes stay coherent and closed -/

namespace Universe

variable {u : Universe}

theorem CoherentClosed.changes (hu : u.CoherentClosed) {id : Int} {e : Environment} (he : u.members[id]? = some e)
    {l : Locale} (h : Locale.Changes (u.surroundings id) ⟨e, u.references⟩ l) : (u.putBack id l).CoherentClosed := by
  cases h with
  | altered h => exact (alterations_putBack hu.coherent he h).coherentClosed hu
  | kept coherent hid cells statements elsewhere =>
    have hsame : u.SameGraphs (u.putBack id l) := by
      refine ⟨fun k => ?_, fun k e₀ e' hk hk' => ?_⟩
      · rw [putBack_members, mem_insert_iff]
        exact ⟨fun h => h.elim (fun h => h ▸ mem_of_getElem? he) fun h => h, .inr⟩
      · rcases (getElem?_insert_iff _ _ _ _ _).1 hk' with ⟨rfl, rfl⟩ | ⟨-, hk'⟩
        · cases he.symm.trans hk
          exact ⟨cells, statements⟩
        · cases hk.symm.trans hk'
          exact ⟨rfl, rfl⟩
    exact ⟨hu.coherent.putBack he coherent hid elsewhere, hsame.closed hu.closed⟩

/-- What an operation makes of a member can be put in words if nothing else can be given a handle. -/
theorem CoherentClosedWith.changes (hu : CoherentClosedWith Writable u) {id : Int}
    {e : Environment} (he : u.members[id]? = some e) {l : Locale}
    (h : Locale.Changes (u.surroundings id) ⟨e, u.references⟩ l) :
    CoherentClosedWith Writable (u.putBack id l) := by
  cases h with
  | altered h => exact lasting_writable.alterations hu (alterations_putBack hu.coherent he h)
  | kept coherent hid cells statements elsewhere next pins =>
    refine ⟨hu.toCoherentClosed.changes he (.kept coherent hid cells statements elsewhere next pins),
      fun n hn => hu.prop n ?_⟩
    obtain ⟨d, hd, hn⟩ := hn
    rcases (getElem?_insert_iff _ _ _ _ _).1 hd with ⟨henv, rfl⟩ | ⟨-, hd⟩
    · exact ⟨e, henv ▸ he, cells ▸ hn⟩
    · exact ⟨d, hd, hn⟩

/-- What an action leaves is coherent and closed if what it found was, and if every node can be put in words. -/
theorem CoherentClosedWith.play (hu : CoherentClosedWith Writable u) (a : Action) :
    CoherentClosedWith Writable (a.play u) := by
  cases a with
  | createEnvironment name => exact (lasting_writable.growing.createEnvironment name u hu).after
  | link source predicate target => exact (link_preserves lasting_writable source predicate target u hu).after
  | operate env op =>
    refine Ends.after (within_ends hu.coherent (fun e he => ?_) fun _ => hu)
    exact (Locale.perform_changes (hu.coherent.locale he) _ op).mono
      (fun _ _ h => hu.changes he h) fun _ _ h => hu.changes he h
  | turn context t => exact t.play_lasts lasting_writable (fun h => h) context hu

theorem CoherentClosedWith.evolved (hu : CoherentClosedWith Writable u) (actions : List Action) :
    CoherentClosedWith Writable (u.evolved actions) := by
  unfold Universe.evolved
  induction actions generalizing u with
  | nil => exact hu
  | cons a rest ih => exact ih (hu.play a)

theorem start_coherentClosed (hu : u = .empty ∨ ∃ label f, load label f = .ok u) : u.CoherentClosed := by
  rcases hu with rfl | ⟨label, f, h⟩
  · exact empty_coherentClosed
  · exact ⟨(load_loading h).1.coherent, (load_loading h).2⟩

end Universe

/-! ## Integrity -/

/-- A cell shows a node: the node occurs in its content, or the cell stands in for it. -/
inductive Cell.Shows (n : Node) : Cell → Prop where
  | content {s : Structure} (h : s.Occurs n) : Shows n (.plain (some s))
  | target : Shows n (.proxy n)

theorem Cell.Shows.mem_mentions {n : Node} {c : Cell} (h : c.Shows n) : n ∈ c.mentions := by
  cases h with
  | content h => exact (Structure.mem_mentions_iff n _).2 h
  | target => exact List.mem_singleton.2 rfl

namespace Universe

/-- Nothing in a universe leads to a node that is gone. -/
structure Integrity (u : Universe) : Prop where
  /-- What a live node shows is live in its own environment. -/
  shown : ∀ (id : Int) (e : Environment) (h : Int) (c : Cell) (n : Node), u.members[id]? = some e →
    e.nodes.cells[h]? = some c → c.Shows n → u.Live n
  /-- A live triple relates live nodes of its environment. -/
  related : ∀ (id : Int) (e : Environment) (h : Int), u.members[id]? = some e →
    e.nodes.cells[h]? = some .triple → ∃ st, e.triples.statements[h]? = some st ∧
      st.subject ∈ e.nodes.cells ∧ st.predicate ∈ e.nodes.cells ∧ st.object ∈ e.nodes.cells
  /-- Every environment is denoted by a live node of the root. -/
  denoted : ∀ id ∈ u.members, u.Live ⟨rootId, id⟩

theorem CoherentClosed.integrity {u : Universe} (hu : u.CoherentClosed) : u.Integrity where
  shown id e h c n he hc hn := hu.closed.mentions ⟨id, h⟩ n ⟨e, he, c, hc, hn.mem_mentions⟩
  related id e h he hc := by
    obtain ⟨st, hst⟩ := (hu.coherent.tabled id e he).statement_of_triple hc
    exact ⟨st, hst, hu.closed.parts id e he h st hst⟩
  denoted := hu.closed.roots

/-- Whatever is done to the empty universe or to a loaded one in which every node can be put in words, and whether
or not it succeeds, nothing leads to a node that is gone. -/
theorem evolved_integrity {u : Universe} (hu : u = .empty ∨ ∃ label f, load label f = .ok u) (hw : u.Writable)
    (actions : List Action) : (u.evolved actions).Integrity :=
  (CoherentClosedWith.evolved ⟨start_coherentClosed hu, hw⟩ actions).integrity

/-- A node of one environment keeps a node of another one, which then is not deleted. -/
def crossing : List Action := [.createEnvironment (some "far"),
  .operate 1 (.createNode (some "x") none), .operate 0 (.createNode none (some (.node ⟨1, 1⟩))),
  .operate 1 (.deleteNode (.node ⟨1, 1⟩))]

theorem crossing_integrity :
    (empty.evolved crossing).resolves ⟨1, 1⟩ = true ∧ (empty.evolved crossing).Integrity :=
  ⟨by decide +kernel, evolved_integrity (.inl rfl) empty_writable _⟩

end Universe

/-! ## What is not recorded -/

/-- Two nodes of the root stand for doing things in turn and for deleting. -/
def Context.deleting : Context where
  env := some rootId
  bindings := [(.form .progn, .node ⟨0, 1⟩), (.form .delete, .node ⟨0, 2⟩)]
  roles := [(.node ⟨0, 1⟩, .form .progn), (.node ⟨0, 2⟩, .form .delete)]
  isSealed := true

/-- A turn at the root that deletes nodes one after the other. -/
def Turn.deleting (ns : List Node) : Turn where
  state := ⟨⟨rootId, .node ⟨0, 0⟩⟩, [], []⟩
  depth := 3
  program := .list (.node ⟨0, 1⟩ :: ns.map fun n => .list [.node ⟨0, 2⟩, .node n])

/-- The record of a root with a node beyond the handles that are given out, and with a triple of it. -/
def Environment.overfull : Plain := .object [("format", .text recordFormat), ("version", .int 1), ("id", .int 0),
  ("next", .int (Decimal.firstTooLong + 1)),
  ("nodes", .list [.object [("id", .int 0)], .object [("id", .int 1)], .object [("id", .int 2)],
    .object [("id", .int Decimal.firstTooLong)]]),
  ("triples", .list [.object [("id", .int 4), ("s", .int 0), ("p", .int 0), ("o", .int Decimal.firstTooLong)]])]

/-- Deleting that triple and then that node. The turn fails, since nothing writes the handle of the node. -/
def Turn.overreaching : Turn := .deleting [⟨0, 4⟩, ⟨0, Decimal.firstTooLong⟩]

/-- In a universe with that root, the triple comes back when the turn fails, and the node does not. -/
theorem Universe.distant_part_lost : ∃ e u, Environment.fromRecord Environment.overfull = .ok e ∧ ofRoot e = .ok u ∧
    u.resolves ⟨0, Decimal.firstTooLong⟩ = true ∧ ¬(u.evolved [.turn .deleting .overreaching]).Integrity := by
  have hrun : ((Environment.fromRecord Environment.overfull).toOption.bind fun e => (ofRoot e).toOption.bind fun u =>
      ((u.evolved [.turn .deleting .overreaching]).members[rootId]?).map fun e' =>
        (u.resolves ⟨0, Decimal.firstTooLong⟩, e'.nodes.cells.contains Decimal.firstTooLong,
          e'.nodes.cells[(4 : Int)]?.map Cell.word, e'.triples.statements[(4 : Int)]?.map Statement.object)) =
      some (true, false, some "triple", some (Decimal.firstTooLong : Int)) := by
    decide +kernel
  obtain ⟨e, he, hrun⟩ := Option.bind_eq_some_iff.1 hrun
  obtain ⟨u, hu, hrun⟩ := Option.bind_eq_some_iff.1 hrun
  obtain ⟨e', he', hrun⟩ := Option.map_eq_some_iff.1 hrun
  simp only [Prod.mk.injEq, Option.map_eq_some_iff] at hrun
  obtain ⟨hlive, hgone, ⟨c, hc, hword⟩, st, hst, hobject⟩ := hrun
  refine ⟨e, u, ok_of_toOption he, ok_of_toOption hu, hlive, fun h => ?_⟩
  have htriple : c = .triple := by
    cases c with
    | triple => rfl
    | plain _ => simp [Cell.word] at hword
    | proxy _ => simp [Cell.word] at hword
  obtain ⟨st', hst', -, -, hmem⟩ := h.related rootId e' 4 he' (htriple ▸ hc)
  cases hst.symm.trans hst'
  rw [hobject, ← ExtTreeMap.contains_iff_mem, hgone] at hmem
  cases hmem

end GraphLisp
