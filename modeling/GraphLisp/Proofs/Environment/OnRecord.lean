import GraphLisp.Proofs.Environment.Alone
import GraphLisp.Proofs.Environment.Record
import GraphLisp.Proofs.Environment.Regions
import GraphLisp.Proofs.Universe.Flattened
/-!
# What is on record

A node may have a name, and so may a stand-in and a triple. Only the rows of nodes and of stand-ins
have a place for it, so that a record keeps what it says of `Environment.onRecord`, the environment
without the names of its triples (`Environment.toRecord_onRecord`). Nothing else is lost: whatever
operations have made of an environment, its record can be written, and reading it back answers every
question as before but for those names (`Environment.evolved_restored`).
-/

namespace GraphLisp

open Std

/-! ## Enclosed environments -/

namespace Environment

/-- The environment is closed as far as that can be told without the others. -/
structure Enclosed (e : Environment) : Prop where
  whole : e.Whole
  known : ∀ h t, e.Mentions h t → t.env = e.id → t.id ∈ e.nodes.cells

theorem Standalone.enclosed {e : Environment} (he : e.Standalone) : e.Enclosed := ⟨he.whole, he.known⟩

end Environment

namespace Locale

variable {around : Surroundings} {l l' : Locale}

/-- Something put at a handle mentions only what is known. -/
theorem enclosed_put {h : Int} {c : Cell} (he : l.env.Enclosed) (hid : l'.env.id = l.env.id)
    (hcells : l'.env.nodes.cells = l.env.nodes.cells.insert h c)
    (hc : ∀ m ∈ c.mentions, l.Knows around m)
    (hst : ∀ (k : Int) (st : Statement), l'.env.triples.statements[k]? = some st →
      st.subject ∈ l.env.nodes.cells ∧ st.predicate ∈ l.env.nodes.cells ∧ st.object ∈ l.env.nodes.cells) :
    l'.env.Enclosed := by
  have hsub : ∀ k, k ∈ l.env.nodes.cells → k ∈ l'.env.nodes.cells := fun k hk => by
    rw [hcells]
    exact (mem_insert_iff _ _ _ _).2 (.inr hk)
  constructor
  · intro k st hk
    obtain ⟨hs, hp, ho⟩ := hst k st hk
    exact ⟨hsub _ hs, hsub _ hp, hsub _ ho⟩
  · intro k t ⟨d, hd, ht⟩ htid
    rw [hid] at htid
    apply hsub
    rw [hcells] at hd
    rcases (getElem?_insert_iff _ _ _ _ _).1 hd with ⟨-, rfl⟩ | ⟨-, hd⟩
    · exact (hc t ht).here htid
    · exact he.known k t ⟨d, hd, ht⟩ htid

/-- What nothing in the environment uses can go. -/
theorem enclosed_without {h : Int} (he : l.env.Enclosed) (hunused : l.Unused around h)
    (hb : l.Becomes l' (l.env.contents.without h) l.env.nodes.next) : l'.env.Enclosed := by
  constructor
  · intro k st hk
    rw [hb.statements] at hk
    have hk := ((getElem?_erase_iff _ _ _ _).1 hk).2
    obtain ⟨hs, hp, ho⟩ := he.whole k st hk
    obtain ⟨hs', hp', ho'⟩ := hunused.no_triple k st hk
    rw [hb.cells]
    exact ⟨(mem_erase_iff _ _ _).2 ⟨hs', hs⟩, (mem_erase_iff _ _ _).2 ⟨hp', hp⟩,
      (mem_erase_iff _ _ _).2 ⟨ho', ho⟩⟩
  · intro k t ⟨d, hd, ht⟩ htid
    rw [hb.cells] at hd ⊢
    have hm : l.env.Mentions k t := ⟨d, ((getElem?_erase_iff _ _ _ _).1 hd).2, ht⟩
    have htid : t.env = l.env.id := htid.trans hb.id
    refine (mem_erase_iff _ _ _).2 ⟨fun hth => ?_, he.known k t hm htid⟩
    -- the handle would still be mentioned
    apply hunused.no_mention k
    have hnode : l.env.node h = t := by
      cases t; cases htid; cases hth; rfl
    rw [hnode]
    exact hm

theorem Alters.enclosed (he : l.env.Enclosed) {u : Undo} (h : l.Alters around u l') : l'.env.Enclosed := by
  cases h with
  | @made _ c name _ known _ _ hb =>
    have hcells : l'.env.nodes.cells = l.env.nodes.cells.insert l.env.nodes.next c := by
      rw [hb.cells]; cases name <;> rfl
    have hst : l'.env.triples.statements = l.env.triples.statements := by
      rw [hb.statements]; cases name <;> rfl
    exact enclosed_put he hb.id hcells known fun k st hk => he.whole k st (hst ▸ hk)
  | @related _ st hs hp ho _ hb =>
    have hnone : ∀ m ∈ Cell.triple.mentions, l.Knows around m := fun m hm => by cases hm
    refine enclosed_put he hb.id hb.cells hnone fun k st' hk => ?_
    rw [hb.statements] at hk
    rcases (getElem?_insert_iff _ _ _ _ _).1 hk with ⟨-, rfl⟩ | ⟨-, hk⟩
    · exact ⟨hs, hp, ho⟩
    · exact he.whole k st' hk
  | replaced cell known hb =>
    refine enclosed_put he hb.id hb.cells known fun k st hk => ?_
    rw [hb.statements] at hk
    exact he.whole k st hk
  | removedNode _ _ _ unused hb => exact enclosed_without he unused hb
  | removedTriple _ _ unused hb => exact enclosed_without he unused hb

theorem Alterations.enclosed (he : l.env.Enclosed) {us : List Undo} (h : l.Alterations around us l') :
    l'.env.Enclosed := by
  induction h with
  | none => exact he
  | more _ h' ih => exact h'.enclosed ih

theorem Changes.enclosed (he : l.env.Enclosed) (h : l.Changes around l') : l'.env.Enclosed := by
  cases h with
  | altered h => exact h.enclosed he
  | kept _ hid hcells hst =>
    constructor
    · intro k st hk
      rw [hcells]
      exact he.whole k st (hst ▸ hk)
    · intro k t ⟨d, hd, ht⟩ htid
      rw [hcells] at hd ⊢
      exact he.known k t ⟨d, hd, ht⟩ (htid.trans hid)

end Locale

theorem Environment.Enclosed.operated {e : Environment} (hc : e.Coherent) (he : e.Enclosed)
    (around : Surroundings) (op : Operation) : (e.operated around op).Enclosed := by
  obtain ⟨l, hl, heq⟩ := hc.operated_changes around op
  have h : l.env.Enclosed := hl.enclosed he
  exact heq ▸ h

/-! ## Sound environments -/

variable {lax : Bool}

theorem rel_of_sound {o : Option Structure} (h : ∀ s, o = some s → s.Sound lax) :
    Option.Rel (Structure.Like lax) o o := by
  cases o with
  | none => exact .none
  | some s => exact .some (.refl (h s rfl))

/-- What an operation is given is sound. -/
def Operation.Sound (lax : Bool) : Operation → Prop
  | .createNode _ content => ∀ s, content = some s → s.Sound lax
  | .setStructure node content => node.Sound lax ∧ ∀ s, content = some s → s.Sound lax
  | .rename node _ | .deleteNode node | .importNode node | .deleteTriple node => node.Sound lax
  | .insertTriple s p o => s.Sound lax ∧ p.Sound lax ∧ o.Sound lax
  | .rebuild region | .raise region => region.Sound lax

namespace Locale

theorem rename_agree {s : Structure} (hs : s.Sound lax) (name : Option String) :
    Agree (Locale.Like lax) Eq (rename s name) (rename s name) := by
  refine (resident_agree (.refl hs)).bind ?_
  rintro n _ rfl
  refine agree_get.bind fun l l' hl => ?_
  cases hl
  cases name with
  | none => exact (unname_agree n.id).bind fun _ _ _ => agree_pure rfl
  | some name => exact (name_agree n.id name).bind fun _ _ _ => agree_pure rfl

theorem discardAll_agree (ns : List Node) :
    Agree (Locale.Like lax) (fun _ _ => True) (discardAll ns) (discardAll ns) := by
  induction ns with
  | nil => exact agree_pure trivial
  | cons n ns ih => exact (discard_agree n).bind fun _ _ _ => ih

theorem rebuild_agree (around : Surroundings) {s : Structure} (hs : s.Sound lax) :
    Agree (Locale.Like lax) Eq (rebuild around s) (rebuild around s) := by
  refine (raise_agree around (.refl hs)).bind ?_
  rintro ⟨r, created⟩ ⟨r', _⟩ ⟨hr, rfl⟩
  cases hr with
  | ok h => exact agree_pure h
  | error h => exact (discardAll_agree created).bind fun _ _ _ => agree_throw h

end Locale

/-- An operation that is given sound structures does alike to locales alike. -/
theorem Operation.perform_agree (around : Surroundings) {op : Operation} (h : op.Sound lax) :
    Agree (Locale.Like lax) (fun _ _ => True) (op.perform around) (op.perform around) := by
  cases op with
  | createNode name content =>
    exact (Locale.createNode_agree around name (rel_of_sound h)).bind fun _ _ _ => agree_pure trivial
  | setStructure node content =>
    exact (Locale.setStructure_agree around (.refl h.1) (rel_of_sound h.2)).bind fun _ _ _ =>
      agree_pure trivial
  | rename node name => exact (Locale.rename_agree h name).bind fun _ _ _ => agree_pure trivial
  | deleteNode node => exact (Locale.deleteNode_agree around (.refl h)).bind fun _ _ _ => agree_pure trivial
  | importNode original => exact (Locale.importNode_agree around (.refl h)).bind fun _ _ _ => agree_pure trivial
  | insertTriple s p o =>
    exact (Locale.insertTriple_agree (.refl h.1) (.refl h.2.1) (.refl h.2.2)).bind fun _ _ _ =>
      agree_pure trivial
  | deleteTriple node =>
    exact (Locale.deleteTriple_agree around (.refl h)).bind fun _ _ _ => agree_pure trivial
  | rebuild region => exact (Locale.rebuild_agree around h).bind fun _ _ _ => agree_pure trivial
  | raise region => exact (Locale.raise_agree around (.refl h)).bind fun _ _ _ => agree_pure trivial

namespace Environment

variable {e : Environment}

theorem cellsLike_of_sound (he : e.Sound lax) : CellsLike lax e.nodes.cells e.nodes.cells := by
  intro k
  cases hc : e.nodes.cells[k]? with
  | none => exact .none
  | some c => exact .some (.refl (he k c hc))

theorem Sound.operated (he : e.Sound lax) (around : Surroundings) {op : Operation} (hop : op.Sound lax) :
    (e.operated around op).Sound lax := by
  have h : Locale.Like lax ⟨e, ∅⟩ ⟨e, ∅⟩ := .intro (l := ⟨e, ∅⟩) (cellsLike_of_sound he)
  have hafter := ((op.perform_agree around hop).after h).env
  exact ((like_iff _ _).1 hafter).2.1

/-! ## What a record keeps -/

/-- Whether a handle is a triple's. -/
def isTriple (e : Environment) (handle : Int) : Bool :=
  match e.nodes.cells[handle]? with
  | some .triple => true
  | _ => false

/-- The environment as far as its record tells: triples have no names, and nothing is pinned. -/
def onRecord (e : Environment) : Environment :=
  { e with
    nodes.names := e.nodes.names.filter fun _ h => !e.isTriple h
    nodes.nameOf := e.nodes.nameOf.filter fun h _ => !e.isTriple h
    pins := [] }

theorem isTriple_iff (e : Environment) (h : Int) : e.isTriple h = true ↔ e.nodes.cells[h]? = some .triple := by
  unfold isTriple
  split
  · next heq => simp [heq]
  · next hne => exact ⟨fun h => absurd h Bool.false_ne_true, fun heq => absurd heq hne⟩

theorem nameOf_onRecord (e : Environment) (h : Int) (s : String) :
    e.onRecord.nodes.nameOf[h]? = some s ↔ e.nodes.nameOf[h]? = some s ∧ e.isTriple h = false := by
  change (e.nodes.nameOf.filter fun h _ => !e.isTriple h)[h]? = some s ↔ _
  rw [ExtTreeMap.getElem?_filter', Option.filter_eq_some_iff, Bool.not_eq_true']

theorem names_onRecord (e : Environment) (s : String) (h : Int) :
    e.onRecord.nodes.names[s]? = some h ↔ e.nodes.names[s]? = some h ∧ e.isTriple h = false := by
  change (e.nodes.names.filter fun _ h => !e.isTriple h)[s]? = some h ↔ _
  rw [ExtTreeMap.getElem?_filter', Option.filter_eq_some_iff, Bool.not_eq_true']

theorem mapM_congr_mem {ε α β : Type} {f g : α → Except ε β} {xs : List α} (h : ∀ x ∈ xs, f x = g x) :
    xs.mapM f = xs.mapM g := by
  induction xs with
  | nil => rfl
  | cons x xs ih =>
    rw [List.mapM_cons, List.mapM_cons, h x (.head _), ih fun y hy => h y (.tail _ hy)]

/-- A handle that is no triple's has kept its name. -/
theorem nameOf_onRecord_of {h : Int} (hh : e.isTriple h = false) :
    e.onRecord.nodes.nameOf[h]? = e.nodes.nameOf[h]? :=
  Option.ext fun s => (nameOf_onRecord e h s).trans (and_iff_left hh)

theorem nameEntry_onRecord {h : Int} (hh : e.isTriple h = false) : e.onRecord.nameEntry h = e.nameEntry h := by
  rw [nameEntry, nameEntry, nameOf_onRecord_of hh]

/-- The row of a triple has no place for a name, and every other name is still there. -/
theorem cellRow_onRecord {h : Int} {c : Cell} (hc : e.nodes.cells[h]? = some c) :
    e.onRecord.cellRow h c = e.cellRow h c := by
  cases c with
  | triple => rfl
  | plain content =>
    have hname := nameEntry_onRecord (e := e) (h := h) (by rw [isTriple, hc])
    cases content <;> simp only [cellRow, nodeRow, hname]
  | proxy target =>
    have hname := nameEntry_onRecord (e := e) (h := h) (by rw [isTriple, hc])
    simp only [cellRow, importRow, hname]

theorem toRecord_onRecord (e : Environment) : e.onRecord.toRecord = e.toRecord := by
  unfold toRecord
  refine congrArg (· >>= _) (mapM_congr_mem fun x hx => ?_)
  obtain ⟨h, c⟩ := x
  have hcell : e.nodes.cells[h]? = some c := ExtTreeMap.mem_toList_iff_getElem?_eq_some.1 hx
  dsimp only
  rw [cellRow_onRecord hcell]

/-- The part of an environment that is on record is coherent on its own. -/
theorem Coherent.standalone (hc : e.Coherent) (he : e.Enclosed) : e.onRecord.Standalone where
  tabled :=
    { self := hc.tabled.self
      bounds := hc.tabled.bounds
      named :=
        ⟨fun s h => by rw [names_onRecord, nameOf_onRecord, hc.tabled.named.inverse],
          fun h s hs => hc.tabled.named.live h s ((nameOf_onRecord e h s).1 hs).1⟩
      imports := hc.tabled.imports
      abroad := hc.tabled.abroad
      triples := hc.tabled.triples
      statements := hc.tabled.statements }
  referrers_tight := hc.referrers_tight
  referrers := hc.referrers
  whole := he.whole
  known := he.known
  unnamed h hh := by
    refine Option.eq_none_iff_forall_ne_some.2 fun s hs => ?_
    have htriple : e.isTriple h = true := (e.isTriple_iff h).2 hh
    rw [((nameOf_onRecord e h s).1 hs).2] at htriple
    cases htriple
  pins := rfl

/-- Every structure that is kept at a handle is whole. -/
def HoldsWhole (e : Environment) : Prop :=
  ∀ (h : Int) (c : Cell) (s : Structure), e.nodes.cells[h]? = some c → c.content = some s → s.isWhole = true

/-- A handle has a row, unless it holds a structure that is not whole. -/
theorem Tabled.cellRow_error (hc : e.Tabled) {h : Int} {c : Cell} (hcell : e.nodes.cells[h]? = some c) {f : Fault}
    (hf : e.cellRow h c = .error f) :
    f = .unreadable .wrongSort "" ∧ ∃ s, c.content = some s ∧ s.isWhole = false := by
  unfold cellRow at hf
  split at hf
  · cases hf
  · next s =>
    unfold Structure.payload at hf
    split at hf
    · cases hf
    · next hw =>
      cases hf
      exact ⟨rfl, s, rfl, Bool.eq_false_iff.2 hw⟩
  · cases hf
  · obtain ⟨st, hst⟩ := hc.statement_of_triple hcell
    unfold statement at hf
    rw [hst] at hf
    cases hf

/-- An environment has a record, unless a structure in it is not whole. -/
theorem Tabled.toRecord_error (hc : e.Tabled) {f : Fault} (hf : e.toRecord = .error f) :
    f = .unreadable .wrongSort "" ∧ ¬e.HoldsWhole := by
  unfold toRecord at hf
  rcases except_bind_error.1 hf with hrows | ⟨rows, -, hf⟩
  · obtain ⟨⟨h, c⟩, hmem, hrow⟩ := exists_of_mapM_error hrows
    have hcell : e.nodes.cells[h]? = some c := ExtTreeMap.mem_toList_iff_getElem?_eq_some.1 hmem
    rcases except_bind_error.1 hrow with hrow | ⟨row, -, hrow⟩
    · obtain ⟨rfl, s, hs, hbroken⟩ := hc.cellRow_error hcell hrow
      exact ⟨rfl, fun hwhole => Bool.false_ne_true (hbroken.symm.trans (hwhole h c s hcell hs))⟩
    · cases hrow
  · cases hf

theorem HoldsWhole.exists_record (hwhole : e.HoldsWhole) (hc : e.Tabled) : ∃ p, e.toRecord = .ok p := by
  cases hr : e.toRecord with
  | ok p => exact ⟨p, rfl⟩
  | error f => exact absurd hwhole (hc.toRecord_error hr).2

/-- Every sound environment has a record. -/
theorem exists_record (hc : e.Tabled) (hs : e.Sound false) : ∃ p, e.toRecord = .ok p :=
  HoldsWhole.exists_record (fun h c s hcell hs' => (hs h c hcell s hs').isWhole) hc

/-! ## Environments read back -/

/-- The second environment answers as the first one does, up to the scopes of procedures, which show
the same in one level, and up to names of triples, which it lacks. -/
structure Echoes (e e' : Environment) : Prop where
  id : e'.id = e.id
  next : e'.nodes.next = e.nodes.next
  contains : ∀ s, e'.contains s = e.contains s
  isImport : ∀ s, e'.isImport s = e.isImport s
  imported : ∀ s, e'.imported s = e.imported s
  tripleOf : ∀ s, e'.tripleOf s = e.tripleOf s
  ask : ∀ subject predicate object, e'.ask subject predicate object = e.ask subject predicate object
  askAny : ∀ s, e'.askAny s = e.askAny s
  getStructure : ∀ s, e'.getStructure s = (e.getStructure s).map Structure.flattened
  same : ∀ s a, e.getStructure s = .ok a → ∃ b, e'.getStructure s = .ok b ∧ a.same b = true
  nameOf : ∀ n : Node, e.isTriple n.id = false → e'.nameOf (.node n) = e.nameOf (.node n)
  unnamed : ∀ n : Node, e.isTriple n.id = true → e'.nameOf (.node n) = none
  lookupName : ∀ name n, e'.lookupName name = some n ↔ e.lookupName name = some n ∧ e.isTriple n.id = false

theorem echoes_onRecord (e : Environment) : e.Echoes e.onRecord.flattened where
  id := rfl
  next := rfl
  contains s := e.onRecord.contains_flattened s
  isImport s := e.onRecord.isImport_flattened s
  imported s := rfl
  tripleOf s := e.onRecord.tripleOf_flattened s
  ask s p o := e.onRecord.ask_flattened s p o
  askAny s := e.onRecord.askAny_flattened s
  getStructure s := e.onRecord.getStructure_flattened s
  same s a ha := by
    refine ⟨a.flattened, ?_, ?_⟩
    · rw [e.onRecord.getStructure_flattened s]
      change (e.getStructure s).map _ = _
      rw [ha]
      rfl
    · exact a.same_own_flattened
  nameOf n hn := by
    have hname : e.onRecord.nodes.nameOf[n.id]? = e.nodes.nameOf[n.id]? := nameOf_onRecord_of hn
    change (if n.env = e.id then e.onRecord.nodes.nameOf[n.id]? else none) = _
    rw [hname]
    rfl
  unnamed n hn := by
    unfold Environment.nameOf
    dsimp only
    split
    · refine Option.eq_none_iff_forall_ne_some.2 fun s hs => ?_
      rw [((nameOf_onRecord e n.id s).1 hs).2] at hn
      cases hn
    · rfl
  lookupName name n := by
    unfold Environment.lookupName
    rw [Option.map_eq_some_iff, Option.map_eq_some_iff]
    constructor
    · intro ⟨h, hh, hn⟩
      obtain ⟨hh, htriple⟩ := (names_onRecord e name h).1 hh
      subst hn
      exact ⟨⟨h, hh, rfl⟩, htriple⟩
    · intro ⟨⟨h, hh, hn⟩, htriple⟩
      subst hn
      exact ⟨h, (names_onRecord e name h).2 ⟨hh, htriple⟩, rfl⟩

/-- What operations make of a coherent and enclosed environment is coherent and enclosed. -/
theorem evolved_enclosed (ops : List (Surroundings × Operation)) :
    ∀ {e : Environment}, e.Coherent → e.Enclosed → (e.evolved ops).Coherent ∧ (e.evolved ops).Enclosed := by
  induction ops with
  | nil => exact fun hc he => ⟨hc, he⟩
  | cons x ops ih => exact fun hc he => ih (hc.operated x.1 x.2) (he.operated hc x.1 x.2)

theorem evolved_sound {ops : List (Surroundings × Operation)} (hops : ∀ x ∈ ops, x.2.Sound lax) :
    ∀ {e : Environment}, e.Sound lax → (e.evolved ops).Sound lax := by
  induction ops with
  | nil => exact fun he => he
  | cons x ops ih =>
    exact fun he => ih (fun y hy => hops y (.tail _ hy)) (he.operated x.1 (hops _ (.head _)))

/-- The record of whatever operations made of a new environment can be written and read back, and
what is read back answers every question as before, except that no triple has a name. -/
theorem evolved_restored (id : Int) (ops : List (Surroundings × Operation))
    (hops : ∀ x ∈ ops, x.2.Sound false) :
    ∃ p e', ((fresh id).evolved ops).toRecord = .ok p ∧ fromRecord p = .ok e' ∧
      ((fresh id).evolved ops).Echoes e' := by
  have hfresh := Universe.fresh_standalone id
  obtain ⟨hc, he⟩ := evolved_enclosed ops hfresh.coherent hfresh.enclosed
  have hs : ((fresh id).evolved ops).Sound false := evolved_sound hops (fresh_sound id)
  obtain ⟨p, hp⟩ := exists_record hc.tabled hs
  have hrecord : ((fresh id).evolved ops).onRecord.toRecord = .ok p := (toRecord_onRecord _).trans hp
  exact ⟨p, _, hp, fromRecord_toRecord (hc.standalone he) hrecord, echoes_onRecord _⟩

/-- A triple with a name, a stand-in, a closure over a node, and a handle that is no longer used. -/
def labelled : List (Surroundings × Operation) :=
  [.createNode (some "a") none, .createNode none none, .insertTriple (.node ⟨0, 1⟩) (.node ⟨0, 2⟩) (.node ⟨0, 1⟩),
    .rename (.node ⟨0, 3⟩) (some "fact"), .importNode (.node ⟨7, 3⟩),
    .createNode none (some (.proc ["x"] (.sym "y") [[("y", .node ⟨0, 4⟩)], [("y", .int 1)]])),
    .createNode (some "gone") none, .deleteNode (.node ⟨0, 6⟩)].map fun op => (.alone, op)

theorem labelled_restored : (∀ x ∈ labelled, x.2.Sound false) ∧
    ∃ p e', ((fresh 0).evolved labelled).toRecord = .ok p ∧ fromRecord p = .ok e' ∧
      ((fresh 0).evolved labelled).Echoes e' :=
  have hsound : ∀ x ∈ labelled, x.2.Sound false := by
    have hnode : ∀ n : Node, (Structure.node n).Sound false := .node
    have hclosure : (Structure.proc ["x"] (.sym "y") [[("y", .node ⟨0, 4⟩)], [("y", .int 1)]]).Sound false := by
      refine .proc (.sym "y") (by simp [Scope.Distinct, Level.Distinct]) ?_
      simp [Structure.Sound.node, Structure.Sound.int]
    simp [labelled, Operation.Sound, hnode, hclosure]
  ⟨hsound, evolved_restored 0 labelled hsound⟩

/-- A triple that was given a name has none in what is read back. -/
theorem labelled_name_lost : ((fresh 0).evolved labelled).lookupName "fact" = some ⟨0, 3⟩ ∧
    ((((fresh 0).evolved labelled).toRecord.bind fromRecord).toOption.map fun e =>
      (e.contains (.node ⟨0, 3⟩), e.lookupName "fact")) = some (true, none) := by
  decide +kernel

end Environment

end GraphLisp
