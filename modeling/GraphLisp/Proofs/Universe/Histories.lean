import GraphLisp.Proofs.Environment.Alone
/-!
# Histories

An environment is new or read from a record, and then it is worked on, alone or as a member of a
universe in which agents take turns. `Environment.Arises` and `Universe.Arises` say what can come of
that. In every environment that arises, each of its tables says exactly what follows from the live
handles, their names, and the statements of triples (`Environment.arises_consistent`). That needs no
reference to lead anywhere: a root may stand for nodes of environments that are not there, so that
even a step that cannot be taken back leaves the tables in order.
-/

namespace GraphLisp

open Std

/-! ## Where environments come from -/

mutual

/-- An environment can come about. -/
inductive Environment.Arises : Environment → Prop where
  | fresh (id : Int) : Environment.Arises (.fresh id)
  | read {p : Plain} {e : Environment} (h : Environment.fromRecord p = .ok e) : Environment.Arises e
  /-- An operation on an environment alone, whether or not it fails. -/
  | operated {e : Environment} (h : Environment.Arises e) (around : Surroundings) (op : Operation) :
    Environment.Arises (e.operated around op)
  | member {u : Universe} {id : Int} {e : Environment} (h : Universe.Arises u)
    (he : u.members[id]? = some e) : Environment.Arises e

/-- A universe can come about. -/
inductive Universe.Arises : Universe → Prop where
  | empty : Universe.Arises .empty
  | load {label : String} {f : Folder} {u : Universe} (h : Universe.load label f = .ok u) :
    Universe.Arises u
  | ofRoot {e : Environment} {u : Universe} (he : Environment.Arises e) (h : Universe.ofRoot e = .ok u) :
    Universe.Arises u
  /-- An operation on a member, a new environment, a link, or a turn of an agent. -/
  | played {u : Universe} (h : Universe.Arises u) (a : Action) : Universe.Arises (a.play u)

end

/-- What holds of the universes that there are to begin with, and lasts through actions, holds of all that arise. -/
theorem Universe.Arises.induct {I : Universe → Prop} (hempty : I .empty)
    (hload : ∀ {label : String} {f : Folder} {u : Universe}, Universe.load label f = .ok u → I u)
    (hroot : ∀ {e : Environment} {u : Universe}, e.Arises → Universe.ofRoot e = .ok u → I u)
    (hplayed : ∀ {u : Universe} (a : Action), I u → I (a.play u)) {u : Universe} (h : u.Arises) : I u :=
  @Universe.Arises.rec (fun _ _ => True) (fun u _ => I u) (fun _ => trivial) (fun _ => trivial)
    (fun _ _ _ _ => trivial) (fun _ _ _ => trivial) hempty hload (fun he h _ => hroot he h)
    (fun _ a hu => hplayed a hu) u h

/-! ## Coherent universes stay coherent -/

namespace Universe

variable {u : Universe}

/-- An environment with the id of the root is the root of a coherent universe. -/
theorem ofRoot_coherent {e : Environment} (he : e.Coherent) (h : ofRoot e = .ok u) : u.Coherent := by
  unfold ofRoot at h
  split at h
  · cases h
  next hid =>
  have hid : e.id = rootId := Decidable.not_not.1 hid
  cases h
  obtain ⟨htight, hlists⟩ := wire_lists { e with pins := [] } ∅ .empty
  have hmem : ∀ (k : Int) (e' : Environment),
      ((∅ : ExtTreeMap Int Environment).insert rootId { e with pins := [] })[k]? = some e' ↔
        k = rootId ∧ e' = { e with pins := [] } := by
    intro k e'
    rw [getElem?_insert_iff]
    simp
  have honly : ∀ {Q : Int → Environment → Prop}, Q rootId { e with pins := [] } → ∀ (k : Int) (e' : Environment),
      ((∅ : ExtTreeMap Int Environment).insert rootId { e with pins := [] })[k]? = some e' → Q k e' := by
    intro Q hQ k e' hk
    obtain ⟨rfl, rfl⟩ := (hmem k e').1 hk
    exact hQ
  have htabled : ({ e with pins := [] } : Environment).Tabled := ⟨he.tabled.self, he.tabled.bounds,
    he.tabled.named, he.tabled.imports, he.tabled.abroad, he.tabled.triples, he.tabled.statements⟩
  constructor
  case heirs => rfl
  case ids => exact honly hid
  case root => exact (mem_insert_iff _ _ _ _).2 (.inl rfl)
  case tabled => exact honly htabled
  case referrers_tight => exact honly (Q := fun _ e => e.nodes.referrers.Tight) he.referrers_tight
  case referrers =>
    refine honly ?_
    rw [← hid]
    exact he.referrers
  case references_tight => exact htight
  case references =>
    intro t n
    refine (hlists t n).trans ?_
    rw [Environment.mem_foreignReferences_iff]
    simp only [Mentions, hmem]
    change (n.env = e.id ∧ t.env ≠ e.id ∧ e.Mentions n.id t) ∨ n ∈ (∅ : CrossReferences).bucket t ↔ _
    constructor
    · rintro (⟨hn, ht, hm⟩ | h)
      · exact ⟨by rw [hn]; exact ht, _, ⟨hn.trans hid, rfl⟩, hm⟩
      · simp [Index.mem_bucket] at h
    · rintro ⟨ht, _, ⟨hn, rfl⟩, hm⟩
      exact .inl ⟨hn.trans hid.symm, by rw [hid, ← hn]; exact ht, hm⟩

/-- What an operation does to a member can be put back. -/
theorem Coherent.changes (hu : u.Coherent) {id : Int} {e : Environment} (he : u.members[id]? = some e)
    {around : Surroundings} {l : Locale} (h : Locale.Changes around ⟨e, u.references⟩ l) :
    (u.putBack id l).Coherent := by
  have hl := h.coherent (hu.locale he)
  cases h with
  | altered h => exact hu.putBack he hl h.id h.elsewhere
  | kept _ hid _ _ helsewhere => exact hu.putBack he hl hid helsewhere

/-- An invariant of coherent universes that changes of members and new environments keep. -/
structure Abiding (I : Universe → Prop) : Prop where
  coherent : ∀ {u}, I u → u.Coherent
  changes : ∀ {u id e l}, I u → u.members[id]? = some e →
    Locale.Changes (u.surroundings id) ⟨e, u.references⟩ l → I (u.putBack id l)
  adopt : ∀ {u id}, I u → id ∉ u.members → u.Live ⟨rootId, id⟩ → I (u.adopt (.fresh id))

namespace Abiding

variable {I : Universe → Prop}

theorem within (hI : Abiding I) {α : Type} {id : Int} {op : Surroundings → Op α}
    (h : ∀ around l, Locale.Coherent l → Ends (op around) l (fun _ l' => l.Changes around l')
      (fun _ l' => l.Changes around l')) :
    Preserves I (within id op) := by
  intro u hu
  refine within_ends (hI.coherent hu) (fun e he => ?_) fun _ => hu
  exact (h _ _ ((hI.coherent hu).locale he)).mono (fun _ _ h => hI.changes hu he h) fun _ _ h => hI.changes hu he h

theorem growing (hI : Abiding I) : Growing I where
  createNode id name := by
    refine hI.within fun around l hl => (Locale.createNode_alters hl around name none).mono ?_ ?_
    · exact fun _ _ h => h.changes
    · rintro _ _ rfl
      exact .same hl
  attach id := by
    intro u hu
    refine (attach_ends (hI.coherent hu) (.fresh id)).mono ?_ ?_
    · rintro - _ ⟨hfree, hroot, rfl⟩
      exact hI.adopt hu hfree hroot
    · rintro _ _ rfl
      exact hu

theorem link (hI : Abiding I) (source predicate target : Structure) :
    Preserves I (link source predicate target) := by
  refine (preserves_query _).bind fun _ => (preserves_query _).bind fun _ => ?_
  refine hI.within fun around l hl => ?_
  refine (Locale.insertTriple_alters hl around source predicate target).bind ?_ ?_
  · rintro r l' (⟨-, h⟩ | ⟨-, rfl⟩)
    · exact h.changes
    · exact .same hl
  · rintro _ _ rfl
    exact .same hl

/-- What turns keep, every action keeps, whether or not it fails. -/
theorem play (hI : Abiding I) (hu : I u) (hturn : ∀ context t, I (Turn.play context u t)) (a : Action) :
    I (a.play u) := by
  cases a with
  | createEnvironment name => exact (hI.growing.createEnvironment name u hu).after
  | link source predicate target => exact (hI.link source predicate target u hu).after
  | operate env op => exact (hI.within (fun around l hl => Locale.perform_changes hl around op) u hu).after
  | turn context t => exact hturn context t

end Abiding

theorem coherent_abiding : Abiding Coherent where
  coherent hu := hu
  changes hu he h := hu.changes he h
  adopt hu hfree _ := hu.adopt (fresh_standalone _) hfree

/-- What an action leaves is coherent. -/
theorem Coherent.play (hu : u.Coherent) (a : Action) : (a.play u).Coherent := by
  refine coherent_abiding.play hu (fun context t => ?_) a
  obtain ⟨J, K, u₁, -, -, -, -, hr, -⟩ := t.play_leads context hu
  exact hr.coherent

end Universe

/-! ## What every history keeps -/

theorem Universe.Coherent.member {u : Universe} (hu : u.Coherent) {id : Int} {e : Environment}
    (he : u.members[id]? = some e) : e.Coherent :=
  Environment.coherent_of_locale (hu.locale he)

mutual

theorem Environment.Arises.coherent : ∀ {e : Environment}, e.Arises → e.Coherent
  | _, .fresh id => (Universe.fresh_standalone id).coherent
  | _, .read h => (Environment.fromRecord_standalone h).coherent
  | _, .operated h around op => (Environment.Arises.coherent h).operated around op
  | _, .member h he => (Universe.Arises.coherent h).member he

theorem Universe.Arises.coherent : ∀ {u : Universe}, u.Arises → u.Coherent
  | _, .empty => Universe.empty_coherentClosed.coherent
  | _, .load h => (Universe.load_loading h).1.coherent
  | _, .ofRoot he h => Universe.ofRoot_coherent (Environment.Arises.coherent he) h
  | _, .played h a => (Universe.Arises.coherent h).play a

end

theorem Environment.Arises.evolved {e : Environment} (h : e.Arises)
    (ops : List (Surroundings × Operation)) : (e.evolved ops).Arises := by
  induction ops generalizing e with
  | nil => exact h
  | cons x ops ih => exact ih (.operated h x.1 x.2)

/-! ## Consistency -/

theorem Index.Tight.getElem?_iff {κ ν : Type} [Ord κ] [TransOrd κ] [LawfulEqOrd κ] [Ord ν] [TransOrd ν]
    [LawfulEqOrd ν] {m : Index κ ν} (hm : m.Tight) {R : ν → Prop} {k : κ} (hR : ∀ v, v ∈ m.bucket k ↔ R v)
    (held : ExtTreeSet ν) : m[k]? = some held ↔ held ≠ ∅ ∧ ∀ v, v ∈ held ↔ R v := by
  constructor
  · intro h
    refine ⟨hm k held h, fun v => ?_⟩
    rw [← hR, bucket, h]
    rfl
  · intro ⟨hne, hheld⟩
    have hbucket : m.bucket k = held := ExtTreeSet.ext_mem fun v => (hR v).trans (hheld v).symm
    unfold bucket at hbucket
    cases hk : m[k]? with
    | none =>
      rw [hk] at hbucket
      exact absurd hbucket.symm hne
    | some held' =>
      rw [hk] at hbucket
      exact congrArg some hbucket

theorem Cell.shows_iff (n : Node) (c : Cell) : c.Shows n ↔ n ∈ c.mentions := by
  refine ⟨Shows.mem_mentions, fun h => ?_⟩
  cases c with
  | plain content =>
    cases content with
    | none => cases h
    | some s => exact .content ((Structure.mem_mentions_iff n s).1 h)
  | proxy target =>
    cases List.mem_singleton.1 h
    exact .target
  | triple => cases h

/-- An index has the handles of the triples with a given part, for each part that there is. -/
def Index.Lists (m : Index Int Int) (t : TripleStore) (part : Statement → Int) : Prop :=
  ∀ (k : Int) (held : ExtTreeSet Int), m[k]? = some held ↔
    held ≠ ∅ ∧ ∀ h, h ∈ held ↔ ∃ st, t.statements[h]? = some st ∧ part st = k

/-- Every table of the environment says what follows from its live handles, what they stand for, their
names, and the statements of triples. -/
structure Environment.Consistent (e : Environment) : Prop where
  self : selfHandle ∈ e.nodes.cells
  bounds : ∀ h ∈ e.nodes.cells, 0 ≤ h ∧ h < e.nodes.next
  names : ∀ (s : String) (h : Int), e.nodes.names[s]? = some h ↔ e.nodes.nameOf[h]? = some s
  named : ∀ h ∈ e.nodes.nameOf, h ∈ e.nodes.cells
  imports : ∀ (t : Node) (h : Int), e.nodes.imports[t]? = some h ↔ e.nodes.cells[h]? = some (.proxy t)
  abroad : ∀ t ∈ e.nodes.imports, t.env ≠ e.id
  /-- A handle is listed with the live handles that show it, if there are any. -/
  referrers : ∀ (k : Int) (held : ExtTreeSet Int), e.nodes.referrers[k]? = some held ↔
    held ≠ ∅ ∧ ∀ h, h ∈ held ↔ ∃ c, e.nodes.cells[h]? = some c ∧ Cell.Shows (e.node k) c
  statements : ∀ h, h ∈ e.triples.statements ↔ e.nodes.cells[h]? = some .triple
  handles : ∀ (st : Statement) (h : Int), e.triples.handles[st]? = some h ↔ e.triples.statements[h]? = some st
  /-- No two triples say the same. -/
  distinct : ∀ (st : Statement) (h k : Int), e.triples.statements[h]? = some st →
    e.triples.statements[k]? = some st → h = k
  subjects : e.triples.bySubject.Lists e.triples Statement.subject
  predicates : e.triples.byPredicate.Lists e.triples Statement.predicate
  objects : e.triples.byObject.Lists e.triples Statement.object

theorem Environment.Coherent.consistent {e : Environment} (he : e.Coherent) : e.Consistent where
  self := he.tabled.self
  bounds := he.tabled.bounds
  names := he.tabled.named.inverse
  named h hh := by
    obtain ⟨s, hs⟩ := (mem_iff_exists_getElem? _ _).1 hh
    exact he.tabled.named.live h s hs
  imports := he.tabled.imports
  abroad t ht := by
    obtain ⟨h, hh⟩ := (mem_iff_exists_getElem? _ _).1 ht
    exact he.tabled.abroad h t ((he.tabled.imports t h).1 hh)
  referrers k held := by
    refine he.referrers_tight.getElem?_iff (fun h => (he.referrers k h).trans ?_) held
    simp only [Cell.shows_iff]
    rfl
  statements := he.tabled.statements
  handles := he.tabled.triples.inverse
  distinct st h k hh hk := by
    have hh := (he.tabled.triples.inverse st h).2 hh
    have hk := (he.tabled.triples.inverse st k).2 hk
    exact Option.some.inj (hh.symm.trans hk)
  subjects k held := he.tabled.triples.subjects.tight.getElem?_iff (he.tabled.triples.subjects.mem_iff k) held
  predicates k held :=
    he.tabled.triples.predicates.tight.getElem?_iff (he.tabled.triples.predicates.mem_iff k) held
  objects k held := he.tabled.triples.objects.tight.getElem?_iff (he.tabled.triples.objects.mem_iff k) held

/-- Every environment that can come about is consistent. -/
theorem Environment.arises_consistent {e : Environment} (h : e.Arises) : e.Consistent :=
  h.coherent.consistent

namespace Environment

/-- A root with three nodes, a triple, and a stand-in for a node that no environment has. -/
def forlorn : Environment := (fresh rootId).evolved <|
  [.createNode (some "then") none, .createNode (some "name") none, .createNode (some "first") none,
    .insertTriple (.node ⟨0, 1⟩) (.node ⟨0, 2⟩) (.node ⟨0, 1⟩), .importNode (.node ⟨7, 3⟩)].map
  fun op => (.alone, op)

/-- The names of its nodes, as roles. -/
def forlornContext : Context where
  env := some rootId
  bindings := [(.form .progn, .node ⟨0, 1⟩), (.form .define, .node ⟨0, 2⟩), (.builtin .car, .node ⟨0, 3⟩)]
  roles := [(.node ⟨0, 1⟩, .form .progn), (.node ⟨0, 2⟩, .form .define), (.node ⟨0, 3⟩, .builtin .car)]
  isSealed := true

/-- A turn that names a new node and fails then. -/
def forlornTurn : Turn where
  state := ⟨⟨rootId, .node ⟨0, 1⟩⟩, [], []⟩
  depth := 3
  program := .list [.node ⟨0, 1⟩, .list [.node ⟨0, 2⟩, .sym "x", .int 1], .list [.node ⟨0, 3⟩, .int 5]]

/-- What the turn leaves is a handle that is no longer used. -/
theorem forlorn_consistent : ∃ u e, Universe.ofRoot forlorn = .ok u ∧
    (forlornTurn.play forlornContext u).members[rootId]? = some e ∧
    (forlorn.nodes.next, forlorn.size, e.nodes.next, e.size) = (6, 6, 7, 6) ∧ e.Consistent := by
  have hrun : ((Universe.ofRoot forlorn).toOption.bind fun u =>
      (forlornTurn.play forlornContext u).members[rootId]?.map fun e =>
        (forlorn.nodes.next, forlorn.size, e.nodes.next, e.size)) = some (6, 6, 7, 6) := by
    decide +kernel
  cases hu : Universe.ofRoot forlorn with
  | error fault =>
    rw [hu] at hrun
    cases hrun
  | ok u =>
    rw [hu] at hrun
    obtain ⟨e, he, hrun⟩ := Option.map_eq_some_iff.1 hrun
    have hroot : u.Arises := .ofRoot ((Arises.fresh rootId).evolved _) hu
    exact ⟨u, e, rfl, he, hrun, arises_consistent (.member (hroot.played (.turn forlornContext forlornTurn)) he)⟩

end Environment

end GraphLisp
