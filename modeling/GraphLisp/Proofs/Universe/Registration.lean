import GraphLisp.Proofs.Universe.OnRecord
/-!
# Registering environments

An environment that no handle has been given out in, and whose own node is bare, is registered as if it
were made for the purpose (`Registers.pristine`), and the universe endures whatever is done to it later.
One with other nodes is refused. But an environment whose other nodes are gone again is refused only when
its node in the root has been made, which stays (`Registers.used`); and one whose own node is not bare is
taken in as it is, under its new id (`Registers.taken`).
-/

namespace GraphLisp

open Std

/-! ## Pristine environments -/

/-- No handle has been given out, and the environment's own node holds nothing and has no name. -/
structure Environment.Pristine (e : Environment) : Prop where
  next : e.nodes.next = 1
  bare : e.nodes.cells[selfHandle]? = some (.plain none)
  unnamed : e.nodes.nameOf[selfHandle]? = none

namespace Environment

variable {e : Environment}

/-- Where no handle has been given out, only the environment's own node is live. -/
theorem Tabled.only_self (he : e.Tabled) (hnext : e.nodes.next = 1) {h : Int} (hh : h ∈ e.nodes.cells) :
    h = selfHandle := by
  have hbounds := he.bounds h hh
  rw [hnext] at hbounds
  change h = 0
  omega

/-- A pristine environment is a new one. -/
theorem Pristine.eq_fresh (hp : e.Pristine) (he : e.Coherent) (hpins : e.pins = []) : e = fresh e.id := by
  have hfresh := (Universe.fresh_standalone e.id).coherent
  have hcells : e.nodes.cells = (fresh e.id).nodes.cells := by
    refine table_ext fun h c => (Iff.trans ?_ (fresh_cells e.id h c).symm)
    constructor
    · intro hc
      have hself := he.tabled.only_self hp.next (mem_of_getElem? hc)
      subst hself
      exact ⟨rfl, Option.some.inj (hc.symm.trans hp.bare)⟩
    · rintro ⟨rfl, rfl⟩
      exact hp.bare
  have hnames : e.nodes.nameOf = (fresh e.id).nodes.nameOf := by
    refine table_ext fun h s => ⟨fun hs => ?_, fun hs => by simp [fresh, NodeTable.empty] at hs⟩
    have hself := he.tabled.only_self hp.next (he.tabled.named.live h s hs)
    subst hself
    cases hs.symm.trans hp.unnamed
  have hstatements : e.triples.statements = (fresh e.id).triples.statements := by
    refine table_ext fun h st => ⟨fun hst => ?_, fun hst => by
      simp [fresh, blank, TripleStore.empty] at hst⟩
    have htriple := (he.tabled.statements h).1 (mem_of_getElem? hst)
    rw [hcells] at htriple
    cases ((fresh_cells _ _ _).1 htriple).2
  have hcontents : e.contents = (fresh e.id).contents := by
    rw [contents, contents, hcells, hnames, hstatements]
  have hlisted : ∀ k h, h ∈ e.nodes.referrers.bucket k ↔ h ∈ (fresh e.id).nodes.referrers.bucket k := by
    intro k h
    rw [he.referrers, hfresh.referrers]
    simp only [Mentions, hcells]
    rfl
  have heq := Locale.eq_of_tabled hfresh.tabled he.tabled rfl hpins hcontents hfresh.referrers_tight
    he.referrers_tight hlisted
  rw [hp.next] at heq
  exact heq

theorem Pristine.size (hp : e.Pristine) (he : e.Coherent) (hpins : e.pins = []) : e.size = 1 := by
  rw [hp.eq_fresh he hpins]
  rfl

/-! ## Environments that no universe has -/

theorem operated_pins (he : e.Coherent) (around : Surroundings) (op : Operation) :
    (e.operated around op).pins = e.pins := by
  obtain ⟨l, hl, heq⟩ := he.operated_changes around op
  have h : l.env.pins = e.pins := hl.pins
  exact heq ▸ h

/-- What operations make of an environment is coherent, and has the same pins. -/
theorem evolved_coherent (ops : List (Surroundings × Operation)) :
    ∀ {e : Environment}, e.Coherent → (e.evolved ops).Coherent ∧ (e.evolved ops).pins = e.pins := by
  induction ops with
  | nil => exact fun he => ⟨he, rfl⟩
  | cons x ops ih =>
    intro e he
    obtain ⟨hc, hpins⟩ := ih (he.operated x.1 x.2)
    exact ⟨hc, hpins.trans (operated_pins he x.1 x.2)⟩

end Environment

namespace Universe

variable {u : Universe}

/-! ## The node of a new environment -/

/-- The root of a universe has been given one more node, and nothing else has changed. -/
structure Plants (u : Universe) (name : Option String) (n : Node) (u' : Universe) : Prop where
  root : ∃ e e', u.members[rootId]? = some e ∧ n = ⟨rootId, e.nodes.next⟩ ∧
    u'.members = u.members.insert rootId e' ∧ e'.id = e.id ∧ e'.nodes.next = e.nodes.next + 1 ∧
    e'.contents = (e.contents.put e.nodes.next (.plain none)).called e.nodes.next name
  references : u'.references = u.references
  heirs : u'.heirs = u.heirs

/-- A node that holds nothing changes no references. -/
theorem putBack_references (hu : u.Coherent) {id : Int} {e : Environment} (he : u.members[id]? = some e)
    {l : Locale} (hl : (u.putBack id l).Coherent) {h : Int} (hfresh : h ∉ e.nodes.cells)
    (hcells : l.env.nodes.cells = e.nodes.cells.insert h (.plain none)) : l.references = u.references := by
  refine hl.references_tight.ext hu.references_tight fun t m => ?_
  have hmentions : (u.putBack id l).Mentions m t ↔ u.Mentions m t := by
    rw [mentions_putBack_iff]
    by_cases hm : m.env = id
    · have hmember : u.Mentions m t ↔ e.Mentions m.id t := by
        simp only [Mentions, hm, he, Option.some.injEq, exists_eq_left']
      rw [hmember]
      simp only [hm, true_and, ne_eq, not_true, false_and, or_false]
      unfold Environment.Mentions
      rw [hcells]
      simp only [getElem?_insert_iff]
      constructor
      · rintro ⟨c, ⟨-, rfl⟩ | ⟨-, hc⟩, ht⟩
        · cases ht
        · exact ⟨c, hc, ht⟩
      · rintro ⟨c, hc, ht⟩
        exact ⟨c, .inr ⟨fun heq => hfresh (heq ▸ mem_of_getElem? hc), hc⟩, ht⟩
    · simp only [hm, false_and, ne_eq, not_false_eq_true, true_and, false_or]
  exact (hl.references t m).trans ((and_congr_right fun _ => hmentions).trans (hu.references t m).symm)

/-- The node for a new environment is made, or nothing changes. No environment has its handle as an id. -/
theorem plant_ends (hu : u.CoherentClosed) (name : Option String) :
    Ends (within rootId fun around => Locale.createNode around name none) u
      (fun n w => n.env = rootId ∧ u.Plants name n w ∧ w.CoherentClosed ∧ n.id ∉ w.members ∧ w.Live n)
      (fun _ w => w = u) := by
  refine within_ends hu.coherent (fun e he => ?_) fun hnone => ?_
  · have hl := hu.coherent.locale he
    have hid := hu.coherent.ids rootId e he
    have hself := hl.tabled.bounds _ hl.tabled.self
    refine ((Locale.createNode_ends hl (u.surroundings rootId) name none).and
      (Locale.createNode_alters hl (u.surroundings rootId) name none)).mono ?_ ?_
    · rintro n l ⟨⟨hn, -, -, hb⟩, halters⟩
      have hclosed : (u.putBack rootId l).CoherentClosed := hu.changes he halters.changes
      have hcells : l.env.nodes.cells = e.nodes.cells.insert e.nodes.next (.plain none) := by
        rw [hb.cells]
        cases name <;> rfl
      have hnode : n = ⟨rootId, e.nodes.next⟩ := hn.trans (by rw [Environment.node, hid])
      subst hnode
      have hrefs := putBack_references hu.coherent he hclosed.coherent hl.tabled.fresh_handle hcells
      refine ⟨rfl, ⟨⟨e, l.env, he, rfl, rfl, hb.id, hb.next, hb.contents⟩, hrefs, ?_⟩, hclosed, ?_, ?_⟩
      · exact hclosed.coherent.heirs.trans hu.coherent.heirs.symm
      · intro hmem
        rcases (mem_insert_iff _ _ _ _).1 hmem with hroot | hmem
        · have hroot : e.nodes.next = 0 := hroot
          have hself : (0 : Int) < e.nodes.next := hself.2
          omega
        · obtain ⟨e', he', hlive⟩ := hu.closed.roots _ hmem
          cases he.symm.trans he'
          exact hl.tabled.fresh_handle hlive
      · refine ⟨l.env, (getElem?_insert_iff _ _ _ _ _).2 (.inl ⟨rfl, rfl⟩), ?_⟩
        rw [hcells]
        exact (mem_insert_iff _ _ _ _).2 (.inl rfl)
    · rintro _ _ ⟨⟨rfl, -⟩, -⟩
      exact putBack_self hu.coherent he
  · obtain ⟨e, he⟩ := (mem_iff_exists_getElem? _ _).1 hu.coherent.root
    cases hnone.symm.trans he

/-- A new environment is made if its node can be made. -/
theorem createEnvironment_cases (hu : u.CoherentClosed) (name : Option String) :
    (∃ id w, within rootId (fun around => Locale.createNode around name none) u = .ok ⟨rootId, id⟩ w ∧
      u.Plants name ⟨rootId, id⟩ w ∧ w.CoherentClosed ∧ id ∉ w.members ∧ w.Live ⟨rootId, id⟩ ∧
      createEnvironment name u = .ok id (w.adopt (.fresh id))) ∨
    ∃ f, within rootId (fun around => Locale.createNode around name none) u = .error f u ∧
      createEnvironment name u = .error f u := by
  have hends := plant_ends hu name
  unfold Ends at hends
  cases hplant : within rootId (fun around => Locale.createNode around name none) u with
  | ok n w =>
    rw [hplant] at hends
    obtain ⟨env, id⟩ := n
    obtain ⟨rfl, hplants, hw, hfree, hlive⟩ := hends
    refine .inl ⟨id, w, rfl, hplants, hw, hfree, hlive, ?_⟩
    unfold createEnvironment
    rw [bind_of_ok hplant, bind_of_ok (attach_denoted hw.coherent hfree hlive)]
    rfl
  | error f w =>
    rw [hplant] at hends
    cases hends
    exact .inr ⟨f, rfl, bind_of_error hplant⟩

/-! ## What registering comes to -/

/-- Nothing that is done later leads to a node that is gone, or keeps the universe from being loaded again
once it has been saved. Saving it fails only if it cannot be spelled or a folder is in the way. -/
structure Endures (u : Universe) : Prop where
  integrity : ∀ later, (u.evolved later).Integrity
  loaded : ∀ later f names g label, (u.evolved later).saveAs .json f = .ok names g →
    ∃ w, load label g = .ok w
  saved : u.Sound false → ∀ later, (∀ a ∈ later, a.Sound) → ∀ f,
    Ends ((u.evolved later).saveAs .json) f (fun _ _ => True) fun _ _ => (u.evolved later).Hindered f

theorem CoherentClosedWith.endures (hu : CoherentClosedWith Writable u) : u.Endures where
  integrity later := (hu.evolved later).integrity
  loaded later f names g label h := by
    have hclosed := (hu.evolved later).toCoherentClosed
    obtain ⟨-, hsaved⟩ := (saveAs_ends hclosed.coherent (fun _ => hclosed.id_nonneg) f).of_ok h
    exact ⟨_, load_saved_onRecord hclosed hsaved label⟩
  saved hs later hlater f := by
    have hclosed := (hu.evolved later).toCoherentClosed
    exact (saveAs_sound_ends hclosed.coherent (fun _ => hclosed.id_nonneg) (hs.evolved hlater) f).mono
      (fun _ _ _ => trivial) fun _ _ h => h.1

/-- What registering an environment comes to. -/
structure Registers (u : Universe) (name : Option String) (e : Environment) : Prop where
  /-- An environment with other nodes than its own is refused. -/
  occupied : e.size ≠ 1 → register name (.outsider e) u = .error .occupied u
  /-- An environment is refused if none can be made under the name. -/
  refused : e.size = 1 → ∀ f v, createEnvironment name u = .error f v →
    v = u ∧ register name (.outsider e) u = .error f u
  /-- An environment whose other nodes are gone is refused, but its node in the root stays. -/
  used : e.size = 1 → e.nodes.next ≠ 1 → ∀ id v, createEnvironment name u = .ok id v →
    ∃ w, register name (.outsider e) u = .error .used w ∧ u.Plants name ⟨rootId, id⟩ w
  /-- Any other environment is taken in as it is. -/
  taken : e.size = 1 → e.nodes.next = 1 → ∀ id v, createEnvironment name u = .ok id v →
    ∃ w, register name (.outsider e) u = .ok ⟨rootId, id⟩ (w.adopt { e with id }) ∧
      u.Plants name ⟨rootId, id⟩ w
  /-- A pristine environment is taken in as if it were made for the purpose. -/
  pristine : e.Pristine → ∀ id v, createEnvironment name u = .ok id v →
    register name (.outsider e) u = .ok ⟨rootId, id⟩ v ∧ v.Endures ∧ (u.Sound false → v.Sound false)

theorem register_occupied {e : Environment} (h : e.size ≠ 1) (name : Option String) :
    register name (.outsider e) u = .error .occupied u := by
  unfold register
  dsimp only
  rw [if_pos h]
  rfl

/-- The first step of registering an environment that has its own node only. -/
theorem register_eq {e : Environment} (h : e.size = 1) (name : Option String) :
    register name (.outsider e) = (do
      let n ← within rootId fun around => Locale.createNode around name none
      if e.nodes.next ≠ 1 then throw .used
      attach { e with id := n.id }
      return n) := by
  unfold register
  dsimp only
  rw [if_neg fun hne => hne h]

theorem CoherentClosedWith.registers (hu : CoherentClosedWith Writable u)
    (name : Option String) {e : Environment} (he : e.Coherent)
    (hpins : e.pins = []) : u.Registers name e := by
  -- a node is made in the root first, and only then is the environment looked into again
  rcases createEnvironment_cases hu.toCoherentClosed name with
    ⟨id, w, hplant, hplants, hw, hfree, hlive, hcreate⟩ | ⟨f, hplant, hcreate⟩
  · have htaken : e.size = 1 → e.nodes.next = 1 →
        register name (.outsider e) u = .ok ⟨rootId, id⟩ (w.adopt { e with id }) := by
      intro hsize hnext
      rw [register_eq hsize, bind_of_ok hplant, if_neg fun hne => hne hnext]
      change (attach { e with id } >>= fun _ => pure _) w = _
      rw [bind_of_ok (attach_denoted (e := { e with id }) hw.coherent hfree hlive)]
      rfl
    refine ⟨fun h => register_occupied h name, fun _ f v h => (nomatch hcreate.symm.trans h),
      ?_, ?_, ?_⟩
    · intro hsize hnext _ v h
      cases hcreate.symm.trans h
      refine ⟨w, ?_, hplants⟩
      rw [register_eq hsize, bind_of_ok hplant, if_pos hnext]
      rfl
    · intro hsize hnext _ v h
      cases hcreate.symm.trans h
      exact ⟨w, htaken hsize hnext, hplants⟩
    · intro hp _ v h
      have hsound : u.Sound false → v.Sound false := by
        intro hs
        have hafter := hs.after (createEnvironment_agree name)
        unfold after at hafter
        rwa [h] at hafter
      cases hcreate.symm.trans h
      refine ⟨?_, ?_, hsound⟩
      · have hfresh : { e with id } = Environment.fresh id := by
          rw [hp.eq_fresh he hpins]
          rfl
        rw [htaken (hp.size he hpins) hp.next, hfresh]
      · have hlasts := (createNode_preserves lasting_writable rootId name none u hu).of_ok hplant
        exact CoherentClosedWith.endures ⟨hw.adopt (fresh_standalone id) hfree hlive (fresh_mentions id),
          lasting_writable.adopt hw hlasts.prop hfree hlive⟩
  · refine ⟨fun h => register_occupied h name, fun hsize g v h => ?_, fun _ _ id v h => ?_, fun _ _ id v h => ?_,
      fun _ id v h => ?_⟩
    · cases hcreate.symm.trans h
      refine ⟨rfl, ?_⟩
      rw [register_eq hsize]
      exact bind_of_error hplant
    · cases hcreate.symm.trans h
    · cases hcreate.symm.trans h
    · cases hcreate.symm.trans h

/-- Whatever has been done to the empty universe or to a loaded one that can be put in words, and whatever
operations have made of an environment, new or read from a record. -/
theorem evolved_registers {u : Universe} (hu : u = .empty ∨ ∃ label f, load label f = .ok u) (hw : u.Writable)
    (actions : List Action) {e : Environment}
    (he : (∃ id, e = .fresh id) ∨ ∃ p, Environment.fromRecord p = .ok e)
    (ops : List (Surroundings × Operation)) (name : Option String) :
    (u.evolved actions).Registers name (e.evolved ops) ∧
      ((∀ a ∈ actions, a.Sound) → (u.evolved actions).Sound false) := by
  have hstand : e.Standalone := by
    rcases he with ⟨id, rfl⟩ | ⟨p, hp⟩
    · exact fresh_standalone id
    · exact Environment.fromRecord_standalone hp
  have hsound : u.Sound false := by
    rcases hu with rfl | ⟨label, f, hload⟩
    · exact empty_sound
    · exact load_sound hload
  obtain ⟨hc, hpins⟩ := Environment.evolved_coherent ops hstand.coherent
  exact ⟨(CoherentClosedWith.evolved ⟨start_coherentClosed hu, hw⟩ actions).registers name hc (hpins.trans hstand.pins),
    fun hactions => hsound.evolved hactions⟩

/-- A new environment whose node had a name for a while. -/
def bare : Environment := (Environment.fresh 7).evolved <|
  [.rename (.node ⟨7, 0⟩) (some "x"), .rename (.node ⟨7, 0⟩) none].map fun op => (.alone, op)

theorem bare_registers : ∃ v,
    createEnvironment (some "near") (empty.evolved [.createEnvironment (some "far")]) = .ok 2 v ∧
    register (some "near") (.outsider bare) (empty.evolved [.createEnvironment (some "far")]) =
      .ok ⟨rootId, 2⟩ v ∧ v.Endures := by
  have hbare : (bare.nodes.cells[selfHandle]?.map fun c => (c.word, c.content.isSome)) = some ("node", false) := by
    decide +kernel
  have hpristine : bare.Pristine := by
    refine ⟨by decide +kernel, ?_, by decide +kernel⟩
    obtain ⟨c, hc, hfacts⟩ := Option.map_eq_some_iff.1 hbare
    cases c with
    | plain content =>
      cases content with
      | none => exact hc
      | some s => simp [Cell.content] at hfacts
    | _ => simp [Cell.word] at hfacts
  have hrun : passes (createEnvironment (some "near")) (empty.evolved [.createEnvironment (some "far")])
      (fun id _ => id == 2) = true := by decide +kernel
  obtain ⟨id, v, hcreate, hid⟩ := exists_of_passes hrun
  obtain rfl : id = 2 := by simpa using hid
  obtain ⟨hregisters, -⟩ := evolved_registers (.inl rfl) empty_writable [.createEnvironment (some "far")]
    (.inl ⟨7, rfl⟩) ([.rename (.node ⟨7, 0⟩) (some "x"), .rename (.node ⟨7, 0⟩) none].map fun op => (.alone, op))
    (some "near")
  obtain ⟨hregister, hendures, -⟩ := hregisters.pristine hpristine 2 v hcreate
  exact ⟨v, hcreate, hregister, hendures⟩

/-- An environment that has lost a node. -/
def spent : Environment := (Environment.fresh 0).evolved <|
  [.createNode none none, .deleteNode (.node ⟨0, 1⟩)].map fun op => (.alone, op)

/-- An environment whose own node holds a node of an environment that is still to come. -/
def expectant : Environment := (Environment.fresh 7).evolved
  [(.alone, .setStructure (.node ⟨7, 0⟩) (some (.node ⟨1, 5⟩)))]

/-- Refusing an environment leaves a node in the root, and another environment is taken in whose node
leads to one that is not there. -/
theorem unfit_registered :
    (∃ w, register none (.outsider spent) .empty = .error .used w ∧ empty.root.size = 1 ∧ w.root.size = 2) ∧
    ∃ v, register none (.outsider expectant) .empty = .ok ⟨rootId, 1⟩ v ∧ ¬v.Integrity := by
  constructor
  · have hrun : (match register none (.outsider spent) .empty with
        | .error .used w => w.root.size == 2
        | _ => false) = true := by decide +kernel
    split at hrun
    · next w h => exact ⟨w, h, by decide +kernel, by simpa using hrun⟩
    · cases hrun
  · have hrun : passes (register none (.outsider expectant)) .empty (fun n v => n == ⟨rootId, 1⟩ &&
        (v.members[(1 : Int)]?.map fun e => (e.nodes.cells.contains 5, e.nodes.cells[(0 : Int)]?.map Cell.mentions)) ==
          some (false, some [⟨1, 5⟩])) = true := by decide +kernel
    obtain ⟨n, v, h, hrun⟩ := exists_of_passes hrun
    rw [Bool.and_eq_true, beq_iff_eq, beq_iff_eq] at hrun
    obtain ⟨rfl, hmember⟩ := hrun
    refine ⟨v, h, fun hintegrity => ?_⟩
    obtain ⟨e, he, hfacts⟩ := Option.map_eq_some_iff.1 hmember
    obtain ⟨hgone, hcell⟩ := Prod.mk.inj hfacts
    obtain ⟨c, hc, hmentions⟩ := Option.map_eq_some_iff.1 hcell
    have hshown : c.Shows ⟨1, 5⟩ := (Cell.shows_iff _ _).2 (by rw [hmentions]; exact List.mem_singleton.2 rfl)
    obtain ⟨e', he', hlive⟩ := hintegrity.shown 1 e 0 c ⟨1, 5⟩ he hc hshown
    cases he.symm.trans he'
    rw [ExtTreeMap.contains_iff_mem.2 hlive] at hgone
    cases hgone

end Universe

end GraphLisp
