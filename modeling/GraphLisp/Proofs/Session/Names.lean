import GraphLisp.Proofs.Session.Turns
/-!
# Names that stay

A name is lost only with its node. Setting up a session loses none (`Universe.Keeps`), and a turn loses
none of a node that plays a role or denotes an environment (`Turn.play_calls`).
-/

namespace GraphLisp

open Std

namespace Universe

variable {u v : Universe} {s : String} {n : Node}

/-- A node has a name. -/
def Calls (u : Universe) (s : String) (n : Node) : Prop :=
  ∃ e, u.members[n.env]? = some e ∧ e.nodes.nameOf[n.id]? = some s

/-- Environments find the nodes that have names. -/
theorem Coherent.lookupName_iff (hu : u.Coherent) {id : Int} {e : Environment} (he : u.members[id]? = some e) :
    e.lookupName s = some n ↔ n.env = id ∧ u.Calls s n := by
  have hid := hu.ids id e he
  rw [Environment.lookupName, Option.map_eq_some_iff]
  constructor
  · rintro ⟨h, hh, rfl⟩
    refine ⟨hid, e, ?_, ((hu.tabled id e he).named.inverse s h).1 hh⟩
    rwa [Environment.node, hid]
  · rintro ⟨rfl, e', he', hs⟩
    cases he.symm.trans he'
    refine ⟨n.id, ((hu.tabled _ e he).named.inverse s n.id).2 hs, ?_⟩
    rw [Environment.node, hid]

theorem findEnvironment_iff (hu : u.Coherent) :
    u.findEnvironment s = some n ↔ n.env = rootId ∧ u.Calls s n ∧ n.id ∈ u.members := by
  obtain ⟨e, he⟩ := (mem_iff_exists_getElem? _ _).1 hu.root
  have hroot : u.root = e := by rw [root, he, Option.getD_some]
  rw [findEnvironment, hroot, Option.filter_eq_some_iff, hu.lookupName_iff he, ExtTreeMap.contains_iff_mem,
    and_assoc]

/-- What has a name is live, and no triple. -/
theorem CoherentClosedWith.live_of_calls (hu : CoherentClosedWith Unnamed u) (h : u.Calls s n) :
    ∃ e c, u.members[n.env]? = some e ∧ e.nodes.cells[n.id]? = some c ∧ c ≠ .triple := by
  obtain ⟨e, he, hs⟩ := h
  obtain ⟨c, hc⟩ := (mem_iff_exists_getElem? _ _).1 ((hu.coherent.tabled _ e he).named.live _ _ hs)
  refine ⟨e, c, he, hc, ?_⟩
  rintro rfl
  cases (hu.prop _ e he n.id hc).symm.trans hs

/-! ## Alterations -/

/-- An alteration takes no name away but that of the node it removes. -/
theorem Alters.calls (hu : u.Coherent) {c : Int × Undo} (h : u.Alters c v) (hn : u.Calls s n)
    (hkept : c.2.removed? ≠ some n) : v.Calls s n := by
  obtain ⟨e, l, he, h, rfl⟩ := h
  obtain ⟨d, hd, hs⟩ := hn
  by_cases henv : n.env = c.1
  · rw [henv, he] at hd
    cases hd
    refine ⟨l.env, (getElem?_insert_iff _ _ _ _ _).2 (.inl ⟨henv, rfl⟩), ?_⟩
    have hl := hu.locale he
    have hnode : ∀ h : Int, h = n.id → e.node h = n := by
      rintro h rfl
      rw [Environment.node, hu.ids _ e he, ← henv]
    have hlive : n.id ≠ e.nodes.next := fun hnext =>
      hl.tabled.fresh_handle (hnext ▸ hl.tabled.named.live _ _ hs)
    generalize c.2 = undo at h hkept
    cases h with
    | @made _ _ name _ _ _ _ hb =>
      rw [hb.nameOf, Contents.called_nameOf, if_neg hlive]
      exact hs
    | related _ _ _ _ hb =>
      rw [hb.nameOf]
      exact hs
    | replaced _ _ hb =>
      rw [hb.nameOf]
      exact hs
    | @removedNode _ h _ _ _ _ _ hb =>
      rw [hb.nameOf]
      refine (getElem?_erase_iff _ _ _ _).2 ⟨fun heq => hkept ?_, hs⟩
      exact congrArg some (hnode h heq.symm)
    | @removedTriple _ h _ _ _ _ hb =>
      rw [hb.nameOf]
      refine (getElem?_erase_iff _ _ _ _).2 ⟨fun heq => hkept ?_, hs⟩
      exact congrArg some (hnode h heq.symm)
  · exact ⟨d, (getElem?_insert_iff _ _ _ _ _).2 (.inr ⟨henv, hd⟩), hs⟩

/-- What denotes an environment is not removed. -/
theorem Alters.removed_ne (hu : u.Coherent) {c : Int × Undo} (h : u.Alters c v) {id : Int} (hid : id ∈ u.members) :
    c.2.removed? ≠ some ⟨rootId, id⟩ := by
  obtain ⟨e, l, he, h, rfl⟩ := h
  have hpin : ∀ k, Locale.Unused ⟨e, u.references⟩ (u.surroundings c.1) k → e.node k ≠ ⟨rootId, id⟩ := by
    intro k hk heq
    have := hk.no_pin
    dsimp only at this
    rw [heq] at this
    have henv : c.1 = rootId := by
      rw [← hu.ids _ e he]
      exact congrArg Node.env heq
    simp only [surroundings, henv, beq_self_eq_true, Bool.true_and, denotes,
      ExtTreeMap.contains_iff_mem.2 hid] at this
    cases this
  generalize c.2 = undo at h
  cases h with
  | removedNode _ _ _ unused _ => exact fun heq => hpin _ unused (Option.some.inj heq)
  | removedTriple _ _ unused _ => exact fun heq => hpin _ unused (Option.some.inj heq)
  | _ => exact (Option.some_ne_none _).symm

/-- Restoring a universe brings back its names. -/
theorem Restored.calls (hu : CoherentClosedWith Unnamed u) (h : u.Restored v) (hn : u.Calls s n) : v.Calls s n := by
  obtain ⟨e, c, he, hc, hct⟩ := hu.live_of_calls hn
  obtain ⟨e', he'⟩ := h.exists_member he
  obtain ⟨d, hd, hs⟩ := hn
  cases he.symm.trans hd
  refine ⟨e', he', ((h.each _ e e' he he').contents.kept n.id ?_).trans hs⟩
  exact fun ht => hct (Option.some.inj (hc.symm.trans ht))

/-! ## Growing -/

/-- The second universe has the environments and the names of the first one. -/
structure Keeps (u v : Universe) : Prop where
  members : ∀ id ∈ u.members, id ∈ v.members
  calls : ∀ (s : String) (n : Node), u.Calls s n → v.Calls s n

theorem Keeps.refl (u : Universe) : u.Keeps u := ⟨fun _ h => h, fun _ _ h => h⟩

theorem Keeps.trans {w : Universe} (h : u.Keeps v) (h' : v.Keeps w) : u.Keeps w :=
  ⟨fun id hid => h'.members id (h.members id hid), fun s n hn => h'.calls s n (h.calls s n hn)⟩

theorem Alters.keeps (hu : u.Coherent) {c : Int × Undo} (h : u.Alters c v) (hc : c.2.removed? = none) :
    u.Keeps v where
  members id hid := (h.members_iff id).2 hid
  calls _ _ hn := h.calls hu hn (by rw [hc]; exact nofun)

theorem keeps_adopt {e : Environment} (hfree : e.id ∉ u.members) : u.Keeps (u.adopt e) where
  members id hid := (mem_insert_iff _ _ _ _).2 (.inr hid)
  calls s n := by
    rintro ⟨d, hd, hs⟩
    refine ⟨d, (getElem?_insert_iff _ _ _ _ _).2 (.inr ⟨fun heq => hfree ?_, hd⟩), hs⟩
    exact heq ▸ mem_of_getElem? hd

/-- Making a node keeps all names, and the node has the name that it was to have. -/
theorem createNode_keeps (hu : u.CoherentClosed) (id : Int) (name : Option String) :
    Ends (within id fun around => Locale.createNode around name none) u
      (fun n v => u.Keeps v ∧ n.env = id ∧ ∀ s, name = some s → v.Calls s n) fun _ v => v = u := by
  refine within_ends hu.coherent (fun e he => ?_) fun _ => rfl
  have hid := hu.coherent.ids id e he
  have hl := hu.coherent.locale he
  refine ((Locale.createNode_ends hl (u.surroundings id) name none).and
    (Locale.createNode_room hl (u.surroundings id) name none)).mono ?_ ?_
  · rintro _ l ⟨⟨rfl, free, known, hb⟩, room⟩
    have halters : u.Alters (id, .created (e.node e.nodes.next)) (u.putBack id l) :=
      ⟨e, l, he, .made (by simp) known free room hb, rfl⟩
    refine ⟨halters.keeps hu.coherent rfl, hid, ?_⟩
    rintro s rfl
    refine ⟨l.env, (getElem?_insert_iff _ _ _ _ _).2 (.inl ⟨hid, rfl⟩), ?_⟩
    rw [hb.nameOf, Contents.called_nameOf]
    exact if_pos rfl
  · rintro _ _ ⟨⟨rfl, -⟩, -⟩
    exact putBack_self hu.coherent he

theorem attach_keeps (hu : u.CoherentClosed) (id : Int) :
    Ends (attach (.fresh id)) u (fun _ v => u.Keeps v ∧ id ∈ v.members) fun _ v => v = u := by
  refine (attach_ends hu.coherent (.fresh id)).mono ?_ fun _ _ h => h
  rintro _ _ ⟨hfree, -, rfl⟩
  exact ⟨keeps_adopt hfree, (mem_insert_iff _ _ _ _).2 (.inl rfl)⟩

variable {P : Universe → Prop}

/-- Growing loses neither environments nor names. -/
theorem growing_keeps (hP : Lasting P) (u : Universe) : Growing fun v => CoherentClosedWith P v ∧ u.Keeps v where
  createNode id name := by
    rintro v ⟨hv, hk⟩
    refine ((createNode_preserves hP id name none v hv).and (createNode_keeps hv.toCoherentClosed id name)).mono ?_ ?_
    · exact fun _ _ h => ⟨h.1, hk.trans h.2.1⟩
    · rintro _ _ ⟨h, rfl⟩
      exact ⟨h, hk⟩
  attach id := by
    rintro v ⟨hv, hk⟩
    refine ((attach_preserves hP id v hv).and (attach_keeps hv.toCoherentClosed id)).mono ?_ ?_
    · exact fun _ _ h => ⟨h.1, hk.trans h.2.1⟩
    · rintro _ _ ⟨h, rfl⟩
      exact ⟨h, hk⟩

theorem query_ok {α : Type} {f : Universe → Except Fault α} {a : α} (h : f u = .ok a) : query f u = .ok a u := by
  unfold query
  rw [get_bind, h]
  rfl

/-- An environment with the name that is demanded is found. -/
theorem demandEnvironment_found (hu : u.Coherent) {name : String} {id : Int} (h : u.Calls name ⟨rootId, id⟩)
    (hid : id ∈ u.members) : demandEnvironment (some name) u = .ok id u := by
  have hfound : u.findEnvironment name = some ⟨rootId, id⟩ := (findEnvironment_iff hu).2 ⟨rfl, h, hid⟩
  have hresolve : u.resolve (.node ⟨rootId, id⟩) = .ok id := by
    rw [resolve, if_pos]
    simp [denotes, hid]
  unfold demandEnvironment
  rw [get_bind, Option.getD_some, hfound]
  exact query_ok hresolve

/-- The environment that is demanded has the name that it was demanded by. -/
theorem demandEnvironment_calls (hu : u.CoherentClosed) (name : String) :
    Ends (demandEnvironment (some name)) u
      (fun id v => v.Calls name ⟨rootId, id⟩ ∧ id ∈ v.members) fun _ _ => True := by
  cases hn : u.findEnvironment name with
  | some n =>
    obtain ⟨hroot, hcalls, hmem⟩ := (findEnvironment_iff hu.coherent).1 hn
    have hnode : n = ⟨rootId, n.id⟩ := by
      rw [← hroot]
    rw [hnode] at hcalls
    unfold Ends
    rw [demandEnvironment_found hu.coherent hcalls hmem]
    exact ⟨hcalls, hmem⟩
  | none =>
    unfold demandEnvironment
    rw [ends_bind, ends_get, Option.getD_some, hn]
    unfold createEnvironment
    refine ((createNode_preserves lasting_true rootId (some name) none u ⟨hu, trivial⟩).and
      (createNode_keeps hu rootId (some name))).bind ?_ fun _ _ _ => trivial
    rintro n v ⟨hv, -, henv, hcalls⟩
    refine (attach_keeps hv.toCoherentClosed n.id).bind ?_ fun _ _ _ => trivial
    rintro - w ⟨hk, hmem⟩
    have hnode : n = ⟨rootId, n.id⟩ := by
      rw [← henv]
    exact ⟨hnode ▸ hk.calls _ _ (hcalls name rfl), hmem⟩

/-- A node with the name of a role is found. -/
theorem roleNode_found (hu : u.Coherent) {id : Int} {r : Role} (hid : id ∈ u.members) (hn : n.env = id)
    (h : u.Calls r.word n) : Context.roleNode id r u = .ok n u := by
  obtain ⟨e, he⟩ := (mem_iff_exists_getElem? _ _).1 hid
  have hfound : e.lookupName r.word = some n := (hu.lookupName_iff he).2 ⟨hn, h⟩
  unfold Context.roleNode
  rw [bind_of_ok (query_ok (environment_iff.2 he)), hfound]
  rfl

/-- The node for a role has the name of the role. -/
theorem roleNode_calls (hu : u.CoherentClosed) (id : Int) (r : Role) :
    Ends (Context.roleNode id r) u (fun n v => n.env = id ∧ v.Calls r.word n) fun _ _ => True := by
  unfold Context.roleNode
  refine (query_ends _ u).bind ?_ fun _ _ _ => trivial
  rintro e _ ⟨rfl, he⟩
  have he := environment_iff.1 he
  cases hn : e.lookupName r.word with
  | some n => exact (hu.coherent.lookupName_iff he).1 hn
  | none =>
    exact (createNode_keeps hu id (some r.word)).mono (fun _ _ h => ⟨h.2.1, h.2.2 _ rfl⟩) fun _ _ _ => trivial

end Universe

/-! ## Turns -/

/-- A node that is not removed: it plays a role, or it denotes an environment. -/
def Universe.Safe (c : Context) (u : Universe) (n : Node) : Prop :=
  c.roleOf (.node n) ≠ none ∨ n.env = rootId ∧ n.id ∈ u.members

namespace Universe

variable {u v : Universe} {s : String} {n : Node}

/-- What a step does takes no name away from a safe node. -/
theorem Alterations.calls (hu : u.CoherentClosed) {c : Context} {J : Journal Int} (h : u.Alterations J v)
    (hJ : c.Spared J) (hn : u.Calls s n) (hsafe : u.Safe c n) : v.Calls s n := by
  induction h with
  | none => exact hn
  | @more J a u₁ u₂ h h' ih =>
    have hcoh := (h.coherentClosed hu).coherent
    refine h'.calls hcoh (ih fun entry he => hJ entry (.tail _ he)) fun hremoved => ?_
    rcases hsafe with hrole | ⟨hroot, hmem⟩
    · exact hrole (hJ a (.head _) n hremoved)
    · refine h'.removed_ne hcoh ((h.members_iff n.id).2 hmem) ?_
      rw [hremoved, ← hroot]

end Universe

/-- A turn takes no name away from a safe node, and no environment. -/
theorem Turn.play_calls (c : Context) (t : Turn) {u : Universe}
    (hu : Universe.CoherentClosedWith (fun u => u.Unnamed ∧ u.Writable) u) :
    (∀ id ∈ u.members, id ∈ (t.play c u).members) ∧
      ∀ s n, u.Calls s n → u.Safe c n → (t.play c u).Calls s n := by
  rw [Turn.play_eq]
  refine Ends.after (P := fun v : Universe => (∀ id ∈ u.members, id ∈ v.members) ∧
    ∀ s n, u.Calls s n → u.Safe c n → v.Calls s n) ?_
  refine (Evaluator.step_ends ⟨hu.toCoherentClosed, hu.prop.2⟩).mono ?_ ?_
  · rintro _ v ⟨J, hJ, hspared⟩
    exact ⟨fun id hid => (hJ.members_iff id).2 hid, fun s n hn hs => hJ.calls hu.toCoherentClosed hspared hn hs⟩
  · intro _ v hr
    exact ⟨fun id hid => (hr.members id).2 hid, fun s n hn _ => hr.calls ⟨hu.toCoherentClosed, hu.prop.1⟩ hn⟩

end GraphLisp
