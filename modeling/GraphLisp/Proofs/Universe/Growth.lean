import GraphLisp.Proofs.Universe.Load
/-!
# Growing universes

Besides being altered, a universe grows by environments that are still empty. What alterations and
new environments keep, every operation on a universe keeps: a property is shown to be `Lasting` once.
That triples have no names lasts, that nothing is pinned, and that every node can be put in words. Setting
up a session does no more than make nodes and environments (`Growing`).
-/

namespace GraphLisp

open Std

namespace Universe

/-- A property that alterations of a coherent and closed universe, undoing them, and new empty environments
keep. -/
structure Lasting (P : Universe → Prop) : Prop where
  alters : ∀ {u u' : Universe} {c : Int × Undo}, u.CoherentClosed → P u → u.Alters c u' → P u'
  restored : ∀ {u v : Universe}, P u → u.Restored v → P v
  adopt : ∀ {u : Universe} {id : Int}, u.CoherentClosed → P u → id ∉ u.members → u.Live ⟨rootId, id⟩ →
    P (u.adopt (.fresh id))

/-- A coherent and closed universe with a lasting property. -/
structure CoherentClosedWith (P : Universe → Prop) (u : Universe) : Prop extends u.CoherentClosed where
  prop : P u

variable {P : Universe → Prop}

theorem lasting_true : Lasting fun _ => True where
  alters _ _ _ := trivial
  restored _ _ := trivial
  adopt _ _ _ _ := trivial

theorem Lasting.and {Q : Universe → Prop} (hP : Lasting P) (hQ : Lasting Q) : Lasting fun u => P u ∧ Q u where
  alters hu h hc := ⟨hP.alters hu h.1 hc, hQ.alters hu h.2 hc⟩
  restored h hr := ⟨hP.restored h.1 hr, hQ.restored h.2 hr⟩
  adopt hu h hfree hroot := ⟨hP.adopt hu h.1 hfree hroot, hQ.adopt hu h.2 hfree hroot⟩

theorem Lasting.undone (hP : Lasting P) {u v : Universe} (hu : CoherentClosedWith P u) (h : u.Restored v) :
    CoherentClosedWith P v :=
  ⟨⟨h.coherent, h.closed hu.closed⟩, hP.restored hu.prop h⟩

theorem Lasting.alterations (hP : Lasting P) {u v : Universe} {J : Journal Int} (hu : CoherentClosedWith P u)
    (h : u.Alterations J v) : CoherentClosedWith P v := by
  induction h with
  | none => exact hu
  | more h h' ih =>
    exact ⟨⟨h'.coherent ih.coherent, h'.closed ih.coherent ih.closed⟩,
      hP.alters ih.toCoherentClosed ih.prop h'⟩

/-! ## New environments -/

/-- A coherent and closed universe with an environment that mentions nothing is coherent and closed. -/
theorem CoherentClosed.adopt {u : Universe} {e : Environment} (hu : u.CoherentClosed) (he : e.Standalone)
    (hfree : e.id ∉ u.members) (hroot : u.Live ⟨rootId, e.id⟩) (hm : ∀ h t, ¬e.Mentions h t) :
    (u.adopt e).CoherentClosed where
  coherent := hu.coherent.adopt he hfree
  closed := by
    refine ⟨fun k e' hk => ?_, fun n t hnt => ?_, fun k hk => ?_⟩
    · rcases (getElem?_insert_iff _ _ _ _ _).1 hk with ⟨rfl, rfl⟩ | ⟨-, hk⟩
      · exact he.whole
      · exact hu.closed.parts k e' hk
    · rcases (mentions_adopt_iff n t).1 hnt with ⟨-, hnt⟩ | ⟨-, hnt⟩
      · exact absurd hnt (hm _ t)
      · exact live_adopt hfree (hu.closed.mentions n t hnt)
    · rcases (mem_insert_iff _ _ _ _).1 hk with rfl | hk
      · exact live_adopt hfree hroot
      · exact live_adopt hfree (hu.closed.roots k hk)

theorem fresh_mentions (id h : Int) (t : Node) : ¬(Environment.fresh id).Mentions h t := by
  rintro ⟨c, hc, hn⟩
  obtain ⟨-, rfl⟩ := (Environment.fresh_cells id h c).1 hc
  cases hn

/-- An operation that does nothing but alterations keeps what lasts. -/
theorem within_preserves (hP : Lasting P) {α : Type} {id : Int} {op : Surroundings → Op α}
    (h : ∀ around l, Locale.Coherent l → Ends (op around) l
      (fun _ l' => ∃ us, Locale.Alterations around l us l') (fun _ l' => l' = l)) :
    Preserves (CoherentClosedWith P) (within id op) := by
  intro u hu
  refine within_ends hu.coherent (fun e he => ?_) fun _ => hu
  refine (h (u.surroundings id) _ (hu.coherent.locale he)).mono ?_ ?_
  · rintro _ l ⟨us, ha⟩
    exact hP.alterations hu (alterations_putBack hu.coherent he ha)
  · rintro _ _ rfl
    rwa [putBack_self hu.coherent he]

theorem createNode_preserves (hP : Lasting P) (id : Int) (name : Option String)
    (content : Option Structure) :
    Preserves (CoherentClosedWith P) (within id fun around => Locale.createNode around name content) :=
  within_preserves hP fun around _ hl => (Locale.createNode_alters hl around name content).mono
    (fun _ _ h => ⟨_, .more .none h⟩) fun _ _ h => h

theorem tell_preserves (hP : Lasting P) (id : Int) (s p o : Structure) :
    Preserves (CoherentClosedWith P) (within id fun _ => Locale.tell s p o) := by
  refine within_preserves hP fun around l hl => ?_
  refine (Locale.insertTriple_alters hl around s p o).bind ?_ fun _ _ h => h
  rintro r l' (⟨-, h⟩ | ⟨-, rfl⟩)
  · exact ⟨_, .more .none h⟩
  · exact ⟨_, .none⟩

theorem attach_preserves (hP : Lasting P) (id : Int) : Preserves (CoherentClosedWith P) (attach (.fresh id)) := by
  intro u hu
  refine (attach_ends hu.coherent (.fresh id)).mono ?_ ?_
  · rintro - _ ⟨hfree, hroot, rfl⟩
    exact ⟨hu.adopt (fresh_standalone id) hfree hroot (fresh_mentions id),
      hP.adopt hu.toCoherentClosed hu.prop hfree hroot⟩
  · rintro _ _ rfl
    exact hu

/-! ## Setting up a session -/

/-- An invariant that new nodes and new empty environments keep. -/
structure Growing (I : Universe → Prop) : Prop where
  createNode : ∀ (id : Int) (name : Option String),
    Preserves I (within id fun around => Locale.createNode around name none)
  attach : ∀ id : Int, Preserves I (attach (.fresh id))

theorem Lasting.growing (hP : Lasting P) : Growing (CoherentClosedWith P) where
  createNode id name := createNode_preserves hP id name none
  attach := attach_preserves hP

/-- A question changes nothing. -/
theorem query_ends {α : Type} (f : Universe → Except Fault α) (u : Universe) :
    Ends (query f) u (fun a v => v = u ∧ f u = .ok a) fun fault v => v = u ∧ f u = .error fault := by
  unfold query
  rw [ends_bind, ends_get]
  cases f u <;> exact ⟨rfl, rfl⟩

theorem preserves_query {I : Universe → Prop} {α : Type} (f : Universe → Except Fault α) :
    Preserves I (query f) := fun u hu =>
  (query_ends f u).mono (fun _ _ h => h.1 ▸ hu) fun _ _ h => h.1 ▸ hu

namespace Growing

variable {I : Universe → Prop}

theorem createEnvironment (hI : Growing I) (name : Option String) : Preserves I (createEnvironment name) :=
  (hI.createNode rootId name).bind fun n => (hI.attach n.id).bind fun _ => preserves_pure _

theorem demandEnvironment (hI : Growing I) (name : Option String) : Preserves I (demandEnvironment name) := by
  refine preserves_get.bind fun u => ?_
  split
  · exact preserves_query _
  · exact hI.createEnvironment name

theorem roleNode (hI : Growing I) (id : Int) (r : Role) : Preserves I (Context.roleNode id r) := by
  refine (preserves_query _).bind fun e => ?_
  split
  · exact preserves_pure _
  · exact hI.createNode id _

theorem bindAll (hI : Growing I) (id : Int) (rs : List Role) :
    ∀ c, Preserves I (Context.bindAll id rs c) := by
  induction rs with
  | nil => exact fun c => preserves_pure c
  | cons r rest ih =>
    intro c
    refine (hI.roleNode id r).bind fun n => ?_
    split
    · exact ih _
    · exact preserves_throw _

theorem bootstrap (hI : Growing I) (name : Option String) : Preserves I (Context.bootstrap name) :=
  (hI.demandEnvironment name).bind fun id => (hI.bindAll id _ _).bind fun _ => preserves_pure _

theorem setUp (hI : Growing I) (config : Config) : Preserves I (Session.setUp config) :=
  (hI.bootstrap _).bind fun _ => (hI.demandEnvironment _).bind fun _ => preserves_pure _

/-- Setting up a session keeps what growing keeps. -/
theorem ofUniverse (hI : Growing I) {config : Config} {u : Universe} {s : Session} (hu : I u)
    (h : Session.ofUniverse config u = .ok s) : I s.store := by
  unfold Session.ofUniverse at h
  split at h
  · next heq =>
    cases h
    exact (hI.setUp config u hu).of_ok heq
  · cases h

end Growing

theorem link_preserves (hP : Lasting P) (source predicate target : Structure) :
    Preserves (CoherentClosedWith P) (link source predicate target) :=
  (preserves_query _).bind fun _ => (preserves_query _).bind fun _ => tell_preserves hP rootId _ _ _

/-! ## Names of triples -/

theorem Alters.unnamed {u u' : Universe} {c : Int × Undo} (hu : u.CoherentClosed) (hn : u.Unnamed)
    (h : u.Alters c u') : u'.Unnamed := by
  obtain ⟨e, l, he, h, rfl⟩ := h
  have hold := hn _ e he
  have hl := hu.coherent.locale he
  -- the handle that is given out next has no name
  have hfresh := (hl.tabled.fresh hl.tabled.fresh_handle).name
  intro k e' hk x hx
  rcases (getElem?_insert_iff _ _ _ _ _).1 hk with ⟨-, rfl⟩ | ⟨-, hk⟩
  · generalize c.2 = undo at h
    cases h with
    | @made _ cell name hc _ _ _ hb =>
      have hcells : l.env.nodes.cells = e.nodes.cells.insert e.nodes.next cell := by
        rw [hb.cells]; cases name <;> rfl
      rw [hcells] at hx
      rcases (getElem?_insert_iff _ _ _ _ _).1 hx with ⟨-, hc'⟩ | ⟨hne, hx⟩
      · exact absurd hc'.symm hc
      · rw [hb.nameOf, Contents.called_nameOf, if_neg hne]
        exact hold x hx
    | related _ _ _ _ hb =>
      rw [hb.cells] at hx
      rw [hb.nameOf]
      rcases (getElem?_insert_iff _ _ _ _ _).1 hx with ⟨rfl, -⟩ | ⟨-, hx⟩
      · exact hfresh
      · exact hold x hx
    | replaced _ _ hb =>
      rw [hb.cells] at hx
      rw [hb.nameOf]
      rcases (getElem?_insert_iff _ _ _ _ _).1 hx with ⟨-, hc⟩ | ⟨-, hx⟩
      · cases hc
      · exact hold x hx
    | removedNode _ _ _ _ hb => exact removed hold hx hb.cells hb.nameOf
    | removedTriple _ _ _ hb => exact removed hold hx hb.cells hb.nameOf
  · exact hn k e' hk x hx
where
  /-- Removing a handle names nothing. -/
  removed {e e' : Environment} {h x : Int} (hold : ∀ h : Int,
      e.nodes.cells[h]? = some .triple → e.nodes.nameOf[h]? = none)
      (hx : e'.nodes.cells[x]? = some .triple) (hcells : e'.nodes.cells = e.nodes.cells.erase h)
      (hnames : e'.nodes.nameOf = e.nodes.nameOf.erase h) : e'.nodes.nameOf[x]? = none := by
    rw [hcells] at hx
    rw [hnames]
    refine Option.eq_none_iff_forall_ne_some.2 fun s hs => ?_
    have hnone := hold x ((getElem?_erase_iff _ _ _ _).1 hx).2
    exact nomatch hnone.symm.trans ((getElem?_erase_iff _ _ _ _).1 hs).2

theorem Restored.unnamed {u v : Universe} (h : u.Restored v) (hu : u.Unnamed) : v.Unnamed := by
  intro id e' he' x hx
  obtain ⟨e, he⟩ := h.exists_before he'
  have hr := h.each id e e' he he'
  refine Option.eq_none_iff_forall_ne_some.2 fun s hs => ?_
  have hcells : e'.nodes.cells = e.nodes.cells := hr.cells
  have hs' : e.nodes.nameOf[x]? = some s := hr.contents.names x s hs
  exact nomatch hs'.symm.trans (hu id e he x (hcells ▸ hx))

theorem lasting_unnamed : Lasting Unnamed where
  alters hu hn h := h.unnamed hu hn
  restored hn h := h.unnamed hn
  adopt hu hn _ _ := by
    intro k e' hk x hx
    rcases (getElem?_insert_iff _ _ _ _ _).1 hk with ⟨rfl, rfl⟩ | ⟨-, hk⟩
    · exact (fresh_standalone _).unnamed x hx
    · exact hn k e' hk x hx

/-! ## Pins -/

theorem Alters.unpinned {u v : Universe} {c : Int × Undo} (h : u.Alters c v) (hu : u.Unpinned) : v.Unpinned := by
  obtain ⟨e, l, he, h, rfl⟩ := h
  intro k e' hk
  rcases (getElem?_insert_iff _ _ _ _ _).1 hk with ⟨-, rfl⟩ | ⟨-, hk⟩
  · obtain ⟨g, next, hb, -⟩ := h.becomes
    exact hb.pins.trans (hu _ e he)
  · exact hu k e' hk

theorem lasting_unpinned : Lasting Unpinned where
  alters _ hp h := h.unpinned hp
  restored := by
    intro u v hp h k e' hk
    obtain ⟨e, he⟩ := h.exists_before hk
    exact (h.each k e e' he hk).pins.trans (hp k e he)
  adopt := by
    intro u id hu hp _ _ k e' hk
    rcases (getElem?_insert_iff _ _ _ _ _).1 hk with ⟨rfl, rfl⟩ | ⟨-, hk⟩
    · rfl
    · exact hp k e' hk

/-! ## Nodes in words -/

/-- Every live node can be put in words. -/
def Writable (u : Universe) : Prop := ∀ n, u.Live n → n.isWritable = true

/-- The handles that are given out are short enough. -/
theorem lasting_writable : Lasting Writable where
  alters := by
    rintro u _ c hu hw ⟨e, l, he, h, rfl⟩ n ⟨d, hd, hn⟩
    rcases (getElem?_insert_iff _ _ _ _ _).1 hd with ⟨henv, rfl⟩ | ⟨-, hd⟩
    · rcases h.live_before hn with hold | ⟨hnew, room⟩
      · exact hw n ⟨e, henv ▸ he, hold⟩
      · have hl := hu.coherent.locale he
        -- the environment's own node has its id in it
        have hself := hw ⟨n.env, selfHandle⟩ ⟨e, henv ▸ he, hl.tabled.self⟩
        simp only [Node.isWritable, Bool.and_eq_true] at hself ⊢
        exact ⟨hself.1, hnew ▸ hl.room_writable room⟩
    · exact hw n ⟨d, hd, hn⟩
  restored hw h n hn := hw n ((h.live_iff n).1 hn)
  adopt := by
    rintro u id - hw - hroot n ⟨d, hd, hn⟩
    rcases (getElem?_insert_iff _ _ _ _ _).1 hd with ⟨henv, rfl⟩ | ⟨-, hd⟩
    · have hid := hw _ hroot
      have henv : n.env = id := henv
      simp only [Node.isWritable, Bool.and_eq_true] at hid ⊢
      rw [henv, Environment.mem_fresh hn]
      exact ⟨hid.2, Decimal.isWritable_handle (Int.le_refl _) (by decide)⟩
    · exact hw n ⟨d, hd, hn⟩

theorem empty_writable : Universe.empty.Writable := by
  rintro n ⟨e, he, hn⟩
  rcases (getElem?_insert_iff _ _ _ _ _).1 he with ⟨henv, rfl⟩ | ⟨-, he⟩
  · simp only [Node.isWritable, henv, Environment.mem_fresh hn]
    decide +kernel
  · simp at he

/-- Where every node can be put in words, every change can be recorded. -/
theorem Writable.labelled {u v : Universe} (hw : u.Writable) (hu : u.Coherent) {c : Int × Undo}
    (h : u.Alters c v) : c.2.isLabelled = true := by
  obtain ⟨e, l, he, h, rfl⟩ := h
  have hl := hu.locale he
  have hlive : ∀ {k : Int} {c : Cell}, e.nodes.cells[k]? = some c → Decimal.isWritable k = true := fun {k c} hk => by
    have hword := hw ⟨_, k⟩ ⟨e, he, mem_of_getElem? hk⟩
    simp only [Node.isWritable, Bool.and_eq_true] at hword
    exact hword.2
  generalize c.2 = undo at h ⊢
  rw [Undo.isLabelled_eq]
  cases h with
  | made _ _ _ room => exact hl.room_writable room
  | related _ _ _ room => exact hl.room_writable room
  | replaced cell => exact hlive cell
  | removedNode cell => exact hlive cell
  | removedTriple cell => exact hlive cell

/-- All that alterations do to such a universe can be recorded. -/
theorem Alterations.labelled {u v : Universe} {J : Journal Int} (hu : CoherentClosedWith Writable u)
    (h : u.Alterations J v) :
    J.labelled = J := by
  induction h with
  | none => rfl
  | more h h' ih =>
    have hlasts := lasting_writable.alterations hu h
    rw [Journal.labelled_cons_of (hlasts.prop.labelled hlasts.coherent h'), ih]

/-! ## Counters -/

section
variable {u v w : Universe}

/-- Every environment is still there, and its counter has not gone back. -/
def Advances (u v : Universe) : Prop :=
  ∀ (id : Int) (e : Environment), u.members[id]? = some e →
    ∃ e', v.members[id]? = some e' ∧ e.nodes.next ≤ e'.nodes.next

theorem Advances.refl (u : Universe) : u.Advances u := fun _ e he => ⟨e, he, Int.le_refl _⟩

theorem Advances.trans (h : u.Advances v) (h' : v.Advances w) : u.Advances w := by
  intro id e he
  obtain ⟨e₁, he₁, hle⟩ := h id e he
  obtain ⟨e₂, he₂, hle'⟩ := h' id e₁ he₁
  exact ⟨e₂, he₂, Int.le_trans hle hle'⟩

theorem advances_putBack {id : Int} {e : Environment} (he : u.members[id]? = some e) {l : Locale}
    (hle : e.nodes.next ≤ l.env.nodes.next) : u.Advances (u.putBack id l) := by
  intro k e' hk
  by_cases hkid : k = id
  · subst hkid
    cases he.symm.trans hk
    exact ⟨l.env, (getElem?_insert_iff _ _ _ _ _).2 (.inl ⟨rfl, rfl⟩), hle⟩
  · exact ⟨e', (getElem?_insert_iff _ _ _ _ _).2 (.inr ⟨hkid, hk⟩), Int.le_refl _⟩

theorem Alters.advances {c : Int × Undo} (h : u.Alters c v) : u.Advances v := by
  obtain ⟨e, l, he, h, rfl⟩ := h
  obtain ⟨g, next, hb, hle⟩ := h.becomes
  exact advances_putBack he (hb.next.symm ▸ hle)

theorem Alterations.advances {J : Journal Int} (h : u.Alterations J v) : u.Advances v := by
  induction h with
  | none => exact .refl u
  | more _ h' ih => exact ih.trans h'.advances

theorem Leaves.advances (h : u.Leaves v) : u.Advances v := by
  intro id e he
  obtain ⟨e', he'⟩ := h.exists_member he
  exact ⟨e', he', (h.each id e e' he he').next⟩

theorem Alters.members_iff {c : Int × Undo} (h : u.Alters c v) (id : Int) : id ∈ v.members ↔ id ∈ u.members := by
  obtain ⟨e, l, he, -, rfl⟩ := h
  rw [putBack_members, mem_insert_iff]
  exact ⟨fun h => h.elim (fun h => h ▸ mem_of_getElem? he) fun h => h, .inr⟩

theorem Alterations.members_iff {J : Journal Int} (h : u.Alterations J v) (id : Int) :
    id ∈ v.members ↔ id ∈ u.members := by
  induction h with
  | none => rfl
  | more _ h' ih => exact (h'.members_iff id).trans ih

/-- Where the counters can be written after they have advanced, every node could be put in words before. -/
theorem Advances.writable (hu : u.CoherentClosed) (h : u.Advances v)
    (hv : ∀ (id : Int) (e : Environment), v.members[id]? = some e → Decimal.isWritable e.nodes.next = true) :
    u.Writable := by
  have hhandle : ∀ (id k : Int) (e : Environment), u.members[id]? = some e → k ∈ e.nodes.cells →
      Decimal.isWritable k = true := by
    intro id k e he hk
    obtain ⟨e', he', hle⟩ := h id e he
    obtain ⟨hlow, hhigh⟩ := (hu.coherent.tabled id e he).bounds k hk
    exact Decimal.isWritable_of_le hlow (Int.le_trans (Int.le_of_lt hhigh) hle) (hv id e' he')
  rintro ⟨id, k⟩ ⟨e, he, hk⟩
  -- the id of an environment is a handle of the root
  obtain ⟨root, hroot, hid⟩ := hu.closed.roots id (mem_of_getElem? he)
  rw [Node.isWritable, Bool.and_eq_true]
  exact ⟨hhandle _ _ _ hroot hid, hhandle _ _ _ he hk⟩

end

end Universe

end GraphLisp
