import GraphLisp.Proofs.Snapshot
import GraphLisp.Proofs.Universe.Flattened
import GraphLisp.Proofs.Universe.Folder
import GraphLisp.Proofs.Universe.Growth
/-!
# Universes loaded back

A universe that was saved in a folder is loaded from it as the flattened universe
(`Universe.load_saved`). Its members are taken in one by one; `Universe.Within` says that what has been
taken in so far is part of the flattened universe. Where saving has stopped halfway, what was written is loaded
or refused as it is (`Universe.load_stopped`).
-/

namespace GraphLisp

open Std

namespace Universe

variable {u : Universe}

/-! ## The flattened universe -/

theorem getElem?_flattened (u : Universe) (id : Int) :
    u.flattened.members[id]? = u.members[id]?.map Environment.flattened :=
  ExtTreeMap.getElem?_map

theorem mem_flattened (u : Universe) (id : Int) : id ∈ u.flattened.members ↔ id ∈ u.members :=
  ExtTreeMap.mem_map

/-- What is said of members is said of flattened ones. -/
theorem forall_flattened {Q : Int → Environment → Prop} :
    (∀ (id : Int) (e : Environment), u.flattened.members[id]? = some e → Q id e) ↔
      ∀ (id : Int) (e : Environment), u.members[id]? = some e → Q id e.flattened := by
  simp only [getElem?_flattened, Option.map_eq_some_iff]
  constructor
  · exact fun h id e he => h id _ ⟨e, he, rfl⟩
  · rintro h id _ ⟨e, he, rfl⟩
    exact h id e he

theorem live_flattened_iff (n : Node) : u.flattened.Live n ↔ u.Live n := by
  simp only [Live, getElem?_flattened, Option.map_eq_some_iff]
  constructor
  · rintro ⟨_, ⟨e, he, rfl⟩, hn⟩
    exact ⟨e, he, (e.mem_flattened _).1 hn⟩
  · rintro ⟨e, he, hn⟩
    exact ⟨_, ⟨e, he, rfl⟩, (e.mem_flattened _).2 hn⟩

theorem mentions_flattened_iff (n t : Node) : u.flattened.Mentions n t ↔ u.Mentions n t := by
  simp only [Mentions, getElem?_flattened, Option.map_eq_some_iff]
  constructor
  · rintro ⟨_, ⟨e, he, rfl⟩, hn⟩
    exact ⟨e, he, (e.mentions_flattened _ _).1 hn⟩
  · rintro ⟨e, he, hn⟩
    exact ⟨_, ⟨e, he, rfl⟩, (e.mentions_flattened _ _).2 hn⟩

theorem CoherentClosed.flattened (hu : u.CoherentClosed) : u.flattened.CoherentClosed where
  coherent := by
    refine ⟨?_, forall_flattened.2 hu.coherent.ids, (u.mem_flattened _).2 hu.coherent.root,
      forall_flattened.2 fun id e he => (hu.coherent.tabled id e he).flattened,
      forall_flattened.2 hu.coherent.referrers_tight, forall_flattened.2 fun id e he k h => ?_,
      hu.coherent.references_tight, fun t n => ?_⟩
    · rw [Universe.flattened, hu.coherent.heirs]
      rfl
    · rw [e.mentions_flattened]
      exact hu.coherent.referrers id e he k h
    · rw [mentions_flattened_iff]
      exact hu.coherent.references t n
  closed := by
    refine ⟨forall_flattened.2 fun id e he h st hst => ?_, fun n t hm => ?_, fun id hid => ?_⟩
    · obtain ⟨hs, hp, ho⟩ := hu.closed.parts id e he h st hst
      exact ⟨(e.mem_flattened _).2 hs, (e.mem_flattened _).2 hp, (e.mem_flattened _).2 ho⟩
    · exact (live_flattened_iff t).2 (hu.closed.mentions n t ((mentions_flattened_iff n t).1 hm))
    · exact (live_flattened_iff _).2 (hu.closed.roots id ((u.mem_flattened id).1 hid))

/-- What a universe must be for its members to be saved: nothing is pinned, and no triple has a name. -/
def Storable (u : Universe) : Prop := u.Unnamed ∧ u.Unpinned

theorem lasting_storable : Lasting Storable := lasting_unnamed.and lasting_unpinned

/-- Members are coherent on their own. -/
theorem CoherentClosedWith.standalone (hu : CoherentClosedWith Storable u) {id : Int} {e : Environment}
    (he : u.members[id]? = some e) : e.Standalone where
  tabled := hu.coherent.tabled id e he
  referrers_tight := hu.coherent.referrers_tight id e he
  referrers k h := by
    rw [hu.coherent.ids id e he]
    exact hu.coherent.referrers id e he k h
  whole := hu.closed.parts id e he
  known h t hm ht := by
    have hid := hu.coherent.ids id e he
    obtain ⟨e', he', hlive⟩ := hu.closed.mentions ⟨id, h⟩ t ⟨e, he, hm⟩
    rw [ht, hid] at he'
    cases he.symm.trans he'
    exact hlive
  unnamed := hu.prop.1 id e he
  pins := hu.prop.2 id e he

/-! ## The files of a folder -/

/-- A table filled from a list in which no two things have the same key. -/
theorem getElem?_gathered {α β : Type} {key : α → Int} {val : α → β} {xs : List α}
    (hone : ∀ x ∈ xs, ∀ y ∈ xs, key x = key y → x = y) (m : ExtTreeMap Int β) (k : Int) (v : β) :
    (xs.foldl (fun m x => m.insert (key x) (val x)) m)[k]? = some v ↔
      (∃ x ∈ xs, key x = k ∧ val x = v) ∨ ((∀ x ∈ xs, key x ≠ k) ∧ m[k]? = some v) := by
  induction xs generalizing m with
  | nil => simp
  | cons x xs ih =>
    rw [List.foldl_cons, ih fun y hy z hz => hone y (.tail _ hy) z (.tail _ hz), getElem?_insert_iff]
    constructor
    · rintro (⟨y, hy, h⟩ | ⟨hnone, ⟨hk, hv⟩ | ⟨hk, hm⟩⟩)
      · exact .inl ⟨y, .tail _ hy, h⟩
      · exact .inl ⟨x, .head _, hk.symm, hv.symm⟩
      · refine .inr ⟨fun y hy => ?_, hm⟩
        rcases List.mem_cons.1 hy with rfl | hy
        · exact fun h => hk h.symm
        · exact hnone y hy
    · rintro (⟨y, hy, rfl, rfl⟩ | ⟨hnone, hm⟩)
      · by_cases hlater : ∃ z ∈ xs, key z = key y
        · obtain ⟨z, hz, hkey⟩ := hlater
          exact .inl ⟨z, hz, hkey, congrArg val (hone z (.tail _ hz) y hy hkey)⟩
        · have hnone : ∀ z ∈ xs, key z ≠ key y := fun z hz h => hlater ⟨z, hz, h⟩
          rcases List.mem_cons.1 hy with rfl | hy
          · exact .inr ⟨hnone, .inl ⟨rfl, rfl⟩⟩
          · exact absurd rfl (hnone y hy)
      · exact .inr ⟨fun z hz => hnone z (.tail _ hz), .inr ⟨fun h => hnone x (.head _) h.symm, hm⟩⟩

/-- The snapshots of a folder by the ids in their names. -/
def files (f : Folder) : ExtTreeMap Int (String × ByteArray) :=
  f.snapshots.foldl (fun files s => files.insert s.2.1 (s.1, s.2.2)) ∅

/-- The files of a folder are the snapshots that it holds. -/
theorem HoldsJust.getElem?_files {es : List Environment} {g : Folder} (h : HoldsJust es g) (hes : ∀ e ∈ es, 0 ≤ e.id)
    (id : Int) (file : String × ByteArray) :
    (files g)[id]? = some file ↔ file.1 = Folder.nameOfId id .json ∧
      ∃ e ∈ es, e.id = id ∧ e.snapshot (some "json") = .ok file.2 := by
  have hone : ∀ x ∈ g.snapshots, ∀ y ∈ g.snapshots, x.2.1 = y.2.1 → x = y := by
    rintro ⟨name, id, b⟩ hx ⟨name', id', b'⟩ hy heq
    cases heq
    obtain ⟨rfl, -⟩ := (h.mem_snapshots hes).1 hx
    obtain ⟨rfl, -⟩ := (h.mem_snapshots hes).1 hy
    cases (Folder.mem_snapshots.1 hx).1.symm.trans (Folder.mem_snapshots.1 hy).1
    rfl
  rw [files, getElem?_gathered hone]
  constructor
  · rintro (⟨⟨name, id, b⟩, hx, rfl, rfl⟩ | ⟨-, hempty⟩)
    · exact (h.mem_snapshots hes).1 hx
    · simp at hempty
  · rintro ⟨hname, e, he, hid, hb⟩
    obtain ⟨name, b⟩ := file
    exact .inl ⟨(name, id, b), (h.mem_snapshots hes).2 ⟨hname, e, he, hid, hb⟩, rfl, rfl⟩

/-! ## Taking in the members -/

/-- What has been taken in by now: these members of a universe, flattened, and nothing else. -/
structure Within (u : Universe) (ids : List Int) (v : Universe) : Prop where
  loading : v.Loading
  members : ∀ (id : Int) (e : Environment),
    v.members[id]? = some e ↔ (id = rootId ∨ id ∈ ids) ∧ u.flattened.members[id]? = some e

theorem Within.root (hu : u.CoherentClosed) {ids : List Int} {v : Universe} (h : u.Within ids v) {id : Int}
    (hid : id ∈ u.members) : v.Live ⟨rootId, id⟩ := by
  obtain ⟨e, he, hlive⟩ := hu.flattened.closed.roots id ((u.mem_flattened id).2 hid)
  exact ⟨e, (h.members _ _).2 ⟨.inl rfl, he⟩, hlive⟩

theorem attach_denoted {v : Universe} (hv : v.Coherent) {e : Environment} (hfree : e.id ∉ v.members)
    (hroot : v.Live ⟨rootId, e.id⟩) : attach e v = .ok () (v.adopt e) := by
  have hcontains := (root_contains_iff hv e.id).2 hroot
  unfold attach
  rw [get_bind, if_neg hfree, hcontains]
  rfl

/-- The file of a member is taken in if the member is not there yet. -/
theorem Within.loadMember (hu : CoherentClosedWith Storable u) {ids : List Int} {v : Universe}
    (h : u.Within ids v) {id : Int} (hnew : id ∉ ids) (hroot : id ≠ rootId) {e : Environment}
    (he : u.members[id]? = some e) {file : String × ByteArray} (hfile : e.snapshot (some "json") = .ok file.2) :
    ∃ w, Universe.loadMember v id file = .ok w ∧ u.Within (id :: ids) w := by
  have hid : e.flattened.id = id := hu.coherent.ids id e he
  have hread := Environment.restore_snapshot (hu.standalone he) hfile
  have hlive := h.root hu.toCoherentClosed (mem_of_getElem? he)
  have hfree : e.flattened.id ∉ v.members := by
    rw [hid]
    intro hmem
    obtain ⟨e', he'⟩ := (mem_iff_exists_getElem? _ _).1 hmem
    rcases ((h.members _ _).1 he').1 with hr | hi
    · exact hroot hr
    · exact hnew hi
  have hstep : Universe.loadMember v id file = .ok (v.adopt e.flattened) := by
    unfold Universe.loadMember
    rw [hread]
    dsimp only [bind, Except.bind]
    rw [if_neg fun hne => hne hid, (root_contains_iff h.loading.coherent id).2 hlive,
      attach_denoted h.loading.coherent hfree (hid.symm ▸ hlive)]
    rfl
  refine ⟨_, hstep, loadMember_loading h.loading hstep, fun k d => ?_⟩
  have hmember : u.flattened.members[id]? = some e.flattened := by
    rw [getElem?_flattened, he]
    rfl
  rw [adopt, getElem?_insert_iff, h.members, hid, List.mem_cons]
  constructor
  · rintro (⟨rfl, rfl⟩ | ⟨-, hk, hd⟩)
    · exact ⟨.inr (.inl rfl), hmember⟩
    · exact ⟨hk.imp_right .inr, hd⟩
  · rintro ⟨hk, hd⟩
    by_cases hkid : k = id
    · subst hkid
      exact .inl ⟨rfl, Option.some.inj (hd.symm.trans hmember)⟩
    · exact .inr ⟨hkid, hk.imp_right fun hk => hk.resolve_left hkid, hd⟩

/-- The files of members are taken in one by one. -/
theorem Within.loadMembers (hu : CoherentClosedWith Storable u) {others : List (Int × String × ByteArray)}
    (hnodup : (others.map (·.1)).Nodup)
    (hothers : ∀ x ∈ others, x.1 ≠ rootId ∧ ∃ e, u.members[x.1]? = some e ∧
      e.snapshot (some "json") = .ok x.2.2) {ids : List Int} {v : Universe} (h : u.Within ids v)
    (hnew : ∀ x ∈ others, x.1 ∉ ids) :
    ∃ w, others.foldlM (fun v (id, file) => Universe.loadMember v id file) v = .ok w ∧
      u.Within ((others.map (·.1)).reverse ++ ids) w := by
  induction others generalizing ids v with
  | nil => exact ⟨v, rfl, h⟩
  | cons x others ih =>
    obtain ⟨id, file⟩ := x
    obtain ⟨hx, hnodup⟩ := List.nodup_cons.1 hnodup
    obtain ⟨hroot, e, he, hfile⟩ := hothers _ (.head _)
    obtain ⟨w, hw, hwithin⟩ := h.loadMember hu (hnew _ (.head _)) hroot he hfile
    obtain ⟨z, hz, hall⟩ := ih hnodup (fun y hy => hothers y (.tail _ hy)) hwithin fun y hy hmem => by
      rcases List.mem_cons.1 hmem with heq | hmem
      · exact hx (List.mem_map.2 ⟨y, hy, heq⟩)
      · exact hnew y (.tail _ hy) hmem
    refine ⟨z, ?_, ?_⟩
    · rw [List.foldlM_cons]
      dsimp only
      rw [hw]
      exact hz
    · rwa [List.map_cons, List.reverse_cons, List.append_assoc]

/-- What has been taken in with all members is the flattened universe. -/
theorem Within.eq_flattened (hu : u.CoherentClosed) {ids : List Int} {v : Universe} (h : u.Within ids v)
    (hall : ∀ id ∈ u.members, id = rootId ∨ id ∈ ids) : v = u.flattened := by
  have hmembers : v.members = u.flattened.members := by
    refine table_ext fun id e => (h.members id e).trans ⟨And.right, fun he => ⟨?_, he⟩⟩
    exact hall id ((u.mem_flattened id).1 (mem_of_getElem? he))
  have hreferences : v.references = u.flattened.references := by
    refine h.loading.coherent.references_tight.ext hu.flattened.coherent.references_tight fun t n => ?_
    rw [h.loading.coherent.references, hu.flattened.coherent.references]
    unfold Mentions
    rw [hmembers]
  have hheirs : v.heirs = u.flattened.heirs :=
    h.loading.coherent.heirs.trans hu.flattened.coherent.heirs.symm
  obtain ⟨members, references, heirs⟩ := v
  cases hmembers
  cases hreferences
  cases hheirs
  rfl

/-- The members of a universe have their own ids. -/
theorem Coherent.getElem?_of_mem_environments (hu : u.Coherent) {e : Environment} (he : e ∈ u.environments) :
    u.members[e.id]? = some e := by
  obtain ⟨id, he⟩ := (mem_environments e).1 he
  exact (hu.ids id e he).symm ▸ he

/-- The last look at a universe finds nothing, or a node that is mentioned and not there. -/
theorem Coherent.checkReferences_cases (hu : u.Coherent) : u.checkReferences = .ok () ∨
    ∃ n t, u.Mentions n t ∧ ¬u.Live t ∧ u.checkReferences = .error (.corrupt (.danglingBetween n t)) := by
  unfold checkReferences
  dsimp only
  split
  · next n t heq =>
    obtain ⟨e, he, hr⟩ := List.mem_flatMap.1 (List.mem_of_find?_eq_some heq)
    obtain ⟨hn, -, hm⟩ := (e.mem_foreignReferences_iff _ _).1 hr
    have hdead := List.find?_some heq
    refine .inr ⟨n, t, ⟨e, hn ▸ hu.getElem?_of_mem_environments he, hm⟩, fun hlive => ?_, rfl⟩
    rw [(resolves_iff hu t).2 hlive] at hdead
    cases hdead
  · exact .inl rfl

theorem CoherentClosed.checkReferences (hu : u.CoherentClosed) : u.checkReferences = .ok () := by
  rcases hu.coherent.checkReferences_cases with h | ⟨n, t, hm, hdead, -⟩
  · exact h
  · exact absurd (hu.closed.mentions n t hm) hdead

/-- The flattened root is what the members are taken into. -/
theorem ofRoot_within (hu : CoherentClosedWith Storable u) {e : Environment} (he : u.members[rootId]? = some e) :
    ∃ v, ofRoot e.flattened = .ok v ∧ u.Within [] v := by
  have hid : e.flattened.id = rootId := hu.coherent.ids rootId e he
  have hstand := (hu.standalone he).flattened
  have hroot : ofRoot e.flattened =
      .ok ⟨(∅ : ExtTreeMap Int Environment).insert rootId e.flattened, wire ∅ e.flattened, []⟩ := by
    unfold ofRoot
    rw [if_neg fun h => h hid]
    dsimp only
    rw [Standalone.unpinned hstand]
  refine ⟨_, hroot, ofRoot_loading hstand hroot, fun id d => ?_⟩
  rw [getElem?_insert_iff, ExtTreeMap.getElem?_empty]
  have hmember : u.flattened.members[rootId]? = some e.flattened := by
    rw [getElem?_flattened, he]
    rfl
  constructor
  · rintro (⟨rfl, rfl⟩ | ⟨-, h⟩)
    · exact ⟨.inl rfl, hmember⟩
    · cases h
  · rintro ⟨rfl | h, hd⟩
    · exact .inl ⟨rfl, Option.some.inj (hd.symm.trans hmember)⟩
    · cases h

/-- Some members of a universe, the root among them, are loaded from their snapshots, flattened; whether nothing else
is mentioned in them is looked at last. -/
theorem load_held (hu : CoherentClosedWith Storable u) {es : List Environment}
    (hes : ∀ e ∈ es, u.members[e.id]? = some e) (hroot : rootId ∈ es.map (·.id)) {g : Folder} (h : HoldsJust es g)
    (label : String) :
    ∃ w, u.Within (es.map (·.id)) w ∧ load label g = (do w.checkReferences; return w) := by
  have hids : ∀ e ∈ es, 0 ≤ e.id := fun e he => hu.id_nonneg (mem_of_getElem? (hes e he))
  obtain ⟨e, he, hid⟩ := List.mem_map.1 hroot
  obtain ⟨b, hb, -⟩ := h.saved e he
  have he' : u.members[rootId]? = some e := hid ▸ hes e he
  have hfile : (files g)[rootId]? = some (Folder.nameOfId rootId .json, b) :=
    (h.getElem?_files hids rootId _).2 ⟨rfl, e, he, hid, hb⟩
  have hread := Environment.restore_snapshot (hu.standalone he') hb
  obtain ⟨v, hv, hwithin⟩ := ofRoot_within hu he'
  have hothers : ∀ x ∈ ((files g).erase rootId).toList, x.1 ≠ rootId ∧ ∃ d, u.members[x.1]? = some d ∧
      d.snapshot (some "json") = .ok x.2.2 := by
    rintro ⟨id, file⟩ hx
    obtain ⟨hne, hx⟩ := (getElem?_erase_iff _ _ _ _).1 (ExtTreeMap.mem_toList_iff_getElem?_eq_some.1 hx)
    obtain ⟨-, d, hd, rfl, hsnapshot⟩ := (h.getElem?_files hids id file).1 hx
    exact ⟨hne, d, hes d hd, hsnapshot⟩
  have hnodup : (((files g).erase rootId).toList.map (·.1)).Nodup :=
    List.pairwise_map.2 (ExtTreeMap.distinct_keys_toList.imp fun hne heq => hne (Std.compare_eq_iff_eq.2 heq))
  obtain ⟨w, hw, hall⟩ := hwithin.loadMembers hu hnodup hothers fun _ _ => nofun
  have hstep : load label g = (do
      let root ← Environment.restore (.bytes b) none
      if root.id ≠ rootId then Except.error (Fault.corrupt .rootId)
      else
        let u ← ((files g).erase rootId).toList.foldlM (fun u (id, file) => loadMember u id file) (← ofRoot root)
        u.checkReferences
        return u) := by
    unfold load
    dsimp only
    rw [← files, hfile]
  refine ⟨w, ⟨hall.loading,
    fun id d => (hall.members id d).trans (and_congr_left' (or_congr_right' fun hne => ?_))⟩, ?_⟩
  · -- the other files are those of the environments besides the root
    rw [List.append_nil, List.mem_reverse, List.mem_map, List.mem_map]
    constructor
    · rintro ⟨⟨_, file⟩, hx, rfl⟩
      obtain ⟨-, hx⟩ := (getElem?_erase_iff _ _ _ _).1 (ExtTreeMap.mem_toList_iff_getElem?_eq_some.1 hx)
      obtain ⟨-, d, hd, hid, -⟩ := (h.getElem?_files hids _ file).1 hx
      exact ⟨d, hd, hid⟩
    · rintro ⟨d, hd, rfl⟩
      obtain ⟨c, hc, -⟩ := h.saved d hd
      have hx := (h.getElem?_files hids d.id (Folder.nameOfId d.id .json, c)).2 ⟨rfl, d, hd, rfl, hc⟩
      exact ⟨_, ExtTreeMap.mem_toList_iff_getElem?_eq_some.2 ((getElem?_erase_iff _ rootId _ _).2 ⟨hne, hx⟩), rfl⟩
  · have hid : e.flattened.id = rootId := hid
    rw [hstep, hread]
    dsimp only [bind, Except.bind]
    rw [if_neg fun hne => hne hid, hv]
    dsimp only
    rw [hw]

/-- A universe that was saved in a folder is loaded from it as the flattened universe. -/
theorem load_saved (hu : CoherentClosedWith Storable u) {f g : Folder} (h : u.SavedIn f g) (label : String) :
    load label g = .ok u.flattened := by
  have hmem : ∀ id ∈ u.members, id ∈ u.environments.map (·.id) := by
    intro id hid
    obtain ⟨e, he⟩ := (mem_iff_exists_getElem? _ _).1 hid
    exact List.mem_map.2 ⟨e, (mem_environments e).2 ⟨id, he⟩, hu.coherent.ids id e he⟩
  obtain ⟨w, hw, hload⟩ := load_held hu (fun _ => hu.coherent.getElem?_of_mem_environments)
    (hmem _ hu.coherent.root) h.holdsJust label
  rw [hload, hw.eq_flattened hu.toCoherentClosed fun id hid => .inr (hmem id hid), hu.flattened.checkReferences]
  rfl

/-! ## Saving that has stopped -/

/-- The root is the first of the environments. -/
theorem CoherentClosed.root_first (hu : u.CoherentClosed) {e : Environment} {rest : List Environment}
    (h : u.environments = e :: rest) : e.id = rootId := by
  obtain ⟨r, hr⟩ := (mem_iff_exists_getElem? _ _).1 hu.coherent.root
  have hsorted : u.members.toList.Pairwise fun a b => compare a.1 b.1 = .lt := ExtTreeMap.ordered_keys_toList
  have hmem : (rootId, r) ∈ u.members.toList := ExtTreeMap.mem_toList_iff_getElem?_eq_some.2 hr
  unfold environments at h
  cases hlist : u.members.toList with
  | nil =>
    rw [hlist] at h
    cases h
  | cons x xs =>
    rw [hlist] at h hsorted hmem
    cases h
    have hx : u.members[x.1]? = some x.2 :=
      ExtTreeMap.mem_toList_iff_getElem?_eq_some.1 (hlist ▸ List.mem_cons_self)
    rw [hu.coherent.ids _ _ hx]
    rcases List.mem_cons.1 hmem with heq | hmem
    · rw [← heq]
    · -- no id is less than that of the root
      have hlt : x.1 < rootId := Std.compare_eq_lt.1 ((List.pairwise_cons.1 hsorted).1 _ hmem)
      exact absurd (hu.id_nonneg (mem_of_getElem? hx)) (Int.not_le.2 hlt)

/-- What has been taken in mentions no other missing nodes than those of members that have not. -/
theorem Within.not_mem_of_dead (hu : u.CoherentClosed) {ids : List Int} {v : Universe} (h : u.Within ids v)
    {n t : Node} (hm : v.Mentions n t) (hdead : ¬v.Live t) : t.env ∉ v.members := by
  intro hmem
  obtain ⟨e, he⟩ := (mem_iff_exists_getElem? _ _).1 hmem
  obtain ⟨d, hd, hm⟩ := hm
  obtain ⟨e', he', hlive⟩ := hu.flattened.closed.mentions n t ⟨d, ((h.members _ _).1 hd).2, hm⟩
  cases ((h.members _ _).1 he).2.symm.trans he'
  exact hdead ⟨e, he, hlive⟩

/-- What is loaded once saving has stopped in a folder without snapshots: nothing, if nothing has been written, and
otherwise the environments that have been written, unless one of them mentions a node of one that has not been. -/
theorem load_stopped (hu : CoherentClosedWith Storable u) {f g : Folder} (hf : ∀ name, ¬f.Holds name)
    (h : Stopped u.environments f g) (label : String) :
    load label g = .ok empty ∨ ∃ done w, done <+: u.environments ∧ u.Within (done.map (·.id)) w ∧
      ((load label g = .ok w ∧ w.Closed) ∨ ∃ n t, w.Mentions n t ∧ t.env ∉ w.members ∧
        load label g = .error (.corrupt (.danglingBetween n t))) := by
  obtain ⟨done, e, rest, heq, -, hwrote⟩ := h
  have hheld := hwrote.holdsJust hf
  cases done with
  | nil =>
    have hnone : ∀ (id : Int) file, (files g)[id]? ≠ some file := fun id file hfile => by
      obtain ⟨-, d, hd, -⟩ := (hheld.getElem?_files nofun id file).1 hfile
      cases hd
    have hfiles : files g = ∅ := table_ext fun id file => by
      rw [ExtTreeMap.getElem?_empty]
      exact iff_of_false (hnone id file) (by simp)
    refine .inl ?_
    unfold load
    dsimp only
    rw [← files, hfiles]
    rfl
  | cons d done =>
    have hes : ∀ x ∈ d :: done, u.members[x.id]? = some x := fun x hx =>
      hu.coherent.getElem?_of_mem_environments (heq ▸ List.mem_append_left _ hx)
    have hroot : rootId ∈ (d :: done).map (·.id) := by
      rw [← hu.root_first heq]
      exact List.mem_map_of_mem (.head _)
    obtain ⟨w, hw, hload⟩ := load_held hu hes hroot hheld label
    refine .inr ⟨d :: done, w, ⟨e :: rest, heq.symm⟩, hw, ?_⟩
    rw [hload]
    rcases hw.loading.coherent.checkReferences_cases with hcheck | ⟨n, t, hm, hdead, hcheck⟩
    · rw [hcheck]
      exact .inl ⟨rfl, hw.loading.closed hcheck⟩
    · rw [hcheck]
      exact .inr ⟨n, t, hm, hw.not_mem_of_dead hu.toCoherentClosed hm hdead, rfl⟩

end Universe

end GraphLisp
