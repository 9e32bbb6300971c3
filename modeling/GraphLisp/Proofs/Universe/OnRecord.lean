import GraphLisp.Proofs.Session.Restart
import GraphLisp.Proofs.Universe.Deletion
/-!
# Universes on record

The files of a universe tell nothing of the names of its triples. What is loaded from them is the part of
the universe that is on record, flattened (`Universe.load_saved_onRecord`), so that every coherent and closed universe
is loaded again once it has been saved. Saving fails only if the universe cannot be spelled or a folder is
in the way of a file, as long as the structures that actions are given are sound.
-/

namespace GraphLisp

open Std

namespace Universe

variable {u : Universe}

/-- The universe as far as its files tell. -/
def onRecord (u : Universe) : Universe := { u with members := u.members.map fun _ e => e.onRecord }

theorem getElem?_onRecord (u : Universe) (id : Int) :
    u.onRecord.members[id]? = u.members[id]?.map Environment.onRecord :=
  ExtTreeMap.getElem?_map

/-- What is said of members is said of what is on record of them. -/
theorem forall_onRecord {Q : Int → Environment → Prop} :
    (∀ (id : Int) (e : Environment), u.onRecord.members[id]? = some e → Q id e) ↔
      ∀ (id : Int) (e : Environment), u.members[id]? = some e → Q id e.onRecord := by
  simp only [getElem?_onRecord, Option.map_eq_some_iff]
  constructor
  · exact fun h id e he => h id _ ⟨e, he, rfl⟩
  · rintro h id _ ⟨e, he, rfl⟩
    exact h id e he

theorem live_onRecord_iff (n : Node) : u.onRecord.Live n ↔ u.Live n := by
  simp only [Live, getElem?_onRecord, Option.map_eq_some_iff]
  constructor
  · rintro ⟨_, ⟨e, he, rfl⟩, hn⟩
    exact ⟨e, he, hn⟩
  · rintro ⟨e, he, hn⟩
    exact ⟨_, ⟨e, he, rfl⟩, hn⟩

theorem mentions_onRecord_iff (n t : Node) : u.onRecord.Mentions n t ↔ u.Mentions n t := by
  simp only [Mentions, getElem?_onRecord, Option.map_eq_some_iff]
  constructor
  · rintro ⟨_, ⟨e, he, rfl⟩, hn⟩
    exact ⟨e, he, hn⟩
  · rintro ⟨e, he, hn⟩
    exact ⟨_, ⟨e, he, rfl⟩, hn⟩

/-- A member of a coherent and closed universe is enclosed. -/
theorem CoherentClosed.enclosed (hu : u.CoherentClosed) {id : Int} {e : Environment}
    (he : u.members[id]? = some e) : e.Enclosed where
  whole := hu.closed.parts id e he
  known h t hm ht := by
    have hid := hu.coherent.ids id e he
    obtain ⟨e', he', hlive⟩ := hu.closed.mentions ⟨id, h⟩ t ⟨e, he, hm⟩
    rw [ht, hid] at he'
    cases he.symm.trans he'
    exact hlive

/-- What is on record of a coherent and closed universe is so, too, and can be stored. -/
theorem CoherentClosed.onRecord (hu : u.CoherentClosed) : CoherentClosedWith Storable u.onRecord := by
  have hstand : ∀ (id : Int) (e : Environment), u.members[id]? = some e → e.onRecord.Standalone :=
    fun id e he => (hu.coherent.member he).standalone (hu.enclosed he)
  refine ⟨⟨?_, ?_⟩, ?_, ?_⟩
  · refine ⟨hu.coherent.heirs, forall_onRecord.2 hu.coherent.ids, ExtTreeMap.mem_map.2 hu.coherent.root,
      forall_onRecord.2 fun id e he => (hstand id e he).tabled,
      forall_onRecord.2 fun id e he => (hstand id e he).referrers_tight,
      forall_onRecord.2 hu.coherent.referrers, hu.coherent.references_tight, fun t n => ?_⟩
    rw [mentions_onRecord_iff]
    exact hu.coherent.references t n
  · refine ⟨forall_onRecord.2 hu.closed.parts, fun n t hm => ?_, fun id hid => ?_⟩
    · exact (live_onRecord_iff t).2 (hu.closed.mentions n t ((mentions_onRecord_iff n t).1 hm))
    · exact (live_onRecord_iff _).2 (hu.closed.roots id (ExtTreeMap.mem_map.1 hid))
  · exact forall_onRecord.2 fun id e he => (hstand id e he).unnamed
  · exact forall_onRecord.2 fun id e he => (hstand id e he).pins

/-! ## Files -/

theorem fileNames_onRecord (u : Universe) : u.onRecord.fileNames = u.fileNames := by
  simp only [fileNames, environments, onRecord, ExtTreeMap.toList_map, List.map_map]
  rfl

/-- The files of a universe are those of what is on record of it. -/
theorem SavedIn.onRecord {f g : Folder} (h : u.SavedIn f g) : u.onRecord.SavedIn f g where
  saved := forall_onRecord.2 fun id e he => by
    obtain ⟨b, hb, hfile⟩ := h.saved id e he
    refine ⟨b, ?_, hfile⟩
    rw [Environment.snapshot, Environment.toRecord_onRecord]
    exact hb
  gone := by
    rw [fileNames_onRecord]
    exact h.gone
  others := by
    rw [fileNames_onRecord]
    exact h.others

/-- What is loaded after a coherent and closed universe was saved is what is on record of it. -/
theorem load_saved_onRecord (hu : u.CoherentClosed) {f g : Folder} (h : u.SavedIn f g) (label : String) :
    load label g = .ok u.onRecord.flattened :=
  load_saved hu.onRecord h.onRecord label

end Universe

/-! ## Sound actions -/

/-- What an action is given is sound. -/
def Action.Sound : Action → Prop
  | .createEnvironment _ => True
  | .link source predicate target =>
    source.Sound false ∧ predicate.Sound false ∧ target.Sound false
  | .operate _ op => op.Sound false
  | .turn context t => context.OfNodes ∧ t.Sound

namespace Universe

variable {u : Universe}

/-- What is done alike to universes alike leaves sound universes sound. -/
theorem Sound.after {α : Type} {Q : α → α → Prop} {m : Change α} (hu : u.Sound false)
    (h : Agree (Universe.Like false) Q m m) : (after m u).Sound false :=
  ((like_iff _ _).1 (h.after ((like_iff u u).2 ⟨rfl, hu, hu⟩))).2.1

theorem link_agree {source predicate target : Structure} (hs : source.Sound false)
    (hp : predicate.Sound false) (ht : target.Sound false) :
    Agree (Universe.Like false) (fun _ _ => True) (link source predicate target)
      (link source predicate target) := by
  have hresolve : ∀ s : Structure, Agree (Universe.Like false) (fun _ _ => True) (query (·.resolve s))
      (query (·.resolve s)) := by
    intro s
    refine query_agree fun u v h => ?_
    cases s with
    | node n => exact (resolve_likes h n).mono fun _ _ _ => trivial
    | _ => exact .error rfl
  refine (hresolve source).bind fun _ _ _ => (hresolve target).bind fun _ _ _ => ?_
  refine within_agree rootId fun around => ?_
  exact (Locale.insertTriple_agree (.refl hs) (.refl hp) (.refl ht)).bind fun _ _ _ => agree_pure trivial

theorem Sound.play (hu : u.Sound false) {a : Action} (ha : a.Sound) : (a.play u).Sound false := by
  cases a with
  | createEnvironment name => exact hu.after (createEnvironment_agree name)
  | link source predicate target => exact hu.after (link_agree ha.1 ha.2.1 ha.2.2)
  | operate env op => exact hu.after (within_agree env fun around => Operation.perform_agree around ha)
  | turn context t => exact Turn.play_sound ha.1 ha.2 hu

theorem Sound.evolved (hu : u.Sound false) {actions : List Action} (ha : ∀ a ∈ actions, a.Sound) :
    (u.evolved actions).Sound false := by
  unfold Universe.evolved
  induction actions generalizing u with
  | nil => exact hu
  | cons a rest ih => exact ih (hu.play (ha a (.head _))) fun b hb => ha b (.tail _ hb)

end Universe

end GraphLisp
