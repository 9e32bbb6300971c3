import GraphLisp.Evaluator.Basic
import GraphLisp.Proofs.Universe.Coherence
/-!
# Rolling back

A journal that recorded every alteration since some state leads back to that state, and rolling
back fails nowhere (`Universe.Alterations.undone`). The proof goes back through the journal: each
undo meets a universe that restores the one its alteration left, so that it restores the one
before.

Some alterations may not have been recorded, because their labels cannot be written, and some of those that were
may not be undone, because something is gone that they need. Rolling back leads to what is left of the universe at
some moment between the alterations then (`Universe.Alterations.rollback_leads`).
-/

namespace GraphLisp

open Std

namespace Universe

variable {u v : Universe}

/-! ## Universes with the same graphs -/

/-- The second universe has the same environments with the same cells and statements. -/
structure SameGraphs (u v : Universe) : Prop where
  members : ∀ id, id ∈ v.members ↔ id ∈ u.members
  each : ∀ (id : Int) (e e' : Environment), u.members[id]? = some e → v.members[id]? = some e' →
    e'.nodes.cells = e.nodes.cells ∧ e'.triples.statements = e.triples.statements

theorem SameGraphs.exists_member (h : u.SameGraphs v) {id : Int} {e : Environment}
    (he : u.members[id]? = some e) : ∃ e', v.members[id]? = some e' :=
  (mem_iff_exists_getElem? _ _).1 ((h.members id).2 (mem_of_getElem? he))

theorem SameGraphs.exists_before (h : u.SameGraphs v) {id : Int} {e' : Environment}
    (he : v.members[id]? = some e') : ∃ e, u.members[id]? = some e :=
  (mem_iff_exists_getElem? _ _).1 ((h.members id).1 (mem_of_getElem? he))

theorem SameGraphs.live_iff (h : u.SameGraphs v) (n : Node) : v.Live n ↔ u.Live n := by
  constructor
  · rintro ⟨e', he', hn⟩
    obtain ⟨e, he⟩ := h.exists_before he'
    exact ⟨e, he, (h.each _ e e' he he').1 ▸ hn⟩
  · rintro ⟨e, he, hn⟩
    obtain ⟨e', he'⟩ := h.exists_member he
    exact ⟨e', he', (h.each _ e e' he he').1 ▸ hn⟩

theorem SameGraphs.mentions_iff (h : u.SameGraphs v) (n t : Node) : v.Mentions n t ↔ u.Mentions n t := by
  constructor
  · rintro ⟨e', he', c, hc, ht⟩
    obtain ⟨e, he⟩ := h.exists_before he'
    exact ⟨e, he, c, (h.each _ e e' he he').1 ▸ hc, ht⟩
  · rintro ⟨e, he, c, hc, ht⟩
    obtain ⟨e', he'⟩ := h.exists_member he
    exact ⟨e', he', c, (h.each _ e e' he he').1 ▸ hc, ht⟩

theorem SameGraphs.closed (h : u.SameGraphs v) (hu : u.Closed) : v.Closed where
  parts id e' he' k st hk := by
    obtain ⟨e, he⟩ := h.exists_before he'
    have hsame := h.each _ e e' he he'
    rw [hsame.1]
    exact hu.parts id e he k st (hsame.2 ▸ hk)
  mentions n t hm := (h.live_iff t).2 (hu.mentions n t ((h.mentions_iff n t).1 hm))
  roots id hid := (h.live_iff _).2 (hu.roots id ((h.members id).1 hid))

/-! ## Restored universes -/

/-- The second universe has the same environments, and each of them is related to what it was. -/
structure Memberwise (R : Locale → Locale → Prop) (u v : Universe) : Prop where
  coherent : v.Coherent
  members : ∀ id, id ∈ v.members ↔ id ∈ u.members
  each : ∀ (id : Int) (e e' : Environment), u.members[id]? = some e → v.members[id]? = some e' →
    R ⟨e, u.references⟩ ⟨e', v.references⟩

/-- The second universe is the first one again: the same environments with the same contents, up
to names of triples and to counters that have moved on. -/
abbrev Restored (u v : Universe) : Prop := Memberwise Locale.Restored u v

/-- The second universe is what is left of the first one. -/
abbrev Leaves (u v : Universe) : Prop := Memberwise Locale.Leaves u v

theorem Coherent.restored (hu : u.Coherent) : u.Restored u where
  coherent := hu
  members _ := Iff.rfl
  each id e e' he he' := by
    rw [he] at he'
    cases he'
    exact ⟨hu.locale he, rfl, rfl, .refl _, Int.le_refl _⟩

theorem Restored.leaves (h : u.Restored v) : u.Leaves v where
  coherent := h.coherent
  members := h.members
  each id e e' he he' := (h.each id e e' he he').leaves

theorem Memberwise.exists_member {R : Locale → Locale → Prop} (h : u.Memberwise R v) {id : Int} {e : Environment}
    (he : u.members[id]? = some e) : ∃ e', v.members[id]? = some e' :=
  (mem_iff_exists_getElem? _ _).1 ((h.members id).2 (mem_of_getElem? he))

theorem Memberwise.exists_before {R : Locale → Locale → Prop} (h : u.Memberwise R v) {id : Int} {e' : Environment}
    (he : v.members[id]? = some e') : ∃ e, u.members[id]? = some e :=
  (mem_iff_exists_getElem? _ _).1 ((h.members id).1 (mem_of_getElem? he))

theorem Restored.sameGraphs (h : u.Restored v) : u.SameGraphs v where
  members := h.members
  each id e e' he he' := ⟨(h.each id e e' he he').cells, (h.each id e e' he he').statements⟩

theorem Restored.live_iff (h : u.Restored v) (n : Node) : v.Live n ↔ u.Live n := h.sameGraphs.live_iff n

theorem Restored.mentions_iff (h : u.Restored v) (n t : Node) : v.Mentions n t ↔ u.Mentions n t :=
  h.sameGraphs.mentions_iff n t

theorem Restored.closed (h : u.Restored v) (hu : u.Closed) : v.Closed := h.sameGraphs.closed hu

theorem Restored.trans {w : Universe} (h : u.Restored v) (h' : v.Restored w) : u.Restored w where
  coherent := h'.coherent
  members id := (h'.members id).trans (h.members id)
  each id e e'' he he'' := by
    obtain ⟨e', he'⟩ := h.exists_member he
    have h₁ := h.each _ e e' he he'
    have h₂ := h'.each _ e' e'' he' he''
    exact ⟨h₂.coherent, h₂.id.trans h₁.id, h₂.pins.trans h₁.pins, h₁.contents.trans h₂.contents,
      Int.le_trans h₁.next h₂.next⟩

/-- What is left has no nodes that were not there. -/
theorem Leaves.live (h : u.Leaves v) {n : Node} (hn : v.Live n) : u.Live n := by
  obtain ⟨e', he', hlive⟩ := hn
  obtain ⟨e, he⟩ := h.exists_before he'
  exact ⟨e, he, (h.each _ e e' he he').mem_cells hlive⟩

/-- What is related to a member in a locale is related to it when it is put back. -/
theorem Memberwise.putBack {R : Locale → Locale → Prop}
    (hR : ∀ {l k l' k' : Locale}, R l l' → k.env = l.env → k'.env = l'.env → k'.Coherent → R k k') {id : Int}
    {e e₂ : Environment} {l₁ l₃ : Locale} (he : u.members[id]? = some e) (h : (u.putBack id l₁).Memberwise R v)
    (he₂ : v.members[id]? = some e₂) (hr : R ⟨e, u.references⟩ l₃) (hl₃ : l₃.Coherent)
    (hid : l₃.env.id = e₂.id) (hels : Locale.Elsewhere ⟨e₂, v.references⟩ l₃) :
    u.Memberwise R (v.putBack id l₃) := by
  have hcoh := h.coherent.putBack he₂ hl₃ hid hels
  refine ⟨hcoh, fun k => ?_, fun k e₀ e' hk hk' => ?_⟩
  · rw [putBack_members, mem_insert_iff, h.members, putBack_members, mem_insert_iff]
    constructor
    · rintro (rfl | rfl | hk)
      · exact mem_of_getElem? he
      · exact mem_of_getElem? he
      · exact hk
    · exact fun hk => .inr (.inr hk)
  · rcases (getElem?_insert_iff _ _ _ _ _).1 hk' with ⟨rfl, rfl⟩ | ⟨hne, hk'⟩
    · rw [he] at hk
      cases hk
      exact hr
    · have hk₁ : (u.putBack id l₁).members[k]? = some e₀ :=
        (getElem?_insert_iff _ _ _ _ _).2 (.inr ⟨hne, hk⟩)
      have hnew : (v.putBack id l₃).members[k]? = some e' :=
        (getElem?_insert_iff _ _ _ _ _).2 (.inr ⟨hne, hk'⟩)
      exact hR (h.each k e₀ e' hk₁ hk') rfl rfl (hcoh.locale hnew)

/-- In one member the contents are those that undoing a change leaves, and the counter is the same. -/
def Reverts (v : Universe) (c : Int × Undo) (w : Universe) : Prop :=
  ∃ e l, v.members[c.1]? = some e ∧ l.env.contents = c.2.back e.contents ∧
    l.env.nodes.next = e.nodes.next ∧ w = v.putBack c.1 l

/-- The next handle of an environment. -/
def counter (u : Universe) (id : Int) : Option Int := u.members[id]?.map (·.nodes.next)

/-- Undoing a change gives no handle out, and takes none back. -/
theorem Reverts.counter {c : Int × Undo} {w : Universe} (h : v.Reverts c w) (id : Int) :
    w.counter id = v.counter id := by
  obtain ⟨e, l, he, -, hnext, rfl⟩ := h
  unfold Universe.counter
  rw [putBack_members]
  by_cases hid : id = c.1
  · rw [hid, ExtTreeMap.getElem?_insert_self, he, Option.map_some, Option.map_some, hnext]
  · rw [getElem?_insert_of_ne _ _ hid]

/-- An alteration of a member can be undone from what is related to its result, if undoing it in the
member's locale ends in what is related to that one. -/
theorem Alters.undone_of {R : Locale → Locale → Prop}
    (hR : ∀ {l k l' k' : Locale}, R l l' → k.env = l.env → k'.env = l'.env → k'.Coherent → R k k') {id : Int}
    {undo : Undo} {e : Environment} {l₁ : Locale} {E : Universe → Prop}
    (he : u.members[id]? = some e) (hv : (u.putBack id l₁).Memberwise R v)
    (h : ∀ e₂, v.members[id]? = some e₂ → R l₁ ⟨e₂, v.references⟩ →
      Ends (undo.perform (v.surroundings id)) ⟨e₂, v.references⟩
        (fun _ l₃ => R ⟨e, u.references⟩ l₃ ∧
          Locale.Becomes ⟨e₂, v.references⟩ l₃ (undo.back e₂.contents) e₂.nodes.next)
        (fun _ l₃ => E (v.putBack id l₃))) :
    Ends (Evaluator.undo id undo) v (fun _ w => u.Memberwise R w ∧ v.Reverts (id, undo) w) (fun _ w => E w) := by
  have hput : (u.putBack id l₁).members[id]? = some l₁.env :=
    (getElem?_insert_iff _ _ _ _ _).2 (.inl ⟨rfl, rfl⟩)
  have hne : v.members[id]? ≠ none := by
    obtain ⟨e₂, he₂⟩ := hv.exists_member hput
    rw [he₂]; simp
  refine within_ends hv.coherent (fun e₂ he₂ => ?_) fun hnone => absurd hnone hne
  have hr : R l₁ ⟨e₂, v.references⟩ := hv.each id l₁.env e₂ hput he₂
  refine (h e₂ he₂ hr).mono ?_ fun _ _ h => h
  intro _ l₃ ⟨h₃, hb₃⟩
  exact ⟨hv.putBack hR he he₂ h₃ hb₃.coherent hb₃.id hb₃.elsewhere, e₂, l₃, he₂, hb₃.contents, hb₃.next, rfl⟩

/-- In a coherent and closed universe an alteration of a member can be undone. -/
theorem Alters.undone (hu : u.CoherentClosed) {c : Int × Undo} {u₁ : Universe}
    (h : u.Alters c u₁) (hv : u₁.Restored v) :
    Ends (Evaluator.undo c.1 c.2) v (fun _ w => u.Restored w ∧ v.Reverts c w) (fun _ _ => False) := by
  obtain ⟨id, undo⟩ := c
  obtain ⟨e, l₁, he, h, rfl⟩ := h
  refine Alters.undone_of Locale.Restored.congr he hv fun e₂ he₂ hr => ?_
  apply h.undoes (hu.coherent.locale he) hr (v.surroundings id)
  -- what a replaced structure mentions was live, and replacing it removed nothing
  rintro n previous rfl m hm
  rw [knows_iff hv.coherent he₂, hv.live_iff, live_putBack_iff]
  cases h with
  | @replaced _ k _ content cell _ hb =>
    have hlive := hu.closed.mentions ⟨id, k⟩ m ⟨e, he, _, cell, hm⟩
    by_cases hmid : m.env = id
    · obtain ⟨e', he', hk⟩ := hlive
      rw [hmid, he] at he'
      cases he'
      refine .inl ⟨hmid, ?_⟩
      rw [hb.cells]
      exact (mem_insert_iff _ _ _ _).2 (.inr hk)
    · exact .inr ⟨hmid, hlive⟩

/-- In a universe that is coherent only, an alteration of a member may stay. -/
theorem Alters.undone_or_stays (hu : u.Coherent) {c : Int × Undo} {u₁ : Universe}
    (h : u.Alters c u₁) (hv : u₁.Leaves v) :
    Ends (Evaluator.undo c.1 c.2) v (fun _ w => u.Leaves w ∧ v.Reverts c w) (fun _ w => w = v) := by
  obtain ⟨id, undo⟩ := c
  obtain ⟨e, l₁, he, h, rfl⟩ := h
  refine Alters.undone_of Locale.Leaves.congr he hv fun e₂ he₂ hr => ?_
  refine (h.undoes_leaving (hu.locale he) hr _).mono (fun _ _ h => h) ?_
  rintro _ _ ⟨rfl, -⟩
  exact putBack_self hv.coherent he₂

/-- What is left after an alteration that cannot be recorded is left of the universe before it. -/
theorem Alters.leaves_of_unlabelled (hu : u.Coherent) {c : Int × Undo} {u₁ : Universe} (h : u.Alters c u₁)
    (hc : c.2.isLabelled = false) (hv : u₁.Leaves v) : u.Leaves v := by
  obtain ⟨id, undo⟩ := c
  obtain ⟨e, l₁, he, h, rfl⟩ := h
  refine ⟨hv.coherent, fun k => ?_, fun k e₀ e' hk hk' => ?_⟩
  · rw [hv.members, putBack_members, mem_insert_iff]
    exact ⟨fun hk => hk.elim (fun hk => hk ▸ mem_of_getElem? he) fun hk => hk, .inr⟩
  · by_cases hkid : k = id
    · subst hkid
      cases he.symm.trans hk
      have hr := hv.each k l₁.env e' ((getElem?_insert_iff _ _ _ _ _).2 (.inl ⟨rfl, rfl⟩)) hk'
      exact h.leaves_of_unlabelled (hu.locale he) hc hr
    · exact Locale.Leaves.congr (hv.each k e₀ e' ((getElem?_insert_iff _ _ _ _ _).2 (.inr ⟨hkid, hk⟩)) hk') rfl rfl
        (hv.coherent.locale hk')

end Universe

/-! ## Journals -/

/-- The changes that can be recorded. -/
def Journal.labelled {κ : Type} (J : Journal κ) : Journal κ := J.filter (·.2.isLabelled)

namespace Journal

variable {κ : Type} {J : Journal κ}

theorem labelled_cons_of {c : κ × Undo} (h : c.2.isLabelled = true) :
    Journal.labelled (c :: J) = c :: J.labelled := List.filter_cons_of_pos h

theorem labelled_cons_of_not {c : κ × Undo} (h : ¬c.2.isLabelled = true) :
    Journal.labelled (c :: J) = J.labelled := List.filter_cons_of_neg h

theorem labelled_append (J K : Journal κ) : Journal.labelled (J ++ K) = J.labelled ++ K.labelled :=
  List.filter_append ..

theorem labelled_eq_self (h : ∀ c ∈ J, c.2.isLabelled = true) : J.labelled = J := List.filter_eq_self.2 h

theorem labelled_map (place : κ) {us : List Undo} (h : ∀ u ∈ us, u.isLabelled = true) :
    Journal.labelled (us.map (place, ·)) = us.map (place, ·) := by
  refine labelled_eq_self fun c hc => ?_
  obtain ⟨u, hu, rfl⟩ := List.mem_map.1 hc
  exact h u hu

end Journal

namespace Universe

variable {u v : Universe}

/-- Alterations one after the other, with the journal of them. -/
inductive Alterations (u : Universe) : Journal Int → Universe → Prop where
  | none : Alterations u [] u
  | more {J : Journal Int} {c : Int × Undo} {u₁ u₂ : Universe} (h : Alterations u J u₁)
      (h' : u₁.Alters c u₂) : Alterations u (c :: J) u₂

theorem Alterations.coherentClosed (hu : u.CoherentClosed) {J : Journal Int} (h : u.Alterations J v) :
    v.CoherentClosed := by
  induction h with
  | none => exact hu
  | more _ h' ih => exact ⟨h'.coherent ih.coherent, h'.closed ih.coherent ih.closed⟩

theorem Alterations.coherent (hu : u.Coherent) {J : Journal Int} (h : u.Alterations J v) : v.Coherent := by
  induction h with
  | none => exact hu
  | more _ h' ih => exact h'.coherent ih

theorem Alterations.append {w : Universe} {J K : Journal Int} (h : u.Alterations J v)
    (h' : v.Alterations K w) : u.Alterations (K ++ J) w := by
  induction h' with
  | none => exact h
  | more _ h' ih => exact .more ih h'

/-- Rolling a journal back restores the universe before the alterations that it recorded. -/
theorem Alterations.undone (hu : u.CoherentClosed) {J : Journal Int} {u' : Universe}
    (h : u.Alterations J u') : ∀ {v : Universe}, u'.Restored v →
      ∃ w, J.rollback Evaluator.undo v = .ok () ([], w) ∧ u.Restored w := by
  induction h with
  | none => exact fun hv => ⟨_, rfl, hv⟩
  | @more J c u₁ u₂ h h' ih =>
    intro v hv
    have hu₁ := h.coherentClosed hu
    obtain ⟨_, w, hw, hr, -⟩ := (h'.undone hu₁ hv).exists_ok
    obtain ⟨w', hw', hr'⟩ := ih hr
    refine ⟨w', ?_, hr'⟩
    obtain ⟨id, undo⟩ := c
    simp only [Journal.rollback, hw]
    exact hw'

/-- Rolling back what could be recorded may stop on the way. It leads to what is left of the universe at some moment
between the alterations then, and in either case all counters are as they were. -/
theorem Alterations.rollback_leads (hu : u.Coherent) {J : Journal Int} {u' : Universe}
    (h : u.Alterations J u') : ∀ {v : Universe}, u'.Leaves v →
      ∃ J₁ u₁ w, J₁ <:+ J ∧ u.Alterations J₁ u₁ ∧ u₁.Leaves w ∧ (∀ id, w.counter id = v.counter id) ∧
        (J.labelled.rollback Evaluator.undo v = .ok () ([], w) ∨
          ∃ fault K, J.labelled.rollback Evaluator.undo v = .error fault (K, w)) := by
  induction h with
  | none => exact fun {v} hv => ⟨[], u, v, List.suffix_refl _, .none, hv, fun _ => rfl, .inl rfl⟩
  | @more J c u₁ u₂ h h' ih =>
    intro v hv
    by_cases hc : c.2.isLabelled = true
    · rw [Journal.labelled_cons_of hc]
      have hends := h'.undone_or_stays (h.coherent hu) hv
      have hall : u.Alterations (c :: J) u₂ := .more h h'
      obtain ⟨id, undo⟩ := c
      cases hundo : Evaluator.undo id undo v with
      | ok a w =>
        obtain ⟨hr, hrev⟩ := hends.of_ok hundo
        obtain ⟨J₁, u₃, w', hsuffix, h₁, hr', hcounter, hend⟩ := ih hr
        refine ⟨J₁, u₃, w', hsuffix.trans (J.suffix_cons _), h₁, hr',
          fun k => (hcounter k).trans (hrev.counter k), ?_⟩
        simp only [Journal.rollback, hundo]
        exact hend
      | error fault w =>
        obtain rfl : w = v := hends.of_error hundo
        refine ⟨_, u₂, w, List.suffix_refl _, hall, hv, fun _ => rfl, .inr ⟨fault, J.labelled, ?_⟩⟩
        simp only [Journal.rollback, hundo]
    · rw [Journal.labelled_cons_of_not hc]
      obtain ⟨J₁, u₃, w, hsuffix, hrest⟩ :=
        ih (h'.leaves_of_unlabelled (h.coherent hu) (Bool.eq_false_iff.2 hc) hv)
      exact ⟨J₁, u₃, w, hsuffix.trans (J.suffix_cons _), hrest⟩

/-! ## Operations of a step -/

/-- Alterations of a locale are alterations of the universe that it is put back into. -/
theorem alterations_putBack (hu : u.Coherent) {id : Int} {e : Environment}
    (he : u.members[id]? = some e) {us : List Undo} {l : Locale}
    (h : Locale.Alterations (u.surroundings id) ⟨e, u.references⟩ us l) :
    u.Alterations (us.map (id, ·)) (u.putBack id l) := by
  induction h with
  | none =>
    rw [putBack_self hu he]
    exact .none
  | @more us undo l₁ l₂ h h' ih =>
    have hid : l₁.env.id = id := h.id.trans (hu.ids id e he)
    refine .more ih ⟨l₁.env, l₂, (getElem?_insert_iff _ _ _ _ _).2 (.inl ⟨rfl, rfl⟩), ?_,
      (putBack_putBack hu l₁ l₂).symm⟩
    refine h'.congr (fun n hn hr => ?_) fun k => ?_
    · change resolves _ n = true at hr
      change resolves _ n = true
      have hn : n.env ≠ id := by rwa [hid] at hn
      have hsame : (u.putBack id l₁).members[n.env]? = u.members[n.env]? :=
        getElem?_insert_of_ne _ _ hn
      unfold resolves at hr ⊢
      rwa [hsame]
    · have hsame : (u.putBack id l₁).members.contains k = u.members.contains k := by
        refine Bool.eq_iff_iff.2 ?_
        rw [ExtTreeMap.contains_iff_mem, ExtTreeMap.contains_iff_mem, putBack_members, mem_insert_iff]
        exact ⟨fun x => x.elim (fun y => y ▸ mem_of_getElem? he) fun y => y, .inr⟩
      simp only [surroundings, denotes, Environment.node, hsame]

/-- An operation that alters its locale or fails without a trace does so in the universe. -/
theorem within_alters {α : Type} {id : Int} {op : Surroundings → Op α} {us : α → List Undo}
    (hu : u.Coherent)
    (h : ∀ l : Locale, l.Coherent → Ends (op (u.surroundings id)) l
      (fun a l' => Locale.Alterations (u.surroundings id) l (us a) l') (fun _ l' => l' = l)) :
    Ends (within id op) u (fun a v => u.Alterations ((us a).map (id, ·)) v) (fun _ v => v = u) := by
  refine within_ends hu (fun e he => (h _ (hu.locale he)).mono ?_ ?_) fun _ => rfl
  · exact fun a l ha => alterations_putBack hu he ha
  · rintro _ _ rfl
    exact putBack_self hu he

end Universe

end GraphLisp
