import GraphLisp.Proofs.Universe.OnRecord
/-!
# Environments that arise are enclosed

Whatever comes of an environment, its triples relate live handles, and its structures mention live handles
of their own environment (`Environment.Arises.enclosed`), as long as its counter can be written. This does not
hang on the other environments: the structures of one may mention nodes of another one that are gone, and then a
step may not be taken back as a whole. It still leaves the cells and statements of a moment between its
alterations.

A counter that is too long comes from a record only. The handles just below it cannot be written either, so that
removing one of them is not recorded, and what was removed before may come back without it.
-/

namespace GraphLisp

open Std

namespace Environment

/-- Whether an environment is enclosed shows in its cells and statements. -/
theorem Enclosed.congr {e e' : Environment} (he : e.Enclosed) (hid : e'.id = e.id)
    (hcells : e'.nodes.cells = e.nodes.cells) (hst : e'.triples.statements = e.triples.statements) :
    e'.Enclosed where
  whole k st hk := by
    rw [hcells]
    exact he.whole k st (hst ▸ hk)
  known k t := by
    rintro ⟨d, hd, ht⟩ htid
    rw [hcells] at hd ⊢
    exact he.known k t ⟨d, hd, ht⟩ (htid.trans hid)

/-- The environment is enclosed, unless its counter is too long to be written. -/
def Intact (e : Environment) : Prop := Decimal.isWritable e.nodes.next = true → e.Enclosed

theorem Enclosed.intact {e : Environment} (he : e.Enclosed) : e.Intact := fun _ => he

/-- What has become of an environment is intact if its counter has not gone back, and if it is enclosed when the
environment is. -/
theorem Intact.advance {e e' : Environment} (he : e.Intact) (hc : e.Coherent) (hle : e.nodes.next ≤ e'.nodes.next)
    (h : Decimal.isWritable e.nodes.next = true → e.Enclosed → e'.Enclosed) : e'.Intact := fun hnext => by
  have hself := hc.tabled.bounds _ hc.tabled.self
  have hshort := Decimal.isWritable_of_le (by omega) hle hnext
  exact h hshort (he hshort)

end Environment

namespace Locale

variable {around : Surroundings} {l l' : Locale}

theorem Alterations.next_le {us : List Undo} (h : l.Alterations around us l') :
    l.env.nodes.next ≤ l'.env.nodes.next := by
  induction h with
  | none => exact Int.le_refl _
  | more _ h' ih =>
    obtain ⟨g, next, hb, hle⟩ := h'.becomes
    exact Int.le_trans ih (hb.next.symm ▸ hle)

theorem Changes.next_le (h : l.Changes around l') : l.env.nodes.next ≤ l'.env.nodes.next := by
  cases h with
  | altered h => exact h.next_le
  | kept _ _ _ _ _ next => exact next

theorem Changes.intact (hl : l.Coherent) (he : l.env.Intact) (h : l.Changes around l') : l'.env.Intact :=
  he.advance (Environment.coherent_of_locale hl) h.next_le fun _ he => h.enclosed he

theorem Leaves.intact (hl : l.Coherent) (he : l.env.Intact) (h : l.Leaves l') : l'.env.Intact := by
  refine he.advance (Environment.coherent_of_locale hl) h.next fun hnext he => ?_
  have hr := h.restored hnext
  exact he.congr hr.id hr.cells hr.statements

end Locale

theorem Environment.Intact.operated {e : Environment} (he : e.Intact) (hc : e.Coherent) (around : Surroundings)
    (op : Operation) : (e.operated around op).Intact := by
  obtain ⟨l, hl, heq⟩ := hc.operated_changes around op
  have h : l.env.Intact := hl.intact hc.locale he
  exact heq ▸ h

namespace Universe

variable {u v : Universe}

/-- Every environment is intact. -/
def Intact (u : Universe) : Prop :=
  ∀ (id : Int) (e : Environment), u.members[id]? = some e → e.Intact

theorem Intact.insert (hu : u.Intact) {id : Int} {e : Environment} (he : e.Intact)
    (hv : v.members = u.members.insert id e) : v.Intact := by
  intro k e' hk
  rw [hv] at hk
  rcases (getElem?_insert_iff _ _ _ _ _).1 hk with ⟨-, rfl⟩ | ⟨-, hk⟩
  · exact he
  · exact hu k e' hk

/-- A coherent universe of intact environments. -/
structure Orderly (u : Universe) : Prop where
  coherent : u.Coherent
  intact : u.Intact

theorem CoherentClosed.orderly (hu : u.CoherentClosed) : u.Orderly :=
  ⟨hu.coherent, fun _ _ he => (hu.enclosed he).intact⟩

theorem orderly_abiding : Abiding Orderly where
  coherent hu := hu.coherent
  changes hu he h := ⟨hu.coherent.changes he h,
    hu.intact.insert (h.intact (hu.coherent.locale he) (hu.intact _ _ he)) rfl⟩
  adopt hu hfree _ := ⟨hu.coherent.adopt (fresh_standalone _) hfree,
    hu.intact.insert (fresh_standalone _).enclosed.intact rfl⟩

theorem Alterations.orderly (hu : u.Orderly) {J : Journal Int} (h : u.Alterations J v) : v.Orderly := by
  induction h with
  | none => exact hu
  | more _ h' ih =>
    obtain ⟨e, l, he, h', rfl⟩ := h'
    exact ⟨ih.coherent.changes he h'.changes,
      ih.intact.insert (h'.changes.intact (ih.coherent.locale he) (ih.intact _ _ he)) rfl⟩

/-- A turn may be taken back in part only, but then to what is left of a moment between its alterations. -/
theorem Orderly.turn (hu : u.Orderly) (context : Context) (t : Turn) : (t.play context u).Orderly := by
  obtain ⟨J, K, u₁, -, -, -, h, hr, -⟩ := t.play_leads context hu.coherent
  have hu₁ := h.orderly hu
  refine ⟨hr.coherent, fun id e' he' => ?_⟩
  obtain ⟨e, he⟩ := hr.exists_before he'
  have hleft := hr.each id e e' he he'
  have hintact := hleft.intact (hu₁.coherent.locale he) (hu₁.intact id e he)
  exact hintact

theorem Orderly.play (hu : u.Orderly) (a : Action) : (a.play u).Orderly :=
  orderly_abiding.play hu hu.turn a

theorem ofRoot_intact {e : Environment} (he : e.Intact) (h : ofRoot e = .ok u) : u.Intact := by
  unfold ofRoot at h
  split at h
  · cases h
  cases h
  intro id e' hid
  rcases (getElem?_insert_iff _ _ _ _ _).1 hid with ⟨-, rfl⟩ | ⟨-, hid⟩
  · exact fun hnext => (he hnext).congr rfl rfl rfl
  · cases ExtTreeMap.getElem?_empty.symm.trans hid

end Universe

/-! ## What every history keeps -/

mutual

theorem Environment.Arises.intact : ∀ {e : Environment}, e.Arises → e.Intact
  | _, .fresh id => (Universe.fresh_standalone id).enclosed.intact
  | _, .read h => (Environment.fromRecord_standalone h).enclosed.intact
  | _, .operated h around op => (Environment.Arises.intact h).operated h.coherent around op
  | _, .member h he => (Universe.Arises.orderly h).intact _ _ he

theorem Universe.Arises.orderly : ∀ {u : Universe}, u.Arises → u.Orderly
  | _, .empty => Universe.empty_coherentClosed.orderly
  | _, .load h => Universe.CoherentClosed.orderly ⟨(Universe.load_loading h).1.coherent, (Universe.load_loading h).2⟩
  | _, .ofRoot he h => ⟨Universe.ofRoot_coherent he.coherent h,
      Universe.ofRoot_intact (Environment.Arises.intact he) h⟩
  | _, .played h a => (Universe.Arises.orderly h).play a

end

theorem Environment.Arises.enclosed {e : Environment} (h : e.Arises)
    (hnext : Decimal.isWritable e.nodes.next = true) : e.Enclosed := h.intact hnext

/-- An environment has the parts of its triples, unless a turn could neither record nor take back what it did. -/
theorem Environment.Arises.whole {e : Environment} (h : e.Arises)
    (hw : Decimal.isWritable e.nodes.next = true ∨ e.Whole) : e.Whole :=
  hw.elim (fun hnext => (h.enclosed hnext).whole) fun hwhole => hwhole

end GraphLisp
