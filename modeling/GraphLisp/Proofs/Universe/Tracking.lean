import GraphLisp.Proofs.Payload.Nodes
import GraphLisp.Proofs.Snapshot
import GraphLisp.Proofs.Universe.Enclosed
/-!
# What is tracked is what is persisted

An environment keeps track of the nodes that its structures mention. A structure mentions the nodes that are
written in its payload, and what is read back mentions the same. So the restored environment tracks the
same references as the one that was saved (`Environment.references_persisted`).
-/

namespace GraphLisp

open Std

namespace Environment

variable {e e' : Environment}

/-- An environment whose structures are whole has a record, and no other one has. -/
theorem toRecord_ok_iff (he : e.Tabled) : (∃ r, e.toRecord = .ok r) ↔ e.HoldsWhole := by
  constructor
  · rintro ⟨r, hr⟩ h c s hc hs
    unfold toRecord at hr
    obtain ⟨rows, hrows, -⟩ := except_bind_ok.1 hr
    obtain ⟨x, -, hx⟩ := forall₂_mem_left (mapM_ok hrows) (h, c) (ExtTreeMap.mem_toList_iff_getElem?_eq_some.2 hc)
    obtain ⟨row, hrow, -⟩ := except_bind_ok.1 hx
    cases c with
    | plain content =>
      cases hs
      obtain ⟨p, hp, -⟩ := except_bind_ok.1 hrow
      unfold Structure.payload at hp
      split at hp
      · assumption
      · cases hp
    | proxy target =>
      cases hs
      rfl
    | triple => cases hs
  · exact fun hwhole => hwhole.exists_record he

/-- The second environment tracks the same references to other environments, in the same order, and keeps the
same index of its own. -/
structure TracksAlike (e e' : Environment) : Prop where
  foreign : e'.foreignReferences = e.foreignReferences
  referrers : e'.nodes.referrers = e.nodes.referrers

/-- Nothing of what is tracked is lost on record. -/
theorem tracksAlike_onRecord (e : Environment) : e.TracksAlike e.onRecord.flattened where
  foreign := by
    unfold foreignReferences
    change List.flatMap _ (ExtTreeMap.toList (e.nodes.cells.map fun _ c => c.flattened)) = _
    rw [ExtTreeMap.toList_map, List.flatMap_map]
    simp only [Cell.mentions_flattened]
    rfl
  referrers := rfl

theorem snapshot_onRecord (e : Environment) (name : Option String) : e.onRecord.snapshot name = e.snapshot name := by
  unfold snapshot
  rw [toRecord_onRecord]

/-- The nodes that a structure mentions are those that are written in its payload, and what is read back from
it mentions the same ones in the same order. Every environment that can come about has a record if its
structures are whole, and what is restored from its snapshot tracks the same references; so does what is read from
its record, unless its counter is too long to be written. -/
theorem references_persisted :
    (∀ s : Structure, s.isWhole = true → ∃ p t, s.payload = .ok p ∧ s.mentions.Perm p.nodes ∧
      p.decode = .ok t ∧ t.mentions = s.mentions) ∧
    ∀ e : Environment, e.Arises →
      ((∃ r, e.toRecord = .ok r) ↔ e.HoldsWhole) ∧
      (Decimal.isWritable e.nodes.next = true → ∀ r, e.toRecord = .ok r →
        ∃ e', fromRecord r = .ok e' ∧ e.TracksAlike e') ∧
      ∀ b, e.snapshot (some "json") = .ok b → ∃ e', restore (.bytes b) none = .ok e' ∧ e.TracksAlike e' := by
  refine ⟨fun s hs => ?_, fun e he => ?_⟩
  · exact ⟨s.encode, s.flattened, s.payload_of_isWhole hs, s.mentions_perm, Plain.decode_encode hs,
      s.mentions_flattened⟩
  · have hstandalone := fun hnext => he.coherent.standalone (he.enclosed hnext)
    refine ⟨toRecord_ok_iff he.coherent.tabled, fun hnext r hr => ?_, fun b hb => ?_⟩
    · exact ⟨_, fromRecord_toRecord (hstandalone hnext) (e.toRecord_onRecord.trans hr), e.tracksAlike_onRecord⟩
    · have hnext := Snapshot.writable_of_snapshot hb
      exact ⟨_, restore_snapshot (hstandalone hnext) ((e.snapshot_onRecord _).trans hb), e.tracksAlike_onRecord⟩

/-- A procedure that mentions the same node in its body and in a binding, and hides another one. -/
def twice : Structure :=
  .proc ["x"] (.pair (.node ⟨7, 3⟩) (.node ⟨0, 4⟩)) [[("k", .node ⟨7, 3⟩)], [("k", .node ⟨0, 1⟩), ("j", .node ⟨0, 2⟩)]]

theorem labelled_tracked :
    (∃ p t, twice.payload = .ok p ∧ ([⟨0, 2⟩, ⟨7, 3⟩, ⟨7, 3⟩, ⟨0, 4⟩] : List Node).Perm p.nodes ∧ p.decode = .ok t ∧
      t.mentions = [⟨0, 2⟩, ⟨7, 3⟩, ⟨7, 3⟩, ⟨0, 4⟩]) ∧
    ((fresh 0).evolved labelled).Arises ∧ ∃ r e', ((fresh 0).evolved labelled).toRecord = .ok r ∧
      fromRecord r = .ok e' ∧ e'.foreignReferences = [(⟨0, 4⟩, ⟨7, 3⟩)] ∧
      ((fresh 0).evolved labelled).TracksAlike e' := by
  have harises : ((fresh 0).evolved labelled).Arises := (Arises.fresh 0).evolved labelled
  have hrun : (((fresh 0).evolved labelled).toRecord.toOption.map fun _ =>
      ((fresh 0).evolved labelled).foreignReferences) = some [(⟨0, 4⟩, ⟨7, 3⟩)] := by
    decide +kernel
  cases hr : ((fresh 0).evolved labelled).toRecord with
  | error fault =>
    rw [hr] at hrun
    cases hrun
  | ok r =>
    rw [hr] at hrun
    obtain ⟨e', he', htracked⟩ := (references_persisted.2 _ harises).2.1 (by decide +kernel) r hr
    have hforeign := htracked.foreign.trans (Option.some.inj hrun)
    exact ⟨references_persisted.1 twice rfl, harises, r, e', rfl, he', hforeign, htracked⟩

end Environment

end GraphLisp
