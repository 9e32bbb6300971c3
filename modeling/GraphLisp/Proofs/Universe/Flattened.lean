import GraphLisp.Proofs.Environment.Flattened
import GraphLisp.Proofs.Universe.Likeness
/-!
# Flattened universes

A universe with everything in it flattened, as it comes back from its snapshot:
`Universe.flattened`. Universes are alike exactly if they are equal when flattened and hold nothing
but sound structures (`Universe.like_iff`), which holds of a universe and the flattened one
(`Universe.like_flattened`).
-/

namespace GraphLisp

open Std

variable {lax : Bool}

section
variable {α β : Type} {f : α → β} {S : α → Prop} {R : α → α → Prop}

theorem rel_iff (hR : ∀ a b, R a b ↔ f a = f b ∧ S a ∧ S b) (o o' : Option α) :
    Option.Rel R o o' ↔
      o.map f = o'.map f ∧ (∀ a, o = some a → S a) ∧ ∀ a, o' = some a → S a := by
  cases o <;> cases o' <;> simp [Option.rel_some_some, hR]

theorem forall₂_iff (hR : ∀ a b, R a b ↔ f a = f b ∧ S a ∧ S b) (xs ys : List α) :
    List.Forall₂ R xs ys ↔ xs.map f = ys.map f ∧ (∀ a ∈ xs, S a) ∧ ∀ a ∈ ys, S a := by
  induction xs generalizing ys with
  | nil => cases ys <;> simp
  | cons x xs ih =>
    cases ys with
    | nil => simp
    | cons y ys =>
      rw [List.forall₂_cons, hR, ih, List.map_cons, List.map_cons, List.cons.injEq,
        List.forall_mem_cons, List.forall_mem_cons]
      exact ⟨fun ⟨⟨h, hx, hy⟩, hs, hxs, hys⟩ => ⟨⟨h, hs⟩, ⟨hx, hxs⟩, hy, hys⟩,
        fun ⟨⟨h, hs⟩, ⟨hx, hxs⟩, hy, hys⟩ => ⟨⟨h, hx, hy⟩, hs, hxs, hys⟩⟩

/-- Tables whose values are related one by one. -/
theorem tables_iff {f : α → α} (hR : ∀ a b, R a b ↔ f a = f b ∧ S a ∧ S b)
    (m m' : ExtTreeMap Int α) :
    (∀ k : Int, Option.Rel R m[k]? m'[k]?) ↔
      m.map (fun _ => f) = m'.map (fun _ => f) ∧
        (∀ (k : Int) (a : α), m[k]? = some a → S a) ∧ ∀ (k : Int) (a : α), m'[k]? = some a → S a := by
  have hmap : m.map (fun _ => f) = m'.map (fun _ => f) ↔ ∀ k : Int, m[k]?.map f = m'[k]?.map f := by
    refine ⟨fun h k => ?_, fun h => ExtTreeMap.ext_getElem? fun k => ?_⟩
    · rw [← ExtTreeMap.getElem?_map (f := fun _ => f), h, ExtTreeMap.getElem?_map]
    · rw [ExtTreeMap.getElem?_map, ExtTreeMap.getElem?_map, h]
  simp only [rel_iff hR, forall_and, hmap]

end

/-! ## Flattening -/

/-- The heir with everything in its members flattened. -/
def Heir.flattened (h : Heir) : Heir := { h with members := h.members.map fun _ e => e.flattened }

/-- The universe with everything in it flattened. -/
def Universe.flattened (u : Universe) : Universe where
  members := u.members.map fun _ e => e.flattened
  references := u.references
  heirs := u.heirs.map Heir.flattened

/-- Everything in the members of an heir is sound. -/
def Heir.Sound (lax : Bool) (h : Heir) : Prop :=
  ∀ (id : Int) (e : Environment), h.members[id]? = some e → e.Sound lax

/-- Everything in a universe is sound. -/
structure Universe.Sound (lax : Bool) (u : Universe) : Prop where
  members : ∀ (id : Int) (e : Environment), u.members[id]? = some e → e.Sound lax
  heirs : ∀ h ∈ u.heirs, h.Sound lax

theorem Structure.like_iff (s s' : Structure) :
    s.Like lax s' ↔ s.flattened = s'.flattened ∧ s.Sound lax ∧ s'.Sound lax :=
  ⟨fun h => ⟨h.same, h.left, h.right⟩, fun h => ⟨h.1, h.2.1, h.2.2⟩⟩

theorem Cell.like_iff (c c' : Cell) :
    c.Like lax c' ↔ c.flattened = c'.flattened ∧ c.Sound lax ∧ c'.Sound lax := by
  refine ⟨fun h => ?_, fun ⟨h, hc, hc'⟩ => ?_⟩
  · have hcontent := (rel_iff Structure.like_iff _ _).1 h.content
    refine ⟨?_, hcontent.2⟩
    cases h with
    | plain _ => exact congrArg Cell.plain hcontent.1
    | _ => rfl
  · have hcontent : c.content.map Structure.flattened = c'.content.map Structure.flattened := by
      rw [← c.content_flattened, h, c'.content_flattened]
    have hrel := (rel_iff Structure.like_iff _ _).2 ⟨hcontent, hc, hc'⟩
    cases c with
    | plain o =>
      cases c' with
      | plain o' => exact .plain hrel
      | _ => cases h
    | proxy target => cases c' <;> cases h; exact .proxy target
    | triple => cases c' <;> cases h; exact .triple

theorem Environment.like_iff (e e' : Environment) :
    e.Like lax e' ↔ e.flattened = e'.flattened ∧ e.Sound lax ∧ e'.Sound lax := by
  refine ⟨fun h => ?_, fun ⟨h, he, he'⟩ => ?_⟩
  · cases h with | @intro cs hc =>
    have hcells := (tables_iff Cell.like_iff _ cs).1 hc
    exact ⟨congrArg (fun cs => { e with nodes.cells := cs }) hcells.1, hcells.2⟩
  · obtain ⟨id, ⟨cs, names, nameOf, referrers, imports, next⟩, triples, pins⟩ := e
    obtain ⟨id', ⟨cs', names', nameOf', referrers', imports', next'⟩, triples', pins'⟩ := e'
    obtain ⟨rfl, hnodes, rfl, rfl⟩ := Environment.mk.injEq .. ▸ h
    obtain ⟨hcells, rfl, rfl, rfl, rfl, rfl⟩ := NodeTable.mk.injEq .. ▸ hnodes
    exact .intro ((tables_iff Cell.like_iff _ _).2 ⟨hcells, he, he'⟩)

theorem Heir.like_iff (h h' : Heir) :
    h.Like lax h' ↔ h.flattened = h'.flattened ∧ h.Sound lax ∧ h'.Sound lax := by
  refine ⟨fun hh => ?_, fun ⟨hh, hs, hs'⟩ => ?_⟩
  · cases hh with | @intro ms hm =>
    have hmembers := (tables_iff Environment.like_iff _ ms).1 hm
    exact ⟨congrArg (fun ms => { h with members := ms }) hmembers.1, hmembers.2⟩
  · obtain ⟨index, shared, taken, ms, references⟩ := h
    obtain ⟨index', shared', taken', ms', references'⟩ := h'
    obtain ⟨rfl, rfl, rfl, hms, rfl⟩ := Heir.mk.injEq .. ▸ hh
    exact .intro ((tables_iff Environment.like_iff _ _).2 ⟨hms, hs, hs'⟩)

/-- Universes are alike if they are equal when flattened, and sound. -/
theorem Universe.like_iff (u v : Universe) :
    u.Like lax v ↔ u.flattened = v.flattened ∧ u.Sound lax ∧ v.Sound lax := by
  have hmembers := tables_iff (@Environment.like_iff lax) u.members v.members
  have hheirs := forall₂_iff (@Heir.like_iff lax) u.heirs v.heirs
  constructor
  · rintro ⟨hm, hr, hh⟩
    have hm := hmembers.1 hm
    have hh := hheirs.1 hh
    refine ⟨?_, ⟨hm.2.1, hh.2.1⟩, hm.2.2, hh.2.2⟩
    unfold flattened
    rw [hm.1, hr, hh.1]
  · rintro ⟨h, hu, hv⟩
    obtain ⟨hm, hr, hh⟩ := Universe.mk.injEq .. ▸ h
    exact ⟨hmembers.2 ⟨hm, hu.members, hv.members⟩, hr.symm, hheirs.2 ⟨hh, hu.heirs, hv.heirs⟩⟩

/-! ## A universe and the flattened one -/

theorem Cell.like_flattened {c : Cell} (h : c.Sound lax) : c.Like lax c.flattened := by
  cases c with
  | plain o =>
    cases o with
    | none => exact .plain .none
    | some s => exact .plain (.some ⟨s.flattened_flattened.symm, h s rfl, (h s rfl).flattened⟩)
  | proxy target => exact .proxy target
  | triple => exact .triple

theorem tables_flattened {α : Type} {R : α → α → Prop} {f : α → α} {m : ExtTreeMap Int α}
    (h : ∀ (k : Int) (a : α), m[k]? = some a → R a (f a)) (k : Int) :
    Option.Rel R m[k]? (m.map fun _ => f)[k]? := by
  rw [ExtTreeMap.getElem?_map]
  cases hk : m[k]? with
  | none => exact .none
  | some a => exact .some (h k a hk)

theorem Environment.like_flattened {e : Environment} (h : e.Sound lax) : e.Like lax e.flattened :=
  .intro (tables_flattened fun k c hc => Cell.like_flattened (h k c hc))

/-- A universe is like the flattened one. -/
theorem Universe.like_flattened {u : Universe} (h : u.Sound lax) : u.Like lax u.flattened where
  members := tables_flattened fun id e he => Environment.like_flattened (h.members id e he)
  references := rfl
  heirs := by
    refine List.forall₂_map_right_iff.2 (List.forall₂_same.2 fun k hk => ?_)
    exact .intro (tables_flattened fun id e he => Environment.like_flattened (h.heirs k hk id e he))

theorem Universe.Sound.flattened {u : Universe} (h : u.Sound lax) : u.flattened.Sound lax :=
  ((like_iff _ _).1 (like_flattened h)).2.2

end GraphLisp
