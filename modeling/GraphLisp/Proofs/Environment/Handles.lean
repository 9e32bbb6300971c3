import GraphLisp.Proofs.Environment.OnRecord
/-!
# Handles

A handle is given out once. Whatever is done to an environment, what is made on the way has the handles from the
counter before up to the counter after, in the order in which it is made, and nothing else comes to life
(`Environment.Follows`). Since live handles are below the counter, a new one is above all that ever were. When
the counter has passed the last handle, nothing is made any more, but what is there is still found
(`Stage.Spent`).
-/

namespace GraphLisp

open Std

/-- The handle that a change gave out, if it gave one out. -/
def Undo.issued? : Undo → Option Int
  | .created n => some n.id
  | _ => none

/-! ## What comes after -/

namespace Environment

/-- The second environment is what the first one has become, and the handles were given out on the way. -/
structure Follows (e : Environment) (issued : List Int) (e' : Environment) : Prop where
  advances : e.nodes.next ≤ e'.nodes.next
  between : ∀ h ∈ issued, e.nodes.next ≤ h ∧ h < e'.nodes.next ∧ h ≤ maxHandle
  ascending : issued.Pairwise (· < ·)
  live : ∀ h ∈ e'.nodes.cells, h ∈ e.nodes.cells ∨ h ∈ issued

variable {e e' e'' : Environment} {hs hs' : List Int}

/-- Nothing has been given out, and nothing has come to life. -/
theorem Follows.idle (hnext : e.nodes.next ≤ e'.nodes.next) (hlive : ∀ h ∈ e'.nodes.cells, h ∈ e.nodes.cells) :
    e.Follows [] e' := ⟨hnext, by simp, .nil, fun h hh => .inl (hlive h hh)⟩

theorem Follows.refl (e : Environment) : e.Follows [] e := .idle (Int.le_refl _) fun _ h => h

theorem Follows.trans (h : e.Follows hs e') (h' : e'.Follows hs' e'') : e.Follows (hs ++ hs') e'' where
  advances := Int.le_trans h.advances h'.advances
  between k hk := by
    rcases List.mem_append.1 hk with hk | hk
    · obtain ⟨hlow, hhigh, hmax⟩ := h.between k hk
      exact ⟨hlow, Int.lt_of_lt_of_le hhigh h'.advances, hmax⟩
    · obtain ⟨hlow, hhigh, hmax⟩ := h'.between k hk
      exact ⟨Int.le_trans h.advances hlow, hhigh, hmax⟩
  ascending := List.pairwise_append.2 ⟨h.ascending, h'.ascending, fun j hj k hk =>
    Int.lt_of_lt_of_le (h.between j hj).2.1 (h'.between k hk).1⟩
  live k hk := by
    rcases h'.live k hk with hk | hk
    · exact (h.live k hk).imp_right (List.mem_append_left _)
    · exact .inr (List.mem_append_right _ hk)

/-- What has been given out since is above everything that was live. -/
theorem Follows.above (he : e.Tabled) (h : e.Follows hs e') : ∀ j ∈ hs, ∀ k ∈ e.nodes.cells, k < j :=
  fun j hj k hk => Int.lt_of_lt_of_le (he.bounds k hk).2 (h.between j hj).1

end Environment

namespace Locale

variable {around : Surroundings} {l l' : Locale}

theorem Alters.follows {u : Undo} (h : l.Alters around u l') : l.env.Follows u.issued?.toList l'.env := by
  have hnew : l.env.nodes.next ≤ maxHandle → l'.env.nodes.next = l.env.nodes.next + 1 →
      (∀ k ∈ l'.env.nodes.cells, k = l.env.nodes.next ∨ k ∈ l.env.nodes.cells) →
      l.env.Follows [l.env.nodes.next] l'.env := by
    intro hroom hnext hcells
    refine ⟨by omega, ?_, List.pairwise_singleton _ _, fun k hk => ?_⟩
    · rintro k (_ | ⟨_, ⟨⟩⟩)
      exact ⟨Int.le_refl _, by omega, hroom⟩
    · exact (hcells k hk).symm.imp_right List.mem_singleton.2
  cases h with
  | @made _ c name _ _ _ room hb =>
    refine hnew room hb.next fun k hk => ?_
    rw [hb.cells] at hk
    cases name <;> exact (mem_insert_iff _ _ _ _).1 hk
  | related _ _ _ room hb =>
    refine hnew room hb.next fun k hk => ?_
    rw [hb.cells] at hk
    exact (mem_insert_iff _ _ _ _).1 hk
  | replaced cell _ hb =>
    refine .idle (Int.le_of_eq hb.next.symm) fun k hk => ?_
    rw [hb.cells] at hk
    rcases (mem_insert_iff _ _ _ _).1 hk with rfl | hk
    · exact mem_of_getElem? cell
    · exact hk
  | removedNode _ _ _ _ hb =>
    refine .idle (Int.le_of_eq hb.next.symm) fun k hk => ?_
    rw [hb.cells] at hk
    exact ((mem_erase_iff _ _ _).1 hk).2
  | removedTriple _ _ _ hb =>
    refine .idle (Int.le_of_eq hb.next.symm) fun k hk => ?_
    rw [hb.cells] at hk
    exact ((mem_erase_iff _ _ _).1 hk).2

theorem filterMap_issued_cons (u : Undo) (us : List Undo) :
    (u :: us).reverse.filterMap Undo.issued? = us.reverse.filterMap Undo.issued? ++ u.issued?.toList := by
  rw [List.reverse_cons, List.filterMap_append]
  cases u <;> rfl

theorem Alterations.follows {us : List Undo} (h : l.Alterations around us l') :
    l.env.Follows (us.reverse.filterMap Undo.issued?) l'.env := by
  induction h with
  | none => exact .refl _
  | @more us u _ _ _ h' ih =>
    rw [filterMap_issued_cons]
    exact ih.trans h'.follows

theorem issued_created (ns : List Node) :
    (ns.map Undo.created).reverse.filterMap Undo.issued? = ns.reverse.map Node.id := by
  rw [← List.map_reverse, List.filterMap_map]
  exact congrFun List.filterMap_eq_map _

theorem Restored.follows (h : l.Restored l') : l.env.Follows [] l'.env :=
  .idle h.next fun _ hk => h.cells ▸ hk

/-! ## What operations give out -/

/-- The handles of what a computation has made, if it tells. -/
def issued {α : Type} (m : Op α) (made : α → List Node) (l : Locale) : List Int :=
  match m l with
  | .ok a _ => (made a).map Node.id
  | .error .. => []

theorem issued_follows {α : Type} {m : Op α} {made : α → List Node}
    (h : Ends m l (fun a l' => l.env.Follows ((made a).map Node.id) l'.env) fun _ l' => l.env.Follows [] l'.env) :
    Ends m l (fun _ l' => l.env.Follows (issued m made l) l'.env) fun _ l' => l.env.Follows (issued m made l) l'.env := by
  unfold Ends issued at *
  cases hm : m l <;> rw [hm] at h <;> exact h

/-- Locales that look the same from inside give out the same. -/
theorem issued_twin {id : Int} {α : Type} {m : Op α} {Q : α → α → Prop} (h : Agree (Twin id) Q m m)
    {made : α → List Node} (hmade : ∀ a b, Q a b → made a = made b) (hl : Twin id l l') :
    issued m made l = issued m made l' := by
  have hm := h l l' hl
  unfold issued
  generalize m l = r, m l' = r' at hm
  cases hm with
  | ok ha _ => exact congrArg _ (hmade _ _ ha)
  | error _ _ => rfl

end Locale

/-- The handles that an operation gives out, in order. -/
def Operation.issued (around : Surroundings) (l : Locale) : Operation → List Int
  | .createNode name content => Locale.issued (Locale.createNode around name content) (fun n => [n]) l
  | .importNode original => Locale.issued (Locale.importNode around original) (fun r => if r.2 then [r.1] else []) l
  | .insertTriple s p o => Locale.issued (Locale.insertTriple s p o) (fun r => if r.2 then [r.1] else []) l
  | .rebuild region | .raise region => Locale.issued (Locale.raise around region) (fun r => r.2.reverse) l
  | .setStructure .. | .rename .. | .deleteNode _ | .deleteTriple _ => []

namespace Locale

variable {l : Locale}

theorem follows_of_same (l : Locale) : ∀ (_ : Fault) (l' : Locale), l' = l → l.env.Follows [] l'.env := by
  rintro _ _ rfl
  exact .refl _

theorem createNode_follows (hl : l.Coherent) (around : Surroundings) (name : Option String) (content : Option Structure) :
    Ends (createNode around name content) l
      (fun _ l' => l.env.Follows ((Operation.createNode name content).issued around l) l'.env)
      fun _ l' => l.env.Follows ((Operation.createNode name content).issued around l) l'.env :=
  issued_follows ((createNode_alters hl around name content).mono (fun _ _ h => h.follows) (follows_of_same l))

theorem insertTriple_follows (hl : l.Coherent) (around : Surroundings) (s p o : Structure) :
    Ends (insertTriple s p o) l
      (fun _ l' => l.env.Follows ((Operation.insertTriple s p o).issued around l) l'.env)
      fun _ l' => l.env.Follows ((Operation.insertTriple s p o).issued around l) l'.env := by
  refine issued_follows ((insertTriple_alters hl around s p o).mono ?_ (follows_of_same l))
  rintro r l' (⟨hr, h⟩ | ⟨hr, rfl⟩) <;> rw [hr]
  · exact h.follows
  · exact .refl _

/-- What is removed again when a region cannot be made has had handles of its own. -/
theorem rebuild_follows (hl : l.Coherent) (around : Surroundings) (region : Structure) :
    Ends (rebuild around region) l
      (fun _ l' => l.env.Follows ((Operation.rebuild region).issued around l) l'.env)
      fun _ l' => l.env.Follows ((Operation.rebuild region).issued around l) l'.env := by
  obtain ⟨⟨result, created⟩, l₁, hraise, h⟩ := (raise_alters hl around region).exists_ok
  have hissued : (Operation.rebuild region).issued around l = created.reverse.map Node.id := by
    simp only [Operation.issued, issued, hraise]
  have hfollows := h.follows
  rw [issued_created] at hfollows
  rw [hissued]
  have hends : Ends (raise around region) l (fun r l' => r = (result, created) ∧ l' = l₁) fun _ _ => False := by
    rw [Ends, hraise]
    exact ⟨rfl, rfl⟩
  refine hends.bind ?_ fun _ _ h => h.elim
  rintro _ l₁ ⟨rfl, rfl⟩
  cases result with
  | ok n => exact hfollows
  | error fault =>
    -- what was made is gone again, and its handles stay given out
    have hr : l₁.Restored l₁ := ⟨h.coherent hl, rfl, rfl, .refl _, Int.le_refl _⟩
    refine (discardAll_undoes hl h hr).bind ?_ fun _ _ h => h.elim
    rintro - l₃ ⟨h₃, -, hnext⟩
    exact ⟨h₃.next, hnext ▸ hfollows.between, hfollows.ascending, fun k hk => .inl (h₃.cells ▸ hk)⟩

/-- However an operation ends, what it made has been given handles in order. -/
theorem perform_follows (hl : l.Coherent) (around : Surroundings) (op : Operation) :
    Ends (op.perform around) l (fun _ l' => l.env.Follows (op.issued around l) l'.env)
      fun _ l' => l.env.Follows (op.issued around l) l'.env := by
  have hsame := follows_of_same l
  cases op with
  | createNode name content => exact (createNode_follows hl around name content).bind (fun _ _ h => h) fun _ _ h => h
  | setStructure node content =>
    refine (setStructure_ends hl around node content).bind ?_ fun f l' h => hsame f l' h.1
    rintro _ l' ⟨m, -, cell, known, h⟩
    have halters : l.Alters around _ l' := .replaced cell known h
    exact halters.follows
  | rename node name =>
    refine (rename_ends hl node name).bind ?_ hsame
    rintro _ l' ⟨n, -, hb⟩
    refine .idle (Int.le_of_eq hb.next.symm) fun k hk => ?_
    rw [hb.cells] at hk
    cases name <;> exact hk
  | deleteNode node =>
    refine (deleteNode_ends hl around node).bind ?_ hsame
    rintro _ l' ⟨m, -, cell, hc, name, unused, h⟩
    exact (Alters.removedNode cell hc name unused h).follows
  | importNode original =>
    refine (issued_follows ((importNode_alters hl around original).mono ?_ hsame)).bind (fun _ _ h => h) fun _ _ h => h
    rintro r l' (⟨hr, h⟩ | ⟨hr, rfl⟩) <;> rw [hr]
    · exact h.follows
    · exact .refl _
  | insertTriple s p o => exact (insertTriple_follows hl around s p o).bind (fun _ _ h => h) fun _ _ h => h
  | deleteTriple node =>
    refine (deleteTriple_ends hl around node).bind ?_ hsame
    rintro _ l' ⟨m, st, -, cell, hst, -, unused, h⟩
    exact (Alters.removedTriple cell hst unused h).follows
  | rebuild region => exact (rebuild_follows hl around region).bind (fun _ _ h => h) fun _ _ h => h
  | raise region =>
    have h := (raise_alters hl around region).mono (fun _ _ h => issued_created _ ▸ h.follows)
      fun _ l' h => (h.elim : l.env.Follows [] l'.env)
    exact (issued_follows h).bind (fun _ _ h => h) fun _ _ h => h

end Locale

/-! ## Environments on their own -/

namespace Environment

variable {e : Environment}

theorem issued_locale (e : Environment) (around : Surroundings) (op : Operation) :
    op.issued around ⟨e, ∅⟩ = op.issued around e.locale := by
  have hraise : ∀ region, Locale.issued (Locale.raise around region) (fun r => r.2.reverse) ⟨e, ∅⟩ =
      Locale.issued (Locale.raise around region) (fun r => r.2.reverse) e.locale := fun region =>
    Locale.issued_twin (Locale.raise_twin around region) (fun _ _ h => congrArg _ h.2) e.locale_twin
  cases op with
  | createNode name content =>
    exact Locale.issued_twin (Locale.createNode_twin around name content) (fun _ _ h => h ▸ rfl) e.locale_twin
  | importNode original =>
    exact Locale.issued_twin (Locale.importNode_twin around original) (fun _ _ h => h ▸ rfl) e.locale_twin
  | insertTriple s p o =>
    exact Locale.issued_twin (Locale.insertTriple_twin s p o) (fun _ _ h => h ▸ rfl) e.locale_twin
  | rebuild region => exact hraise region
  | raise region => exact hraise region
  | _ => rfl

theorem Coherent.operated_follows (he : e.Coherent) (around : Surroundings) (op : Operation) :
    e.Follows (op.issued around ⟨e, ∅⟩) (e.operated around op) := by
  rw [issued_locale, operated_eq]
  exact (Locale.perform_follows he.locale around op).after

/-- What is read back from a record goes on where the environment was. -/
theorem Coherent.restored_follows (he : e.Coherent) {p : Plain} (hp : e.toRecord = .ok p)
    {e' : Environment} (h : fromRecord p = .ok e') : e.Follows [] e' := by
  obtain ⟨hnext, hlive⟩ := fromRecord_toRecord_live he.tabled hp h
  exact .idle (Int.le_of_eq hnext.symm) hlive

end Environment

/-! ## No handle left -/

namespace Locale

variable {around : Surroundings} {l : Locale}

theorem allocate_spent {α : Type} (hspent : maxHandle < l.env.nodes.next) (f : Int → Op α) :
    Ends (allocate >>= f) l (fun _ _ => False) fun g l' => g = .handlesExhausted ∧ l' = l := by
  unfold allocate onNodes NodeTable.allocate
  simp only [ends_bind, ends_get, if_pos hspent]
  exact ⟨rfl, rfl⟩

/-- A node that could be made if there were a handle left for it. -/
theorem createNode_spent (hspent : maxHandle < l.env.nodes.next) {name : Option String} {content : Option Structure}
    (free : ∀ s, name = some s → s ∉ l.env.nodes.names) (known : ∀ m ∈ (Cell.plain content).mentions, l.Knows around m) :
    createNode around name content l = .error .handlesExhausted l := by
  have hunknown : ∀ {P : Prop}, (∃ m ∈ (Cell.plain content).mentions, ¬l.Knows around m) → P :=
    fun ⟨m, hm, hnot⟩ => absurd (known m hm) hnot
  refine Ends.eq_error ((checkForeign_ends l around content).test (fun _ _ => ?_) fun _ _ h => hunknown h.2)
  rw [ends_bind, ends_get]
  dsimp only
  split
  · next s hs =>
    obtain ⟨hname, htaken⟩ := Option.filter_eq_some_iff.1 hs
    exact absurd (of_decide_eq_true htaken) (free s hname)
  · refine (checkLocal_ends l around content).test (fun _ _ => ?_) fun _ _ h => hunknown h.2
    exact allocate_spent hspent _

/-- A node of another environment has its stand-in still, or gets none any more. -/
theorem importNode_spent (hspent : maxHandle < l.env.nodes.next) {t : Node} (foreign : t.env ≠ l.env.id)
    (resolves : around.resolves t = true) :
    importNode around (.node t) l =
      match l.env.nodes.imports[t]? with
      | some k => .ok (l.env.node k, false) l
      | none => .error .handlesExhausted l := by
  have hcheck : checkForeign around (some (.node t)) l = .ok ⟨⟩ l := by
    refine Ends.eq_ok ((checkForeign_ends l around _).mono (fun _ _ h => ⟨rfl, h.1⟩) ?_)
    rintro _ _ ⟨-, m, hm, hnot⟩
    obtain rfl : m = t := by simpa [Cell.mentions, Cell.content, Structure.mentions] using hm
    exact hnot ⟨fun h => absurd h foreign, fun _ => resolves⟩
  unfold importNode
  dsimp only
  rw [get_bind, if_neg foreign, bind_of_ok hcheck]
  cases l.env.nodes.imports[t]? with
  | some k => rfl
  | none => exact Ends.eq_error (allocate_spent hspent _)

/-- A statement has its triple still, or gets none any more. -/
theorem insertTriple_spent (hspent : maxHandle < l.env.nodes.next) {subject predicate object : Structure}
    {s p o : Node} (hs : l.Resident subject s) (hp : l.Resident predicate p) (ho : l.Resident object o) :
    insertTriple subject predicate object l =
      match l.env.triples.find? ⟨s.id, p.id, o.id⟩ with
      | some k => .ok (l.env.node k, false) l
      | none => .error .handlesExhausted l := by
  have hresident : ∀ {x : Structure} {n : Node}, l.Resident x n → query (·.resident x) l = .ok n l := by
    intro x n hx
    refine Ends.eq_ok ((resident_ends l x).mono (fun m _ h => ⟨h.2.unique hx, h.1⟩) ?_)
    exact fun _ _ h => absurd hx (h.2 n)
  unfold insertTriple
  rw [bind_of_ok (hresident hs), bind_of_ok (hresident hp), bind_of_ok (hresident ho), get_bind]
  dsimp only
  cases l.env.triples.find? ⟨s.id, p.id, o.id⟩ with
  | some k => rfl
  | none => exact Ends.eq_error (allocate_spent hspent _)

end Locale

end GraphLisp
