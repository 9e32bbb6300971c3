import GraphLisp.Proofs.Agreement
import GraphLisp.Proofs.Environment.Alterations
import GraphLisp.Proofs.Universe.Integrity
/-!
# Environments on their own

Of the references that environments share, an operation reads only those to nodes of its own
environment, and it files only what its environment holds of others. Two locales that show the same
environment and the same references to it (`Locale.Twin`) therefore stay so through every operation
(`Operation.perform_twin`). An environment that no universe has keeps no references at all, so that
what is known of operations in a coherent locale is known of it, too (`Environment.Coherent.operated`).
-/

namespace GraphLisp

open Std

/-! ## Locales that look the same from inside -/

namespace Locale

/-- The environment with the id is the same, and so are the references to its nodes. -/
structure Twin (id : Int) (l l' : Locale) : Prop where
  own : l.env.id = id
  env : l'.env = l.env
  references : ∀ n : Node, n.env = id → l'.references.bucket n = l.references.bucket n

variable {id : Int} {l l' : Locale}

/-- The same change to the environment keeps twins twins. -/
theorem Twin.update (h : Twin id l l') (e : Environment) (hid : e.id = l.env.id) :
    Twin id { l with env := e } { l' with env := e } :=
  ⟨hid.trans h.own, rfl, h.references⟩

theorem bucket_file_of_ne (refs : CrossReferences) {t k : Node} (n : Node) (hk : k ≠ t) :
    (refs.file t n).bucket k = refs.bucket k := by
  refine ExtTreeSet.ext_mem fun x => ?_
  rw [Index.mem_bucket_file]
  exact ⟨fun h => h.elim (fun h => absurd h.1 hk) id, .inr⟩

theorem bucket_withdraw_of_ne (refs : CrossReferences) {t k : Node} (n : Node) (hk : k ≠ t) :
    (refs.withdraw t n).bucket k = refs.bucket k := by
  refine ExtTreeSet.ext_mem fun x => ?_
  rw [Index.mem_bucket_withdraw]
  exact ⟨And.left, fun h => ⟨h, fun e => hk e.1⟩⟩

/-- What is filed for a node of another environment leaves the references to this one alone. -/
theorem Twin.refer (h : Twin id l l') (handle : Int) (t : Node) :
    Twin id (l.refer handle t) (l'.refer handle t) := by
  unfold Locale.refer
  rw [h.env]
  split
  · exact h.update _ rfl
  · next ht =>
    refine ⟨h.own, rfl, fun n hn => ?_⟩
    have hne : n ≠ t := fun e => ht (by rw [← e, hn, h.own])
    change (l'.references.file t _).bucket n = (l.references.file t _).bucket n
    rw [bucket_file_of_ne _ _ hne, bucket_file_of_ne _ _ hne]
    exact h.references n hn

theorem Twin.unrefer (h : Twin id l l') (handle : Int) (t : Node) :
    Twin id (l.unrefer handle t) (l'.unrefer handle t) := by
  unfold Locale.unrefer
  rw [h.env]
  split
  · exact h.update _ rfl
  · next ht =>
    refine ⟨h.own, rfl, fun n hn => ?_⟩
    have hne : n ≠ t := fun e => ht (by rw [← e, hn, h.own])
    change (l'.references.withdraw t _).bucket n = (l.references.withdraw t _).bucket n
    rw [bucket_withdraw_of_ne _ _ hne, bucket_withdraw_of_ne _ _ hne]
    exact h.references n hn

theorem Twin.foldl {f : Locale → Node → Locale}
    (hf : ∀ {l l' : Locale}, Twin id l l' → ∀ n, Twin id (f l n) (f l' n)) (ns : List Node)
    (h : Twin id l l') : Twin id (ns.foldl f l) (ns.foldl f l') := by
  induction ns generalizing l l' with
  | nil => exact h
  | cons n ns ih => exact ih (hf h n)

theorem Twin.release (h : Twin id l l') (handle : Int) :
    Twin id (l.release handle) (l'.release handle) := by
  unfold Locale.release
  rw [h.env]
  split
  · exact h
  · exact Twin.foldl (fun h n => h.unrefer handle n) _ h

theorem Twin.hold (h : Twin id l l') (handle : Int) (c : Cell) :
    Twin id (l.hold handle c) (l'.hold handle c) := by
  unfold Locale.hold
  have hr := h.release handle
  refine Twin.foldl (fun h n => h.refer handle n) _ ?_
  rw [hr.env]
  exact hr.update _ rfl

theorem Twin.discardHandle (h : Twin id l l') (handle : Int) :
    Answers (Twin id) (l.discardHandle handle) (l'.discardHandle handle) := by
  unfold Locale.discardHandle
  rw [h.env]
  refine (answers_refl (Q := Eq) (fun _ => rfl) _).bind ?_
  rintro c _ rfl
  refine (answers_refl (Q := Eq) (fun _ => rfl) _).bind ?_
  rintro nodes _ rfl
  have hr := (h.update { l.env with nodes } rfl).release handle
  dsimp only
  rw [hr.env]
  refine (answers_refl (Q := Eq) (fun _ => rfl) _).bind ?_
  rintro nodes _ rfl
  exact .ok (hr.update _ rfl)

/-! ### Steps of operations -/

section
variable {α : Type}

theorem query_twin (f : Environment → Except Fault α) : Agree (Twin id) Eq (query f) (query f) := by
  refine agree_get.bind fun l l' hl => ?_
  rw [hl.env]
  exact agree_of_answers _ _ (answers_refl (fun _ => rfl) _)

theorem onNodes_twin (f : NodeTable → Except Fault (α × NodeTable)) :
    Agree (Twin id) Eq (onNodes f) (onNodes f) := by
  refine agree_get.bind fun l l' hl => ?_
  rw [hl.env]
  split
  · refine (agree_modify fun l l' hl => ?_).bind fun _ _ _ => agree_pure rfl
    rw [hl.env]
    exact hl.update _ rfl
  · exact agree_throw rfl

theorem onTriples_twin (change : TripleStore.Change α) :
    Agree (Twin id) Eq (onTriples change) (onTriples change) := by
  intro l l' hl
  unfold onTriples
  rw [hl.env]
  split
  · exact .ok rfl (hl.update _ rfl)
  · exact .error rfl (hl.update _ rfl)

end

/-- A node is resident only in an environment with its id. -/
theorem resident_twin (s : Structure) :
    Agree (Twin id) (fun n n' => n = n' ∧ n.env = id) (query (·.resident s)) (query (·.resident s)) := by
  refine agree_get.bind fun l l' hl => ?_
  rw [hl.env]
  dsimp only
  cases hr : l.env.resident s with
  | error fault => exact agree_throw rfl
  | ok n =>
    refine agree_pure ⟨rfl, ?_⟩
    unfold Environment.resident at hr
    split at hr
    · split at hr
      · cases hr
      · split at hr
        · next hne _ =>
          cases hr
          exact (Decidable.not_not.1 hne).trans hl.own
        · cases hr
    · cases hr

theorem hold_twin (handle : Int) (c : Cell) :
    Agree (Twin id) (fun _ _ => True) (modify (·.hold handle c)) (modify (·.hold handle c)) :=
  agree_modify fun _ _ hl => hl.hold handle c

theorem drop_twin (handle : Int) : Agree (Twin id) (fun _ _ => True) (drop handle) (drop handle) := by
  refine agree_get.bind fun l l' hl => ?_
  have hd := hl.discardHandle handle
  generalize l.discardHandle handle = x at hd ⊢
  generalize l'.discardHandle handle = y at hd ⊢
  cases hd with
  | ok h => exact agree_set h
  | error h => exact agree_throw h

theorem checkForeign_twin (around : Surroundings) (content : Option Structure) :
    Agree (Twin id) Eq (checkForeign around content) (checkForeign around content) := by
  refine agree_get.bind fun l l' hl => ?_
  rw [hl.env]
  dsimp only
  split
  · exact agree_throw rfl
  · exact agree_pure rfl

theorem checkLocal_twin (content : Option Structure) :
    Agree (Twin id) Eq (checkLocal content) (checkLocal content) := by
  refine agree_get.bind fun l l' hl => ?_
  rw [hl.env]
  dsimp only
  split
  · exact agree_throw rfl
  · exact agree_pure rfl

/-- Whether a node is in use shows in the references to it. -/
theorem checkUnused_twin (around : Surroundings) {n : Node} (hn : n.env = id) :
    Agree (Twin id) Eq (checkUnused around n) (checkUnused around n) := by
  refine agree_get.bind fun l l' hl => ?_
  rw [hl.env, hl.references n hn]
  dsimp only
  repeat' split
  all_goals first | exact agree_throw rfl | exact agree_pure rfl

/-! ### Operations -/

variable (around : Surroundings)

theorem createNode_twin (name : Option String) (content : Option Structure) :
    Agree (Twin id) Eq (createNode around name content) (createNode around name content) := by
  have hstore : ∀ handle, Agree (Twin id) Eq
      (do modify (·.hold handle (.plain content)); return (← get).env.node handle)
      (do modify (·.hold handle (.plain content)); return (← get).env.node handle) := fun handle =>
    (hold_twin handle _).bind fun _ _ _ => agree_get.bind fun l l' hl => by
      rw [hl.env]
      exact agree_pure rfl
  refine (checkForeign_twin around content).bind fun _ _ _ => agree_get.bind fun l l' hl => ?_
  rw [hl.env]
  dsimp only
  split
  · exact agree_throw rfl
  refine (checkLocal_twin content).bind fun _ _ _ => (onNodes_twin _).bind ?_
  rintro handle _ rfl
  cases name with
  | none => exact hstore handle
  | some n => exact (onNodes_twin _).bind fun _ _ _ => hstore handle

theorem setStructure_twin (s : Structure) (content : Option Structure) :
    Agree (Twin id) Eq (setStructure around s content) (setStructure around s content) := by
  refine (checkForeign_twin around content).bind fun _ _ _ => (resident_twin s).bind ?_
  rintro n _ ⟨rfl, -⟩
  refine (query_twin _).bind ?_
  rintro c _ rfl
  cases c with
  | triple => exact agree_throw rfl
  | proxy target => exact agree_throw rfl
  | plain previous =>
    exact (checkLocal_twin content).bind fun _ _ _ => (hold_twin n.id _).bind fun _ _ _ => agree_pure rfl

theorem rename_twin (s : Structure) (name : Option String) :
    Agree (Twin id) Eq (rename s name) (rename s name) := by
  refine (resident_twin s).bind ?_
  rintro n _ ⟨rfl, -⟩
  refine agree_get.bind fun l l' hl => ?_
  rw [hl.env]
  cases name with
  | none => exact (onNodes_twin _).bind fun _ _ _ => agree_pure rfl
  | some name => exact (onNodes_twin _).bind fun _ _ _ => agree_pure rfl

theorem deleteNode_twin (s : Structure) :
    Agree (Twin id) Eq (deleteNode around s) (deleteNode around s) := by
  refine (resident_twin s).bind ?_
  rintro n _ ⟨rfl, hn⟩
  refine (query_twin _).bind ?_
  rintro c _ rfl
  have hrest : ∀ c, Agree (Twin id) Eq
      (do
        checkUnused around n
        let name := (← get).env.nodes.nameOf[n.id]?
        drop n.id
        return (⟨name, c⟩ : Remains))
      (do
        checkUnused around n
        let name := (← get).env.nodes.nameOf[n.id]?
        drop n.id
        return ⟨name, c⟩) := fun c => by
    refine (checkUnused_twin around hn).bind fun _ _ _ => agree_get.bind fun l l' hl => ?_
    rw [hl.env]
    exact (drop_twin n.id).bind fun _ _ _ => agree_pure rfl
  cases c with
  | triple => exact agree_throw rfl
  | plain _ => exact hrest _
  | proxy _ => exact hrest _

theorem importNode_twin (s : Structure) :
    Agree (Twin id) Eq (importNode around s) (importNode around s) := by
  cases s with
  | node target =>
    refine agree_get.bind fun l l' hl => ?_
    rw [hl.env]
    dsimp only
    split
    · exact agree_throw rfl
    refine (checkForeign_twin around _).bind fun _ _ _ => ?_
    split
    · exact agree_pure rfl
    · refine (onNodes_twin _).bind ?_
      rintro handle _ rfl
      refine (agree_modify fun l l' hl => ?_).bind fun _ _ _ =>
        (hold_twin handle _).bind fun _ _ _ => agree_pure rfl
      rw [hl.env]
      exact hl.update _ rfl
  | _ => exact agree_throw rfl

theorem insertTriple_twin (s p o : Structure) :
    Agree (Twin id) Eq (insertTriple s p o) (insertTriple s p o) := by
  refine (resident_twin s).bind ?_
  rintro s _ ⟨rfl, -⟩
  refine (resident_twin p).bind ?_
  rintro p _ ⟨rfl, -⟩
  refine (resident_twin o).bind ?_
  rintro o _ ⟨rfl, -⟩
  refine agree_get.bind fun l l' hl => ?_
  rw [hl.env]
  dsimp only
  split
  · exact agree_pure rfl
  · refine (onNodes_twin _).bind ?_
    rintro handle _ rfl
    refine (agree_modify fun l l' hl => ?_).bind fun _ _ _ => agree_pure rfl
    rw [hl.env]
    exact hl.update _ rfl

theorem deleteTriple_twin (s : Structure) :
    Agree (Twin id) Eq (deleteTriple around s) (deleteTriple around s) := by
  refine (resident_twin s).bind ?_
  rintro n _ ⟨rfl, hn⟩
  refine (query_twin _).bind ?_
  rintro c _ rfl
  cases c with
  | triple =>
    refine (checkUnused_twin around hn).bind fun _ _ _ => (onTriples_twin _).bind ?_
    rintro st _ rfl
    refine (drop_twin n.id).bind fun _ _ _ => agree_get.bind fun l l' hl => ?_
    rw [hl.env]
    exact agree_pure rfl
  | _ => exact agree_throw rfl

theorem discard_twin (n : Node) : Agree (Twin id) (fun _ _ => True) (discard n) (discard n) := by
  refine (resident_twin _).bind ?_
  rintro n _ ⟨rfl, -⟩
  refine (query_twin _).bind ?_
  rintro c _ rfl
  cases c with
  | triple => exact (onTriples_twin _).bind fun _ _ _ => drop_twin n.id
  | _ => exact drop_twin n.id

theorem discardAll_twin (ns : List Node) :
    Agree (Twin id) (fun _ _ => True) (discardAll ns) (discardAll ns) := by
  induction ns with
  | nil => exact agree_pure trivial
  | cons n ns ih => exact (discard_twin n).bind fun _ _ _ => ih

end Locale

/-! ### Regions -/

namespace Building

/-- The same has been built, in locales that are twins. -/
inductive Twin (id : Int) : Building → Building → Prop where
  | intro {l l' : Locale} (h : Locale.Twin id l l') (created : List Node) (heads : ExtTreeMap Node Node) :
    Twin id ⟨l, created, heads⟩ ⟨l', created, heads⟩

variable {id : Int} (around : Surroundings)

theorem lift_twin {α : Type} {op : Op α} (h : Agree (Locale.Twin id) Eq op op) :
    Agree (Twin id) Eq (lift op) (lift op) := by
  rintro _ _ ⟨hl, created, heads⟩
  have h := h _ _ hl
  unfold lift
  dsimp only
  generalize op _ = x at h ⊢
  generalize op _ = y at h ⊢
  cases h with
  | ok ha hl => exact .ok ha (.intro hl created heads)
  | error hf hl => exact .error hf (.intro hl created heads)

theorem note_twin (n : Node) : Agree (Twin id) (fun _ _ => True) (note n) (note n) :=
  agree_modify fun _ _ hb => by cases hb with | intro hl created heads => exact .intro hl _ heads

theorem freshNode_twin (content : Option Structure) :
    Agree (Twin id) Eq (freshNode around content) (freshNode around content) := by
  refine (lift_twin (Locale.createNode_twin around none content)).bind ?_
  rintro n _ rfl
  exact (note_twin n).bind fun _ _ _ => agree_pure rfl

theorem head_twin (s : Structure) : Agree (Twin id) Eq (head around s) (head around s) := by
  cases s with
  | node n =>
    refine agree_get.bind fun b b' hb => ?_
    cases hb with | intro hl created heads =>
    dsimp only
    split
    · exact agree_pure rfl
    · refine agree_get.bind fun b b' hb => ?_
      cases hb with | intro hl _ _ =>
      dsimp only
      rw [hl.env]
      refine (freshNode_twin around _).bind ?_
      rintro made _ rfl
      refine (agree_modify fun b b' hb => ?_).bind fun _ _ _ => agree_pure rfl
      cases hb with | intro hl created heads => exact .intro hl created _
  | pair _ _ => exact agree_throw rfl
  | _ => exact freshNode_twin around _

theorem predicate_twin (s : Structure) : Agree (Twin id) Eq (predicate s) (predicate s) := by
  cases s with
  | node n => exact agree_pure rfl
  | sym name =>
    refine agree_get.bind fun b b' hb => ?_
    cases hb with | intro hl _ _ =>
    dsimp only
    rw [hl.env]
    split
    · exact agree_pure rfl
    · exact agree_throw rfl
  | _ => exact agree_throw rfl

mutual

theorem build_twin (s : Structure) : Agree (Twin id) Eq (build around s) (build around s) := by
  match s with
  | .node n => exact agree_pure rfl
  | .pair car cdr =>
    unfold build
    refine (head_twin around car).bind ?_
    rintro made _ rfl
    exact (buildEntries_twin _ made cdr).bind fun _ _ _ => agree_pure rfl
  | .nothing => exact agree_throw rfl
  | .int n => exact freshNode_twin around _
  | .bool b => exact freshNode_twin around _
  | .str s => exact freshNode_twin around _
  | .sym s => exact freshNode_twin around _
  | .nil => exact freshNode_twin around _
  | .proc ps body scope => exact freshNode_twin around _

theorem buildEntries_twin (whole : Structure) (made : Node) (s : Structure) :
    Agree (Twin id) Eq (buildEntries around whole made s) (buildEntries around whole made s) := by
  unfold buildEntries
  split
  · next p child rest =>
    refine (predicate_twin p).bind ?_
    rintro relation _ rfl
    refine (build_twin child).bind ?_
    rintro value _ rfl
    refine (lift_twin (Locale.insertTriple_twin _ _ _)).bind ?_
    rintro ⟨n, new⟩ _ rfl
    have hgo := buildEntries_twin whole made rest
    dsimp only
    split
    · exact (note_twin n).bind fun _ _ _ => hgo
    · exact hgo
  · exact agree_throw rfl
  · exact agree_pure rfl
  · exact agree_throw rfl

end

end Building

namespace Locale

variable {id : Int} (around : Surroundings)

theorem raise_twin (s : Structure) :
    Agree (Twin id) (fun r r' => Answers Eq r.1 r'.1 ∧ r.2 = r'.2) (raise around s) (raise around s) := by
  intro l l' hl
  have hb := Building.build_twin around s _ _ (.intro hl [] ∅)
  unfold raise
  generalize Building.build around s ⟨l, [], ∅⟩ = x at hb ⊢
  generalize Building.build around s ⟨l', [], ∅⟩ = y at hb ⊢
  cases hb with
  | ok ha hs => cases hs with | intro hl created heads => exact .ok ⟨.ok ha, rfl⟩ hl
  | error hf hs => cases hs with | intro hl created heads => exact .ok ⟨.error hf, rfl⟩ hl

theorem rebuild_twin (s : Structure) : Agree (Twin id) Eq (rebuild around s) (rebuild around s) := by
  refine (raise_twin around s).bind ?_
  rintro ⟨r, created⟩ ⟨r', _⟩ ⟨hr, rfl⟩
  cases hr with
  | ok h => exact agree_pure h
  | error h => exact (discardAll_twin created).bind fun _ _ _ => agree_throw h

end Locale

/-- An operation does the same to locales that look the same from inside. -/
theorem Operation.perform_twin {id : Int} (around : Surroundings) (op : Operation) :
    Agree (Locale.Twin id) Eq (op.perform around) (op.perform around) := by
  cases op with
  | createNode name content =>
    exact (Locale.createNode_twin around name content).bind fun _ _ _ => agree_pure rfl
  | setStructure node content =>
    exact (Locale.setStructure_twin around node content).bind fun _ _ _ => agree_pure rfl
  | rename node name => exact (Locale.rename_twin node name).bind fun _ _ _ => agree_pure rfl
  | deleteNode node => exact (Locale.deleteNode_twin around node).bind fun _ _ _ => agree_pure rfl
  | importNode original => exact (Locale.importNode_twin around original).bind fun _ _ _ => agree_pure rfl
  | insertTriple s p o => exact (Locale.insertTriple_twin s p o).bind fun _ _ _ => agree_pure rfl
  | deleteTriple node => exact (Locale.deleteTriple_twin around node).bind fun _ _ _ => agree_pure rfl
  | rebuild region => exact (Locale.rebuild_twin around region).bind fun _ _ _ => agree_pure rfl
  | raise region => exact (Locale.raise_twin around region).bind fun _ _ _ => agree_pure rfl

theorem Locale.Changes.coherent {around : Surroundings} {l l' : Locale} (hl : l.Coherent)
    (h : l.Changes around l') : l'.Coherent := by
  cases h with
  | altered h => exact h.coherent hl
  | kept hl' => exact hl'

/-! ## Environments that no universe has -/

namespace Environment

/-- Every table of the environment follows from what it contains. -/
structure Coherent (e : Environment) : Prop where
  tabled : e.Tabled
  referrers_tight : e.nodes.referrers.Tight
  referrers : ∀ k h, h ∈ e.nodes.referrers.bucket k ↔ e.Mentions h ⟨e.id, k⟩

variable {e : Environment}

theorem Standalone.coherent (he : e.Standalone) : e.Coherent := ⟨he.tabled, he.referrers_tight, he.referrers⟩

/-- The environment with its own references, and no others. -/
def locale (e : Environment) : Locale := ⟨e, Universe.wire ∅ e⟩

theorem Coherent.locale (he : e.Coherent) : e.locale.Coherent where
  tabled := he.tabled
  filed := by
    obtain ⟨htight, hlists⟩ := Universe.wire_lists e ∅ .empty
    refine ⟨he.referrers_tight, htight, he.referrers, fun t h => (hlists t _).trans ?_⟩
    have hnone : e.node h ∉ (∅ : CrossReferences).bucket t := by simp [Index.mem_bucket]
    rw [e.mem_foreignReferences_iff]
    exact (or_iff_left hnone).trans (and_iff_right rfl)

theorem coherent_of_locale {l : Locale} (hl : l.Coherent) : l.env.Coherent :=
  ⟨hl.tabled, hl.filed.referrers_tight, hl.filed.within⟩

/-- Without a universe, nothing keeps references. As long as no other environment has any, that
makes no difference. -/
theorem locale_twin (e : Environment) : Locale.Twin e.id ⟨e, ∅⟩ e.locale where
  own := rfl
  env := rfl
  references n hn := by
    obtain ⟨-, hlists⟩ := Universe.wire_lists e ∅ .empty
    refine ExtTreeSet.ext_mem fun x => (hlists n x).trans ?_
    rw [e.mem_foreignReferences_iff]
    exact or_iff_right fun h => h.2.1 hn

/-- What an operation leaves of an environment that no universe has, whether or not it fails. -/
def operated (e : Environment) (around : Surroundings) (op : Operation) : Environment :=
  (after (op.perform around) ⟨e, ∅⟩).env

/-- What is left of an environment after operations, each in surroundings of its own. -/
def evolved (e : Environment) (ops : List (Surroundings × Operation)) : Environment :=
  ops.foldl (fun e x => e.operated x.1 x.2) e

theorem operated_eq (e : Environment) (around : Surroundings) (op : Operation) :
    e.operated around op = (after (op.perform around) e.locale).env :=
  ((op.perform_twin around).after e.locale_twin).env.symm

/-- An operation changes an environment on its own as it would in a coherent locale. -/
theorem Coherent.operated_changes (he : e.Coherent) (around : Surroundings) (op : Operation) :
    ∃ l, e.locale.Changes around l ∧ l.env = e.operated around op :=
  ⟨_, (Locale.perform_changes he.locale around op).after, (operated_eq e around op).symm⟩

theorem Coherent.operated (he : e.Coherent) (around : Surroundings) (op : Operation) :
    (e.operated around op).Coherent := by
  obtain ⟨l, hl, heq⟩ := he.operated_changes around op
  exact heq ▸ coherent_of_locale (hl.coherent he.locale)

end Environment

end GraphLisp
