import GraphLisp.Evaluator.Basic
import GraphLisp.Proofs.Environment.Likeness
/-!
# Universes alike

Two universes are alike if they have the same environments up to structures alike, with the same
references between them (`Universe.Like`). They answer questions about nodes and names in the same
way, and operations on their members keep them alike, as does rolling back.
-/

namespace GraphLisp

open Std

variable {lax : Bool}

/-- The same ids, with environments alike. -/
def MembersLike (lax : Bool) (ms ms' : ExtTreeMap Int Environment) : Prop :=
  ∀ id : Int, Option.Rel (Environment.Like lax) ms[id]? ms'[id]?

namespace MembersLike

variable {ms ms' : ExtTreeMap Int Environment}

theorem contains_eq (h : MembersLike lax ms ms') (id : Int) : ms.contains id = ms'.contains id := by
  rw [Bool.eq_iff_iff, ExtTreeMap.contains_iff_mem, ExtTreeMap.contains_iff_mem,
    mem_iff_exists_getElem?, mem_iff_exists_getElem?]
  have := h id
  generalize ms[id]? = o at this
  generalize ms'[id]? = o' at this
  cases this <;> simp

theorem insert (h : MembersLike lax ms ms') (id : Int) {e e' : Environment} (he : e.Like lax e') :
    MembersLike lax (ms.insert id e) (ms'.insert id e') := by
  intro k
  rw [ExtTreeMap.getElem?_insert, ExtTreeMap.getElem?_insert]
  split
  · exact .some he
  · exact h k

end MembersLike

/-- The second heir has other members, alike to those of the first one. -/
inductive Heir.Like (lax : Bool) (h : Heir) : Heir → Prop where
  | intro {ms : ExtTreeMap Int Environment} (hm : MembersLike lax h.members ms) :
    Like lax h { h with members := ms }

/-- The same environments up to structures alike, and the same references. -/
structure Universe.Like (lax : Bool) (u v : Universe) : Prop where
  members : MembersLike lax u.members v.members
  references : v.references = u.references
  heirs : List.Forall₂ (Heir.Like lax) u.heirs v.heirs

namespace Universe

variable {u v : Universe}

theorem environment_likes (h : u.Like lax v) (id : Int) :
    Answers (Environment.Like lax) (u.environment id) (v.environment id) := by
  have hid := h.members id
  unfold environment
  generalize u.members[id]? = o at hid ⊢
  generalize v.members[id]? = o' at hid ⊢
  cases hid with
  | some he => exact .ok he
  | none => exact .error rfl

theorem root_likes (h : u.Like lax v) : u.root.Like lax v.root := by
  have hid := h.members rootId
  unfold root
  generalize u.members[rootId]? = o at hid ⊢
  generalize v.members[rootId]? = o' at hid ⊢
  cases hid with
  | some he => exact he
  | none => exact .refl (Environment.fresh_sound rootId)

theorem denotes_likes (h : u.Like lax v) (n : Node) : u.denotes (.node n) = v.denotes (.node n) :=
  congrArg (n.env == rootId && ·) (h.members.contains_eq n.id)

theorem resolves_members {ms ms' : ExtTreeMap Int Environment} (h : MembersLike lax ms ms')
    (references references' : CrossReferences) (heirs heirs' : List Heir) (n : Node) :
    resolves ⟨ms, references, heirs⟩ n = resolves ⟨ms', references', heirs'⟩ n := by
  have hid := h n.env
  unfold resolves
  dsimp only
  generalize ms[n.env]? = o at hid ⊢
  generalize ms'[n.env]? = o' at hid ⊢
  cases hid with
  | some he => exact Environment.contains_likes he n
  | none => rfl

theorem resolves_likes (h : u.Like lax v) (n : Node) : u.resolves n = v.resolves n :=
  resolves_members h.members _ _ _ _ n

theorem surroundings_members {ms ms' : ExtTreeMap Int Environment} (h : MembersLike lax ms ms')
    (references references' : CrossReferences) (heirs heirs' : List Heir) (id : Int) :
    surroundings ⟨ms, references, heirs⟩ id = surroundings ⟨ms', references', heirs'⟩ id := by
  unfold surroundings
  refine congrArg₂ Surroundings.mk (funext (resolves_members h _ _ _ _)) (funext fun n => ?_)
  exact congrArg (fun b => id == rootId && (n.env == rootId && b)) (h.contains_eq n.id)

theorem surroundings_likes (h : u.Like lax v) (id : Int) : u.surroundings id = v.surroundings id :=
  surroundings_members h.members _ _ _ _ id

theorem nameOf_likes {e e' : Environment} (h : e.Like lax e') (n : Node) : e.nameOf n = e'.nameOf n := by
  cases h; rfl

theorem names_likes (h : u.Like lax v) : u.names = v.names := by
  funext n
  have hid := h.members n.env
  unfold names
  generalize u.members[n.env]? = o at hid ⊢
  generalize v.members[n.env]? = o' at hid ⊢
  cases hid with
  | some he => exact nameOf_likes he n
  | none => rfl

theorem findEnvironment_likes (h : u.Like lax v) (name : String) :
    u.findEnvironment name = v.findEnvironment name := by
  have hname : u.root.lookupName name = v.root.lookupName name := by
    have := root_likes h
    generalize u.root = e at this ⊢
    generalize v.root = e' at this ⊢
    cases this; rfl
  have hcontains : u.members.contains = v.members.contains := funext h.members.contains_eq
  unfold findEnvironment
  rw [hname, hcontains]

theorem envNode_likes (h : u.Like lax v) (id : Int) : Answers Eq (u.envNode id) (v.envNode id) :=
  (environment_likes h id).bind fun _ _ _ => .ok rfl

theorem resolve_likes (h : u.Like lax v) (n : Node) : Answers Eq (u.resolve n) (v.resolve n) := by
  unfold resolve
  dsimp only
  rw [denotes_likes h]
  split
  · exact .ok rfl
  · exact .error rfl

theorem wormholes_likes (h : u.Like lax v) (n : Node) (predicate : Option Node) :
    Answers Eq (u.wormholes n (predicate.map .node)) (v.wormholes n (predicate.map .node)) := by
  have hp : Option.Rel (Structure.Like lax) (predicate.map .node) (predicate.map .node) := by
    cases predicate with
    | none => exact .none
    | some n => exact .some (.node n)
  refine (resolve_likes h n).bind fun _ _ _ => ?_
  refine (Environment.ask_likes (root_likes h) (.some (.node n)) hp .none).bind ?_
  rintro ts _ rfl
  have hcontains : v.members.contains = u.members.contains := (funext h.members.contains_eq).symm
  rw [hcontains]
  exact .ok rfl

/-- A jump leads to the same place, which is a node. -/
theorem jump_likes (h : u.Like lax v) (n : Node) :
    Answers (fun a b => a = b ∧ ∃ m : Node, a.location = .node m) (u.jump n) (v.jump n) := by
  unfold jump
  dsimp only
  rw [denotes_likes h]
  split
  · refine (environment_likes h n.id).bind fun e e' he => ?_
    cases he
    exact .ok ⟨rfl, _, rfl⟩
  · refine (environment_likes h n.env).bind fun e e' he => ?_
    rw [Environment.contains_likes he]
    cases he
    dsimp only
    split
    · exact .ok ⟨rfl, _, rfl⟩
    · exact .error rfl

/-! ## Operations -/

theorem observe_likes {h h' : Heir} (hh : h.Like lax h') (id : Int) {e e' : Environment}
    (he : e.Like lax e') : (h.observe id e).Like lax (h'.observe id e') := by
  cases hh with | intro hm =>
  unfold Heir.observe
  dsimp only
  split
  · exact .intro (h := { h with members := _ }) (hm.insert _ he)
  · exact .intro hm

theorem putBack_likes (h : u.Like lax v) (id : Int) {l l' : Locale} (hl : l.Like lax l') :
    (u.putBack id l).Like lax (v.putBack id l') where
  members := h.members.insert id hl.env
  references := by cases hl; rfl
  heirs := List.forall₂_map_left_iff.2 (List.forall₂_map_right_iff.2
    (h.heirs.imp fun _ _ hh => observe_likes hh id hl.env))

theorem putBackTaken_likes (h : u.Like lax v) (id : Int) {l l' : Locale} (hl : l.Like lax l') :
    (u.putBackTaken id l).Like lax (v.putBackTaken id l') where
  members := h.members.insert id hl.env
  references := h.references
  heirs := by
    refine List.forall₂_map_left_iff.2 (List.forall₂_map_right_iff.2 (h.heirs.imp fun k k' hk => ?_))
    have hk := observe_likes hk id hl.env
    dsimp only
    generalize k.observe id l.env = k at hk ⊢
    generalize k'.observe id l'.env = k' at hk ⊢
    cases hk with | intro hm =>
    cases hl
    dsimp only
    split
    · exact .intro (h := { k with references := l.references }) hm
    · exact .intro hm

/-- The heirs that took a member over are alike, and have it under the same id. -/
theorem heirOf_likes (h : u.Like lax v) (id : Int) :
    Option.Rel (fun r r' : Int × Heir => r.1 = r'.1 ∧ r.2.Like lax r'.2) (u.heirOf id) (v.heirOf id) := by
  have hheirs := h.heirs
  unfold heirOf
  generalize u.heirs = hs at hheirs
  generalize v.heirs = hs' at hheirs
  induction hheirs with
  | nil => exact .none
  | @cons k k' ks ks' hk _ ih =>
    cases hk with | intro hm =>
    rw [List.findSome?_cons, List.findSome?_cons]
    dsimp only
    by_cases htaken : k.taken.contains id
    · rw [if_pos htaken, if_pos htaken]
      cases k.shared.lookup id with
      | none => exact ih
      | some there => exact .some ⟨rfl, .intro hm⟩
    · rw [if_neg htaken, if_neg htaken]
      exact ih

theorem settle_likes {α β : Type} {Q : α → β → Prop} {back back' : Locale → Universe}
    (hback : ∀ l l', Locale.Like lax l l' → (back l).Like lax (back' l'))
    {x : EStateM.Result Fault Locale α} {y : EStateM.Result Fault Locale β}
    (h : Agreed (Locale.Like lax) Q x y) :
    Agreed (Universe.Like lax) Q (settle back x) (settle back' y) := by
  cases h with
  | ok ha hl => exact .ok ha (hback _ _ hl)
  | error hf hl => exact .error hf (hback _ _ hl)

/-- Operations that agree on locales agree on members of universes. -/
theorem within_agree {α β : Type} {Q : α → β → Prop} (id : Int) {op : Surroundings → Op α}
    {op' : Surroundings → Op β} (h : ∀ around, Agree (Locale.Like lax) Q (op around) (op' around)) :
    Agree (Universe.Like lax) Q (within id op) (within id op') := by
  intro u v huv
  have henv := environment_likes huv id
  have hheir := heirOf_likes huv id
  unfold within
  generalize u.environment id = x at henv ⊢
  generalize v.environment id = y at henv ⊢
  generalize u.heirOf id = o at hheir ⊢
  generalize v.heirOf id = o' at hheir ⊢
  cases henv with
  | error hf => exact .error hf huv
  | ok he =>
    cases hheir with
    | none =>
      dsimp only
      rw [← surroundings_likes huv, huv.references]
      refine settle_likes (fun l l' hl => putBack_likes huv id hl) (h _ _ _ ?_)
      cases he with | intro hc => exact .intro (l := ⟨_, _⟩) hc
    | @some r r' hr =>
      obtain ⟨there, k⟩ := r
      obtain ⟨there', k'⟩ := r'
      obtain ⟨rfl, hk⟩ := hr
      cases hk with | intro hm =>
      dsimp only [ofHeir]
      rw [← surroundings_members hm]
      refine settle_likes (fun l l' hl => putBackTaken_likes huv id hl) (h _ _ _ ?_)
      cases he with | intro hc => exact .intro (l := ⟨_, _⟩) hc

/-! ## Rolling back -/

/-- The same changes were recorded at the same places, up to structures alike. -/
def JournalsLike (lax : Bool) : Journal Int → Journal Int → Prop :=
  List.Forall₂ fun c c' => c.1 = c'.1 ∧ c.2.Like lax c'.2

theorem rollback_agreed {J K : Journal Int} (hJ : JournalsLike lax J K) (h : u.Like lax v) :
    Agreed (fun r r' : Journal Int × Universe => JournalsLike lax r.1 r'.1 ∧ r.2.Like lax r'.2)
      (fun _ _ => True) (J.rollback Evaluator.undo u) (K.rollback Evaluator.undo v) := by
  induction hJ generalizing u v with
  | nil => exact .ok trivial ⟨.nil, h⟩
  | @cons c c' J K hc hJ ih =>
    obtain ⟨id, undo⟩ := c
    obtain ⟨id', undo'⟩ := c'
    obtain ⟨rfl, hundo⟩ := hc
    have hstep := within_agree id (fun around => Undo.perform_agree around hundo) u v h
    unfold Journal.rollback Evaluator.undo
    dsimp only
    generalize within id _ u = x at hstep ⊢
    generalize within id _ v = y at hstep ⊢
    cases hstep with
    | ok _ h => exact ih h
    | error hf h => exact .error hf ⟨hJ, h⟩

end Universe

end GraphLisp
