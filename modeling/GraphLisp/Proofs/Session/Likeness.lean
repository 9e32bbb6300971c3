import GraphLisp.Proofs.Context
import GraphLisp.Proofs.Evaluator.Likeness
import GraphLisp.Proofs.Universe.Flattened
import GraphLisp.Session
/-!
# Sessions of universes alike

Setting up sessions of universes alike takes the same nodes for the roles and the same home, and
leaves universes alike (`Session.ofUniverse_likes`). Steps taken by agents alike end alike
(`Evaluator.step_agree`).
-/

namespace GraphLisp

open Std

variable {lax : Bool}

/-! ## Setting up -/

namespace Universe

theorem query_agree {α β : Type} {Q : α → β → Prop} {f : Universe → Except Fault α}
    {g : Universe → Except Fault β} (h : ∀ u v, u.Like lax v → Answers Q (f u) (g v)) :
    Agree (Universe.Like lax) Q (query f) (query g) :=
  agree_get.bind fun _ _ hu => agree_of_answers _ _ (h _ _ hu)

theorem attach_agree {e : Environment} (he : e.Sound lax) :
    Agree (Universe.Like lax) (fun _ _ => True) (attach e) (attach e) := by
  refine agree_get.bind fun u v h => ?_
  have hmem : e.id ∈ u.members ↔ e.id ∈ v.members := by
    rw [← ExtTreeMap.contains_iff_mem, ← ExtTreeMap.contains_iff_mem, h.members.contains_eq]
  refine Agree.ite hmem (agree_throw rfl) ?_
  refine Agree.ite (by rw [Environment.contains_likes (root_likes h)]) (agree_throw rfl) ?_
  exact agree_set ⟨h.members.insert e.id (.refl he), congrArg (wire · e) h.references, h.heirs⟩

theorem createEnvironment_agree (name : Option String) :
    Agree (Universe.Like lax) Eq (createEnvironment name) (createEnvironment name) := by
  refine (within_agree rootId fun around => Locale.createNode_agree around name .none).bind ?_
  rintro n _ rfl
  exact (attach_agree (Environment.fresh_sound n.id)).bind fun _ _ _ => agree_pure rfl

theorem demandEnvironment_agree (name : Option String) :
    Agree (Universe.Like lax) Eq (demandEnvironment name) (demandEnvironment name) := by
  refine agree_get.bind fun u v h => ?_
  rw [findEnvironment_likes h]
  split
  · exact query_agree fun u v h => resolve_likes h _
  · exact createEnvironment_agree name

end Universe

namespace Context

/-- All players are nodes. -/
def OfNodes (c : Context) : Prop := ∀ e ∈ c.bindings, ∃ n : Node, e.2 = .node n

theorem OfNodes.sound {c : Context} (h : c.OfNodes) (r : Role) (s : Structure)
    (hs : c.player? r = some s) : s.Sound lax := by
  obtain ⟨l, l', hc, -⟩ := List.lookup_eq_some_iff.1 hs
  obtain ⟨n, hn⟩ := h (r, s) (hc ▸ List.mem_append_right _ (.head _))
  cases hn
  exact .node n

theorem bind_ofNodes (word : String) (n : Node) {c : Context} (hc : c.OfNodes) :
    Ends (bind word (.node n)) c (fun _ c' => c'.OfNodes) fun _ _ => True := by
  refine (bind_ends word (.node n) c).mono ?_ fun _ _ h => h
  rintro _ _ ⟨r, -, -, -, rfl⟩ e he
  rcases List.mem_append.1 he with he | he
  · exact hc e he
  · exact ⟨n, by rw [List.mem_singleton.1 he]⟩

theorem roleNode_agree (id : Int) (r : Role) :
    Agree (Universe.Like lax) Eq (roleNode id r) (roleNode id r) := by
  refine (Universe.query_agree fun u v h => Universe.environment_likes h id).bind fun e e' he => ?_
  rw [Environment.lookupName_likes he]
  split
  · exact agree_pure rfl
  · exact Universe.within_agree id fun around => Locale.createNode_agree around _ .none

theorem bindAll_agree (id : Int) (rs : List Role) (c : Context) (hc : c.OfNodes) :
    Agree (Universe.Like lax) (fun a b => a = b ∧ a.OfNodes) (bindAll id rs c) (bindAll id rs c) := by
  induction rs generalizing c with
  | nil => exact agree_pure ⟨rfl, hc⟩
  | cons r rest ih =>
    refine (roleNode_agree id r).bind ?_
    rintro n _ rfl
    have hbind := bind_ofNodes r.word n hc
    split
    · next heq => exact ih _ (hbind.of_ok heq)
    · exact agree_throw rfl

theorem bootstrap_agree (name : Option String) :
    Agree (Universe.Like lax) (fun a b => a = b ∧ a.OfNodes) (bootstrap name) (bootstrap name) := by
  refine (Universe.demandEnvironment_agree name).bind ?_
  rintro id _ rfl
  refine (bindAll_agree id Role.all (.empty (some id)) nofun).bind ?_
  rintro c _ ⟨rfl, hc⟩
  exact agree_pure ⟨rfl, hc⟩

end Context

/-- Two sessions differ in nothing but universes alike. -/
structure Session.Like (lax : Bool) (s s' : Session) : Prop where
  config : s.config = s'.config
  store : s.store.Like lax s'.store
  context : s.context = s'.context
  players : s.context.OfNodes
  home : s.home = s'.home

theorem Session.setUp_agree (config : Config) :
    Agree (Universe.Like lax) (fun a b => a = b ∧ a.1.OfNodes) (setUp config) (setUp config) := by
  refine (Context.bootstrap_agree _).bind ?_
  rintro c _ ⟨rfl, hc⟩
  refine (Universe.demandEnvironment_agree _).bind ?_
  rintro home _ rfl
  exact agree_pure ⟨rfl, hc⟩

/-- Sessions of universes alike are set up alike. -/
theorem Session.ofUniverse_likes (config : Config) {u v : Universe} (h : u.Like lax v) :
    Answers (Session.Like lax) (ofUniverse config u) (ofUniverse config v) := by
  have h := setUp_agree config u v h
  unfold ofUniverse
  generalize setUp config u = x at h ⊢
  generalize setUp config v = y at h ⊢
  cases h with
  | ok ha h =>
    obtain ⟨rfl, hc⟩ := ha
    exact .ok ⟨rfl, h, rfl, hc, rfl⟩
  | error hf _ => exact .error hf

theorem Universe.empty_sound : empty.Sound lax where
  members id e he := by
    rcases (getElem?_insert_iff _ _ _ _ _).1 he with ⟨-, rfl⟩ | ⟨-, he⟩
    · exact Environment.fresh_sound rootId
    · simp at he
  heirs := nofun

/-- Setting up a session stores nothing that is not sound. -/
theorem Session.ofUniverse_sound {config : Config} {u : Universe} {s : Session} (hu : u.Sound lax)
    (hs : ofUniverse config u = .ok s) : s.store.Sound lax ∧ s.context.OfNodes := by
  have h := ofUniverse_likes config ((Universe.like_iff u u).2 ⟨rfl, hu, hu⟩)
  rw [hs] at h
  cases h with
  | ok h => exact ⟨((Universe.like_iff _ _).1 h.store).2.1, h.players⟩

/-! ## Steps -/

/-- Two steps came to the same, up to values alike. -/
structure Outcome.Like (lax : Bool) (o o' : Outcome) : Prop where
  value : o.value.Like lax o'.value
  place : o.place = o'.place
  sound : o.place.location.Sound lax
  moved : o.moved = o'.moved
  effects : o.effects = o'.effects

/-- Two agents are at the same place, and their overlays and scopes are alike. -/
structure AgentState.Like (lax : Bool) (a b : AgentState) : Prop where
  place : a.place = b.place
  location : a.place.location.Sound lax
  overlay : a.overlay.Like lax b.overlay
  scope : a.scope.Like lax b.scope

/-- An agent is at its node, without any bindings of its own. -/
theorem Session.agent_likes (s : Session) : s.agent.state.Like lax s.agent.state :=
  ⟨rfl, .node _, Level.like_nil, Scope.like_nil⟩

/-- Steps agree: what fails is rolled back on both sides. -/
theorem Evaluator.step_agree {c : Context} (hc : ∀ r s, c.player? r = some s → s.Sound lax)
    {a b : AgentState} (h : a.Like lax b) (depth : Nat) {s s' : Structure} (hs : s.Like lax s') :
    Agree (Universe.Like lax) (Outcome.Like lax) (step depth ⟨c, a.overlay, s⟩ a.place a.scope)
      (step depth ⟨c, b.overlay, s'⟩ b.place b.scope) := by
  intro u v huv
  have hset : Setting.Like lax ⟨c, a.overlay, s⟩ ⟨c, b.overlay, s'⟩ := ⟨rfl, hc, h.overlay, hs⟩
  have heval := eval_agree hset depth _ _ _ _ hs h.scope _ _
    (⟨huv, h.place, h.location, rfl, .nil, rfl⟩ : Progress.Like lax ⟨u, a.place, false, [], []⟩
      ⟨v, b.place, false, [], []⟩)
  unfold step
  generalize eval _ depth _ _ ⟨u, _, _, _, _⟩ = x at heval ⊢
  generalize eval _ depth _ _ ⟨v, _, _, _, _⟩ = y at heval ⊢
  cases heval with
  | ok hvalue hp => exact .ok ⟨hvalue, hp.place, hp.sound, hp.moved, hp.effects⟩ hp.store
  | @error f g p p' hf hp =>
    have hback := Universe.rollback_agreed hp.journal hp.store
    dsimp only
    generalize p.journal.rollback undo p.store = x at hback ⊢
    generalize p'.journal.rollback undo p'.store = y at hback ⊢
    cases hback with
    | ok _ hr => exact .error hf hr.2
    | error hf' hr => exact .error hf' hr.2

end GraphLisp
