import GraphLisp.Proofs.Evaluator.Standing
import GraphLisp.Proofs.Session.Names
/-!
# Where agents stand

An agent of a session, at home or at any other live node, only runs things and jumps: then it is at a live
node at any time, and it has what it had but for its place (`Session.agent_stands`). Where it is can be
described, except that nothing writes the numbers of nodes that only a file can have brought in.
-/

namespace GraphLisp

open Std

/-! ## Home -/

namespace Universe

/-- The environment that is demanded is there. -/
theorem demandEnvironment_member {u : Universe} (hu : u.CoherentClosed) (name : Option String) :
    Ends (demandEnvironment name) u (fun id v => id ∈ v.members) fun _ _ => True := by
  unfold demandEnvironment
  rw [ends_bind, ends_get]
  split
  · refine (query_ends _ u).mono ?_ fun _ _ _ => trivial
    rintro id _ ⟨rfl, hid⟩
    unfold resolve at hid
    dsimp only at hid
    split at hid
    · next hdenotes =>
      cases hid
      simp only [denotes, Bool.and_eq_true] at hdenotes
      exact ExtTreeMap.contains_iff_mem.1 hdenotes.2
    · cases hid
  · refine (createNode_preserves lasting_true rootId name none u ⟨hu, trivial⟩).bind ?_ fun _ _ _ => trivial
    intro n v hv
    refine (attach_keeps hv.toCoherentClosed n.id).bind ?_ fun _ _ _ => trivial
    exact fun _ _ h => h.2

end Universe

namespace Session

theorem ofUniverse_home {config : Config} {u : Universe} {s : Session} (hu : u.CoherentClosed)
    (h : ofUniverse config u = .ok s) : s.home ∈ s.store.members := by
  have hhome : Ends (setUp config) u (fun x v => x.2 ∈ v.members) fun _ _ => True := by
    refine (Universe.lasting_true.growing.bootstrap _ u ⟨hu, trivial⟩).bind (fun c v hv => ?_) fun _ _ _ => trivial
    exact (Universe.demandEnvironment_member hv.toCoherentClosed _).bind (fun _ _ h => h) fun _ _ _ => trivial
  unfold ofUniverse at h
  split at h
  · next heq =>
    cases h
    exact hhome.of_ok heq
  · cases h

end Session

theorem Universe.Coherent.self_stands {u : Universe} (hu : u.Coherent) {id : Int} (hid : id ∈ u.members) :
    (⟨id, .node ⟨id, selfHandle⟩⟩ : Place).Stands u := by
  obtain ⟨e, he⟩ := (mem_iff_exists_getElem? _ _).1 hid
  exact ⟨_, rfl, rfl, e, he, (hu.tabled id e he).self⟩

/-! ## Deeds -/

namespace Agent

/-- What an agent does: it runs something, or it jumps. -/
inductive Deed where
  | run (program : Structure)
  | jump (target : Structure)

/-- What a deed makes of a universe and of the agent, whether or not it fails. -/
def Deed.done (c : Context) (w : Universe × Agent) : Deed → Universe × Agent
  | .run program => after (Agent.run c program) w
  | .jump target => after (Agent.jump target) w

/-- The agent is at a live node, and nothing but its place has changed. -/
def Stays (P : Universe → Prop) (a : Agent) (w : Universe × Agent) : Prop :=
  ∃ u place, w = (u, a.move place) ∧ Universe.CoherentClosedWith P u ∧ place.Stands u

variable {P : Universe → Prop} {a : Agent} {w : Universe × Agent}

/-- A jump leaves the universe alone, and the agent too if it is refused. -/
theorem after_jump (u : Universe) (a : Agent) (target : Structure) :
    after (jump target) (u, a) = match u.jump target with
      | .ok place => (u, a.move place)
      | .error _ => (u, a) := by
  unfold after jump
  rw [get_bind]
  dsimp only
  cases u.jump target <;> rfl

/-- A deed leads from a live node to a live node. -/
theorem Stays.done (hP : Universe.Lasting P) (hw : ∀ {u}, P u → u.Writable) {depth : Nat}
    (ha : a.interpreter = .bounded depth) (h : Stays P a w) (c : Context) (d : Deed) : Stays P a (d.done c w) := by
  obtain ⟨u, place, rfl, hu, hplace⟩ := h
  cases d with
  | run program =>
    have hstep := Evaluator.step_stands depth ⟨c, a.state.overlay, program⟩ a.state.scope hP hw hu hplace
    have hrun : (a.move place).interpreter.evaluate c (a.move place).state program u =
        Evaluator.step depth ⟨c, a.state.overlay, program⟩ place a.state.scope u := by
      change a.interpreter.evaluate c _ program u = _
      rw [ha]
      rfl
    change Stays P a (after (run c program) (u, a.move place))
    rw [after_run, hrun]
    -- a run that fails leaves the agent where it was, and the universe as it was
    cases h : Evaluator.step depth ⟨c, a.state.overlay, program⟩ place a.state.scope u with
    | ok outcome v => exact ⟨v, outcome.place, rfl, hstep.of_ok h⟩
    | error fault v => exact ⟨v, place, rfl, hstep.of_error h⟩
  | jump target =>
    change Stays P a (after (jump target) (u, a.move place))
    rw [after_jump]
    cases hjump : u.jump target with
    | ok there => exact ⟨u, there, rfl, hu, Universe.jump_stands hu.coherent hjump⟩
    | error fault => exact ⟨u, place, rfl, hu, hplace⟩

theorem Stays.all (hP : Universe.Lasting P) (hw : ∀ {u}, P u → u.Writable) {depth : Nat}
    (ha : a.interpreter = .bounded depth) (c : Context) (deeds : List Deed) (h : Stays P a w) : Stays P a (deeds.foldl (Deed.done c) w) := by
  induction deeds generalizing w with
  | nil => exact h
  | cons d deeds ih => exact ih (h.done hP hw ha c d)

end Agent

/-! ## Agents of sessions -/

/-- A step of an agent as it starts, or as it is when evaluating something has ended and nothing is taken back yet. -/
def Agent.AtWork (c : Context) (a : Agent) (depth : Nat) (u : Universe) (place : Place) (p : Progress) : Prop :=
  p = .start u place ∨ ∃ program, p = Evaluator.reached depth ⟨c, a.state.overlay, program⟩ place a.state.scope u

/-- A step is at a live node, and what is there can be asked for and told. -/
structure Progress.Located (p : Progress) : Prop where
  stands : p.place.Stands p.store
  describes : p.Describes
  told : ∃ effects, Eval.describe p = .ok ⟨⟩ { p with effects := p.effects ++ effects }

/-- Deeds change nothing of an agent but its place, and after them it is at a live node before every step and when
evaluating ends. -/
def Agent.StandsAfter (a : Agent) (c : Context) (depth : Nat) (u : Universe) (deeds : List Deed) : Prop :=
  ∃ v place, deeds.foldl (Deed.done c) (u, a) = (v, a.move place) ∧ ∀ p, a.AtWork c depth v place p → p.Located

theorem Agent.stands_after {P : Universe → Prop} (hP : Universe.Lasting P) (hw : ∀ {u}, P u → u.Writable)
    {u : Universe} (hu : Universe.CoherentClosedWith P u) {a : Agent} {depth : Nat}
    (ha : a.interpreter = .bounded depth) (hplace : a.state.place.Stands u) (c : Context) (deeds : List Deed) :
    a.StandsAfter c depth u deeds := by
  obtain ⟨v, place, hdone, hv, hstands⟩ := Stays.all hP hw ha c deeds ⟨u, a.state.place, rfl, hu, hplace⟩
  have hlasting : ∀ p, a.AtWork c depth v place p → Standing P p := by
    rintro p (rfl | ⟨program, rfl⟩)
    · exact ⟨hv, hstands⟩
    · exact Evaluator.reached_standing _ _ _ hP hv hstands
  refine ⟨v, place, hdone, fun p hp => ?_⟩
  have hp := hlasting p hp
  have hwritable : Standing Universe.Writable p := ⟨⟨hp.store.toCoherentClosed, hw hp.store.prop⟩, hp.stands⟩
  exact ⟨hp.stands, hp.describes, hwritable.describe_ok⟩

namespace Session

/-- The agents of a session stand, whatever they do: the home agent to start with, and every agent of the language that
starts at a live node. If something was loaded, that takes that its nodes can be put in words. -/
structure AgentsStand (s : Session) (writable : Prop) : Prop where
  home : s.agent.state.place.Stands s.store
  interpreter : s.agent.interpreter = .bounded Evaluator.maxDepth
  others : writable → ∀ (a : Agent) (depth : Nat), a.interpreter = .bounded depth → a.state.place.Stands s.store →
    ∀ deeds, a.StandsAfter s.context depth s.store deeds

/-- The home agent of a session stands. If all nodes can be put in words that were in the folder the session was
started from, then, whatever an agent that stands does, nothing but its place changes, and it stands before every step
and when evaluating ends, before anything is taken back. What is there can be asked for and told. -/
theorem agent_stands {config : Config} {label : String} {f f' : Folder} {s : Session}
    (hs : start config label f = .ok s f') :
    s.AgentsStand (∀ v, config.snapshotDir.isSome → Universe.load label f = .ok v → v.Writable) := by
  obtain ⟨v, hv, hfrom⟩ := start_from hs
  have hclosed : v.CoherentClosed := by
    rcases hfrom with rfl | ⟨-, hl⟩
    · exact Universe.empty_coherentClosed
    · exact ⟨(Universe.load_loading hl).1.coherent, (Universe.load_loading hl).2⟩
  have hstore := (Universe.lasting_true.growing.ofUniverse ⟨hclosed, trivial⟩ hv).coherent
  refine ⟨hstore.self_stands (ofUniverse_home hclosed hv), rfl, fun hload a depth ha hplace deeds => ?_⟩
  have hwritable : v.Writable := by
    rcases hfrom with rfl | ⟨hdir, hl⟩
    · exact Universe.empty_writable
    · exact hload v hdir hl
  have hlasts := Universe.lasting_writable.growing.ofUniverse ⟨hclosed, hwritable⟩ hv
  exact Agent.stands_after Universe.lasting_writable (fun h => h) hlasts ha hplace s.context deeds

/-- An agent names two nodes and goes to the first one; from there it goes to the other one, deletes the first one,
and fails; last it jumps where there is nothing. -/
def erring : List Agent.Deed := [
  .run (.list [.sym "progn", .list [.sym "def", .sym "x", .int 1], .list [.sym "def", .sym "y", .int 2],
    .list [.sym "jump", .sym "x"]]),
  .run (.list [.sym "progn", .list [.sym "jump", .sym "y"], .list [.sym "delete", .sym "x"],
    .list [.sym "car", .sym "y"]]),
  .jump (.node ⟨2, 9⟩)]

/-- The first node is there again, with the agent at it. -/
theorem erring_stands : ∃ s f' u place, start .default "" ∅ = .ok s f' ∧
    erring.foldl (Agent.Deed.done s.context) (s.store, s.agent) = (u, s.agent.move place) ∧
    place.location = .node ⟨2, 1⟩ ∧ place.Stands u ∧
    ∃ effects, Eval.describe (.start u place) = .ok ⟨⟩ { Progress.start u place with effects } := by
  have hrun : (match start .default "" ∅ with
      | .ok s _ =>
        (erring.foldl (Agent.Deed.done s.context) (s.store, s.agent)).2.state.place.location.same (.node ⟨2, 1⟩)
      | .error .. => false) = true := by decide +kernel
  cases hs : start .default "" ∅ with
  | error fault f' =>
    rw [hs] at hrun
    cases hrun
  | ok s f' =>
    simp only [hs] at hrun
    have hagents := agent_stands hs
    have hload : ∀ v, Config.default.snapshotDir.isSome → Universe.load "" ∅ = .ok v → v.Writable :=
      fun _ hdir => absurd hdir (by decide)
    obtain ⟨u, place, hdone, hwork⟩ := hagents.others hload s.agent _ hagents.interpreter hagents.home erring
    obtain ⟨hstands, -, effects, htold⟩ := hwork (.start u place) (.inl rfl)
    refine ⟨s, f', u, place, rfl, hdone, ?_, hstands, effects, htold⟩
    obtain ⟨n, hloc, -⟩ := hstands
    have hloc : place.location = .node n := hloc
    rw [hdone] at hrun
    have hsame : place.location.same (.node ⟨2, 1⟩) = true := hrun
    rw [hloc, Structure.same, beq_iff_eq] at hsame
    rw [hloc, hsame]

/-- The record of an environment with a node beyond the handles that are given out, and with a triple of it. -/
def distantFact : Plain := .object [("format", .text Environment.recordFormat), ("version", .int 1),
  ("id", .int 1), ("next", .int (Decimal.firstTooLong + 1)),
  ("nodes", .list [.object [("id", .int 0)], .object [("id", .int Decimal.firstTooLong)]]),
  ("triples", .list [.object [("id", .int 1), ("s", .int 0), ("p", .int 0), ("o", .int Decimal.firstTooLong)]])]

/-- Once that environment has been taken in, as loading does, an agent that jumps to the other node of it is at a
live node, but cannot have described where it is. -/
theorem distant_fact_untold : ∃ e v s, Environment.fromRecord distantFact = .ok e ∧
    Universe.attach e (Universe.empty.evolved [.operate 0 (.createNode none none)]) = .ok ⟨⟩ v ∧
    ofUniverse .default v = .ok s ∧ s.store.resolves ⟨1, 0⟩ = true ∧
    ∃ place f p, Agent.Deed.done s.context (s.store, s.agent) (.jump (.node ⟨1, 0⟩)) = (s.store, s.agent.move place) ∧
      place.location.same (.node ⟨1, 0⟩) = true ∧ Eval.describe (.start s.store place) = .error f p ∧
      f.kind = .misuse := by
  have hrun : ((Environment.fromRecord distantFact).toOption.map fun e =>
      passes (Universe.attach e) (Universe.empty.evolved [.operate 0 (.createNode none none)]) fun _ v =>
        match ofUniverse .default v with
        | .error _ => false
        | .ok s => s.store.resolves ⟨1, 0⟩ &&
          match s.store.jump (.node ⟨1, 0⟩) with
          | .error _ => false
          | .ok place => place.location.same (.node ⟨1, 0⟩) &&
            fails Eval.describe (.start s.store place) fun f => f.kind == .misuse) = some true := by
    decide +kernel
  cases he : Environment.fromRecord distantFact with
  | error fault =>
    rw [he] at hrun
    cases hrun
  | ok e =>
  rw [he] at hrun
  obtain ⟨_, v, hv, hrun⟩ := exists_of_passes (Option.some.inj hrun)
  cases hs : ofUniverse .default v with
  | error fault =>
    rw [hs] at hrun
    cases hrun
  | ok s =>
  simp only [hs, Bool.and_eq_true] at hrun
  obtain ⟨hlive, hrun⟩ := hrun
  cases hjump : s.store.jump (.node ⟨1, 0⟩) with
  | error fault =>
    rw [hjump] at hrun
    cases hrun
  | ok place =>
    simp only [hjump, Bool.and_eq_true] at hrun
    obtain ⟨f, p, hf, hkind⟩ := exists_of_fails hrun.2
    refine ⟨e, v, s, rfl, hv, hs, hlive, place, f, p, ?_, hrun.1, hf, by simpa using hkind⟩
    simp only [Agent.Deed.done, Agent.after_jump, hjump]

end Session

end GraphLisp
