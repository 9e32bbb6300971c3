import GraphLisp.Proofs.Session.Likeness
import GraphLisp.Proofs.Session.Turns
/-!
# Copies with flattened scopes

A snapshot keeps the visible bindings of a closure in one level. No program can tell: on two
universes that are equal when flattened, agents whose overlays are, too, get the same answers to the
same commands, one after the other, and leave universes that are equal when flattened
(`Company.copies_answer_alike`). The second universe may be the first one flattened, as it comes
back from its snapshots, or anything that became of it since.
-/

namespace GraphLisp

/-- A universe and the agents in it, by number. -/
structure Company where
  store : Universe
  states : Nat → AgentState

/-- One of the agents is to evaluate a structure, with at most so many evaluations inside each
other. -/
structure Command where
  agent : Nat
  depth : Nat
  program : Structure

namespace Company

/-- The turn that a command gives to an agent. -/
def turn (w : Company) (m : Command) : Turn := ⟨w.states m.agent, m.depth, m.program⟩

/-- How the evaluation of a command ends. -/
def answer (c : Context) (w : Company) (m : Command) : EStateM.Result Fault Universe Outcome :=
  (w.turn m).agent.interpreter.evaluate c (w.states m.agent) m.program w.store

/-- The company after a command. -/
def obey (c : Context) (w : Company) (m : Command) : Company :=
  let left := after (Agent.run c m.program) (w.store, (w.turn m).agent)
  ⟨left.1, Function.update w.states m.agent left.2.state⟩

/-- How the evaluations of commands end, each after the ones before it. -/
def answers (c : Context) : Company → List Command → List (EStateM.Result Fault Universe Outcome)
  | _, [] => []
  | w, m :: ms => answer c w m :: answers c (obey c w m) ms

/-- The company after commands. -/
def obeyed (c : Context) (w : Company) (ms : List Command) : Company := ms.foldl (obey c) w

/-- Both universes are equal when flattened, and both agents of a number are at one place, with
overlays and scopes that are equal when flattened. Every level binds each name once. -/
structure Copies (w w' : Company) : Prop where
  same : w.store.flattened = w'.store.flattened
  left : w.store.Sound true
  right : w'.store.Sound true
  states : ∀ i, (w.states i).Like true (w'.states i)

end Company

/-- The same agent is to evaluate a structure that is equal when flattened. -/
structure Command.Copies (m m' : Command) : Prop where
  agent : m.agent = m'.agent
  depth : m.depth = m'.depth
  program : m.program.Like true m'.program

/-- Two evaluations both succeed, with values that are equal when flattened, the same effects and
the same place, or both fail, with the same kind and the same wording, which can be put in words for
both or neither, and blame structures that are equal when flattened. Either way the universes that
they leave are equal when flattened. -/
inductive EndsAlike : EStateM.Result Fault Universe Outcome → EStateM.Result Fault Universe Outcome → Prop where
  | ok {o o' : Outcome} {u v : Universe} (value : o.value.flattened = o'.value.flattened)
    (effects : o.effects = o'.effects) (place : o.place = o'.place) (moved : o.moved = o'.moved)
    (store : u.flattened = v.flattened) : EndsAlike (.ok o u) (.ok o' v)
  | error {f g : Fault} {u v : Universe} (kind : f.kind = g.kind) (message : f.message = g.message)
    (words : f.isWritable = g.isWritable)
    (offender : f.offender.map Structure.flattened = g.offender.map Structure.flattened)
    (store : u.flattened = v.flattened) : EndsAlike (.error f u) (.error g v)

theorem EndsAlike.of_agreed {x y : EStateM.Result Fault Universe Outcome}
    (h : Agreed (Universe.Like true) (Outcome.Like true) x y) : EndsAlike x y := by
  cases h with
  | ok ho hu => exact .ok ho.value.same ho.effects ho.place ho.moved ((Universe.like_iff _ _).1 hu).1
  | @error f g _ _ hf hu =>
    have hkind : f.flattened.kind = g.flattened.kind := congrArg Fault.kind hf
    have hmessage : f.flattened.message = g.flattened.message := congrArg Fault.message hf
    simp only [Fault.kind, Fault.message, Fault.report_flattened] at hkind hmessage
    refine .error hkind hmessage ?_ ?_ ((Universe.like_iff _ _).1 hu).1
    · rw [← Fault.isWritable_flattened f, hf, Fault.isWritable_flattened]
    · rw [← Fault.offender_flattened, hf, Fault.offender_flattened]

namespace Company

variable {c : Context} {w w' : Company}

theorem answer_agreed (hc : ∀ r s, c.player? r = some s → s.Sound true) (h : w.Copies w')
    {m m' : Command} (hm : m.Copies m') :
    Agreed (Universe.Like true) (Outcome.Like true) (w.answer c m) (w'.answer c m') := by
  obtain ⟨i, depth, program⟩ := m
  obtain ⟨_, _, program'⟩ := m'
  obtain ⟨rfl, rfl, hprogram⟩ := hm
  exact Evaluator.step_agree hc (h.states i) depth hprogram _ _
    ((Universe.like_iff _ _).2 ⟨h.same, h.left, h.right⟩)

theorem update_likes {states states' : Nat → AgentState} (h : ∀ i, (states i).Like true (states' i))
    (i : Nat) {a b : AgentState} (hab : a.Like true b) (k : Nat) :
    (Function.update states i a k).Like true (Function.update states' i b k) := by
  by_cases hk : k = i
  · subst hk; rwa [Function.update_self, Function.update_self]
  · rw [Function.update_of_ne hk, Function.update_of_ne hk]
    exact h k

/-- An agent that succeeds moves, and one that fails does nothing. -/
theorem obey_eq (c : Context) (w : Company) (m : Command) :
    w.obey c m =
      match w.answer c m with
      | .ok o u => ⟨u, Function.update w.states m.agent { w.states m.agent with place := o.place }⟩
      | .error _ u => ⟨u, w.states⟩ := by
  unfold obey answer
  rw [Agent.after_run]
  have hstate : (w.turn m).agent.state = w.states m.agent := rfl
  rw [hstate]
  cases (w.turn m).agent.interpreter.evaluate c (w.states m.agent) m.program w.store with
  | ok o u => rfl
  | error fault u =>
    dsimp only
    rw [hstate, Function.update_eq_self]

/-- Copies are copies again after the same command. -/
theorem obey_copies (hc : ∀ r s, c.player? r = some s → s.Sound true) (h : w.Copies w')
    {m m' : Command} (hm : m.Copies m') : (w.obey c m).Copies (w'.obey c m') := by
  have hanswer := answer_agreed hc h hm
  rw [obey_eq, obey_eq, ← hm.agent]
  generalize w.answer c m = x at hanswer ⊢
  generalize w'.answer c m' = y at hanswer ⊢
  cases hanswer with
  | ok ho hu =>
    have ⟨hsame, hleft, hright⟩ := (Universe.like_iff _ _).1 hu
    have hstate := h.states m.agent
    exact ⟨hsame, hleft, hright, update_likes h.states m.agent
      ⟨ho.place, ho.sound, hstate.overlay, hstate.scope⟩⟩
  | error _ hu =>
    have ⟨hsame, hleft, hright⟩ := (Universe.like_iff _ _).1 hu
    exact ⟨hsame, hleft, hright, h.states⟩

/-- Whatever the agents of two copies are told, they give the same answers, and the companies stay
copies. -/
theorem copies_answer_alike (hc : ∀ r s, c.player? r = some s → s.Sound true) (h : w.Copies w')
    {ms ms' : List Command} (hms : List.Forall₂ Command.Copies ms ms') :
    List.Forall₂ EndsAlike (w.answers c ms) (w'.answers c ms') ∧
      (w.obeyed c ms).Copies (w'.obeyed c ms') := by
  induction hms generalizing w w' with
  | nil => exact ⟨.nil, h⟩
  | cons hm _ ih =>
    have hrest := ih (obey_copies hc h hm)
    exact ⟨.cons (.of_agreed (answer_agreed hc h hm)) hrest.1, hrest.2⟩

/-- The agents of a session, all of them at home. -/
def ofSession (s : Session) : Company := ⟨s.store, fun _ => s.agent.state⟩

/-- The company with everything in its universe flattened. -/
def flattened (w : Company) : Company := { w with store := w.store.flattened }

theorem copies_flattened (h : w.Copies w) : w.Copies w.flattened :=
  have ⟨hsame, hleft, hright⟩ := (Universe.like_iff _ _).1 (Universe.like_flattened h.left)
  ⟨hsame, hleft, hright, h.states⟩

/-- An agent names a closure whose scope has two levels. -/
def naming : Command where
  agent := 0
  depth := 9
  program := .list [.sym "def", .sym "adder", .list [.sym "let", .list [.list [.sym "x", .int 1]],
    .list [.sym "let", .list [.list [.sym "y", .int 2]],
      .list [.sym "lambda", .list [.sym "z"], .list [.sym "+", .sym "x", .sym "y", .sym "z"]]]]]

/-- Another agent calls the closure. -/
def calling : Command where
  agent := 1
  depth := 9
  program := .list [.sym "adder", .int 4]

theorem flattened_closure_answers_alike :
    ∃ s : Session, Session.ofUniverse .default .empty = .ok s ∧
      let w := (ofSession s).obey s.context naming
      (w.answers s.context [calling]).map (fun
        | .ok o _ => o.value.same (.int 7)
        | .error .. => false) = [true] ∧
      List.Forall₂ EndsAlike (w.answers s.context [calling]) (w.flattened.answers s.context [calling]) := by
  have hrun : (Session.ofUniverse .default .empty).toOption.map (fun s =>
      (((ofSession s).obey s.context naming).answers s.context [calling]).map fun
        | .ok o _ => o.value.same (.int 7)
        | .error .. => false) = some [true] := by decide +kernel
  have hlike : ∀ s : Structure, s.Sound true → s.Like true s := fun _ => .refl
  cases hs : Session.ofUniverse .default .empty with
  | error fault =>
    rw [hs] at hrun
    cases hrun
  | ok s =>
    rw [hs] at hrun
    obtain ⟨hsound, hnodes⟩ := Session.ofUniverse_sound Universe.empty_sound hs
    have hplayers : ∀ r t, s.context.player? r = some t → t.Sound true := fun r t => hnodes.sound r t
    have hstart : (ofSession s).Copies (ofSession s) := ⟨rfl, hsound, hsound, fun _ => s.agent_likes⟩
    have hnaming : Command.Copies naming naming := ⟨rfl, rfl, hlike _ (by repeat' constructor)⟩
    have hcalling : Command.Copies calling calling := ⟨rfl, rfl, hlike _ (by repeat' constructor)⟩
    have hw := obey_copies hplayers hstart hnaming
    refine ⟨s, rfl, Option.some.inj hrun, ?_⟩
    exact (copies_answer_alike hplayers (copies_flattened hw) (.cons hcalling .nil)).1

end Company

end GraphLisp
