import GraphLisp.Proofs.Context
import GraphLisp.Proofs.Evaluator.Step
/-!
# Turns

A session's universe after any agents have run anything in any order: `Session.played`. Whatever
lasts holds of it, however the session was started, as long as every node can be put in words
(`Session.played_lasts`).
-/

namespace GraphLisp

/-- The interpreter that evaluates by the rules of the language, with another bound on how many
evaluations may be inside each other. -/
def Interpreter.bounded (depth : Nat) : Interpreter where
  name := "Evaluator"
  evaluate context state s :=
    Evaluator.step depth ⟨context, state.overlay, s⟩ state.place state.scope

example : Interpreter.standard = .bounded Evaluator.maxDepth := rfl

/-- A turn of an agent: any agent, wherever it is by now, with a structure to run. -/
structure Turn where
  state : AgentState
  depth : Nat
  program : Structure

namespace Turn

/-- The agent whose turn it is. -/
def agent (t : Turn) : Agent := ⟨t.state, .bounded t.depth⟩

/-- What the agent evaluates. -/
def eval (t : Turn) (c : Context) (u : Universe) : EStateM.Result Fault Progress Structure :=
  Evaluator.eval ⟨c, t.state.overlay, t.program⟩ t.depth t.program t.state.scope
    (.start u t.state.place)

/-- The universe that a turn leaves, whether or not it fails. -/
def play (c : Context) (u : Universe) (t : Turn) : Universe :=
  (after (Agent.run c t.program) (u, t.agent)).1

end Turn

/-- The universe of a session after turns. -/
def Session.played (s : Session) (ts : List Turn) : Universe := ts.foldl (Turn.play s.context) s.store

/-- A run leaves the universe that its interpreter leaves, and the agent has moved if it succeeds. -/
theorem Agent.after_run (c : Context) (a : Agent) (program : Structure) (u : Universe) :
    after (run c program) (u, a) =
      match a.interpreter.evaluate c a.state program u with
      | .ok outcome v => (v, a.move outcome.place)
      | .error _ v => (v, a) := by
  unfold after Agent.run
  dsimp only
  cases a.interpreter.evaluate c a.state program u with
  | ok outcome v => rfl
  | error fault v =>
    dsimp only
    cases Execution.absorb v.names fault.told <;> rfl

/-- A turn leaves the universe that its interpreter leaves. -/
theorem Turn.play_eq (c : Context) (u : Universe) (t : Turn) :
    t.play c u = after (t.agent.interpreter.evaluate c t.state t.program) u := by
  rw [play, Agent.after_run]
  unfold after
  dsimp only [agent]
  cases Interpreter.evaluate _ c t.state t.program u <;> rfl

/-- What a turn has come to when its evaluation ends, before anything is taken back. -/
def Turn.reached (t : Turn) (c : Context) (u : Universe) : Progress :=
  Evaluator.reached t.depth ⟨c, t.state.overlay, t.program⟩ t.state.place t.state.scope u

/-- A turn that fails is taken back to what is left of some moment between its alterations, if not to its start, and
handles that were given out stay given out. -/
theorem Turn.play_leads (t : Turn) (c : Context) {u : Universe} (hu : u.Coherent) :
    ∃ J K u₁, (t.reached c u).journal = J.labelled ∧ u.Alterations J (t.reached c u).store ∧ K <:+ J ∧
      u.Alterations K u₁ ∧ u₁.Leaves (t.play c u) ∧
      ∀ id, (t.play c u).counter id = (t.reached c u).store.counter id := by
  rw [Turn.play_eq]
  exact Evaluator.step_leads t.depth ⟨c, t.state.overlay, t.program⟩ t.state.place t.state.scope hu

/-- Whatever turns do, the environments stay, and their counters do not go back. -/
theorem Session.played_advances {s : Session} (hs : s.store.Coherent) (ts : List Turn) :
    (s.played ts).Coherent ∧ (∀ id, id ∈ (s.played ts).members ↔ id ∈ s.store.members) ∧
      s.store.Advances (s.played ts) := by
  unfold Session.played
  generalize s.store = u at hs
  induction ts generalizing u with
  | nil => exact ⟨hs, fun _ => Iff.rfl, .refl u⟩
  | cons t ts ih =>
    obtain ⟨J, K, u₁, -, -, -, h, hleft, -⟩ := t.play_leads s.context hs
    obtain ⟨hcoherent, hmembers, hadvances⟩ := ih _ hleft.coherent
    exact ⟨hcoherent, fun id => (hmembers id).trans ((hleft.members id).trans (h.members_iff id)),
      (h.advances.trans hleft.advances).trans hadvances⟩

section
variable {P : Universe → Prop}

theorem Turn.play_lasts (hP : Universe.Lasting P) (hw : ∀ {u}, P u → u.Writable) (c : Context) (t : Turn)
    {u : Universe} (hu : Universe.CoherentClosedWith P u) : Universe.CoherentClosedWith P (t.play c u) := by
  rw [Turn.play_eq]
  exact (Evaluator.step_preserves hP hw u hu).after

/-- A session of a universe that was found in a folder. -/
def Session.opened (config : Config) (u : Universe) : Universe.InFolder Session :=
  match ofUniverse config u with
  | .ok s => return s
  | .error fault => throw fault

theorem Session.start_eq (config : Config) (label : String) :
    start config label =
      (if config.snapshotDir.isSome then Universe.start label config.reset else pure .empty) >>=
        opened config := by
  unfold start
  split <;> rfl

/-- A session is one of the empty universe, or of a universe that was found in the folder. -/
theorem Session.start_from {config : Config} {label : String} {f f' : Folder} {s : Session}
    (h : Session.start config label f = .ok s f') : ∃ u, ofUniverse config u = .ok s ∧
      (u = .empty ∨ config.snapshotDir.isSome ∧ Universe.load label f = .ok u) := by
  have hfound : Ends (if config.snapshotDir.isSome then Universe.start label config.reset else pure .empty) f
      (fun u _ => u = .empty ∨ config.snapshotDir.isSome ∧ Universe.load label f = .ok u) fun _ _ => True := by
    by_cases hdir : config.snapshotDir.isSome
    · rw [if_pos hdir]
      unfold Ends Universe.start
      cases config.reset with
      | true => exact .inl rfl
      | false =>
        cases hl : Universe.load label f with
        | ok u => simpa [hl] using .inr hdir
        | error fault => simp
    · rw [if_neg hdir]
      exact .inl rfl
  refine Ends.of_ok (Q := fun s _ => ∃ u, ofUniverse config u = .ok s ∧
    (u = .empty ∨ config.snapshotDir.isSome ∧ Universe.load label f = .ok u)) (E := fun _ _ => True) ?_ h
  rw [start_eq]
  refine hfound.bind (fun u g hu => ?_) fun _ _ h => h
  unfold opened
  split
  · next s hs => exact ⟨u, hs, hu⟩
  · trivial

theorem Session.start_bootstrapped {config : Config} {label : String} {f f' : Folder} {s : Session}
    (h : Session.start config label f = .ok s f') : s.context.Bootstrapped := by
  obtain ⟨u, hs, -⟩ := start_from h
  exact ofUniverse_bootstrapped hs

/-- Starting a session gives what lasts, if it holds of the empty universe and of what is loaded. -/
theorem Session.start_lasts (hP : Universe.Lasting P) (hempty : P .empty) {config : Config} {label : String}
    {f f' : Folder} {s : Session}
    (hload : ∀ {u : Universe}, config.snapshotDir.isSome → Universe.load label f = .ok u → P u)
    (h : Session.start config label f = .ok s f') : Universe.CoherentClosedWith P s.store := by
  obtain ⟨u, hs, rfl | ⟨hdir, hl⟩⟩ := start_from h
  · exact hP.growing.ofUniverse ⟨Universe.empty_coherentClosed, hempty⟩ hs
  · have hu := Universe.load_loading hl
    exact hP.growing.ofUniverse ⟨⟨hu.1.coherent, hu.2⟩, hload hdir hl⟩ hs

theorem Session.played_lasts {s : Session} (hP : Universe.Lasting P) (hw : ∀ {u}, P u → u.Writable)
    (hs : Universe.CoherentClosedWith P s.store) (ts : List Turn) : Universe.CoherentClosedWith P (s.played ts) := by
  unfold Session.played
  generalize s.store = u at hs
  induction ts generalizing u with
  | nil => exact hs
  | cons t ts ih => exact ih _ (t.play_lasts hP hw s.context hs)

end

end GraphLisp
