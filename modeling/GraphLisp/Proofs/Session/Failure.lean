import GraphLisp.Proofs.Universe.Integrity
/-!
# Failed runs leave no trace

However a run fails, rolling back leads to the universe it started from, with the same tables in
every environment and the same references between them; only the counters of handles may have moved
on (`Session.failed_run_leaves_no_trace`). The names of triples are the one thing that rolling back
does not bring back, and in a session no triple has a name. What is done to a node that cannot be put in words
is not recorded and stays (`Session.distant_set_stays`); such a node can only have come from a file.
-/

namespace GraphLisp

open Std

/-- The second environment is the first one with its counter moved on, if anything. -/
def Environment.SameButCounter (e e' : Environment) : Prop :=
  ∃ next, e.nodes.next ≤ next ∧ e' = { e with nodes.next := next }

namespace Universe

/-- The second universe is the first one with counters moved on, if anything. -/
structure SameButCounters (u v : Universe) : Prop where
  references : v.references = u.references
  heirs : v.heirs = u.heirs
  members : ∀ id, id ∈ v.members ↔ id ∈ u.members
  each : ∀ (id : Int) (e e' : Environment), u.members[id]? = some e → v.members[id]? = some e' →
    e.SameButCounter e'

/-- If no triple has a name, what is restored is the same. -/
theorem Restored.sameButCounters {u v : Universe} (hu : u.Coherent) (hn : u.Unnamed)
    (h : u.Restored v) : u.SameButCounters v where
  references := by
    refine h.coherent.references_tight.ext hu.references_tight fun t n => ?_
    rw [h.coherent.references, hu.references, h.mentions_iff]
  heirs := h.coherent.heirs.trans hu.heirs.symm
  members := h.members
  each id e e' he he' := by
    have hr := h.each id e e' he he'
    refine ⟨e'.nodes.next, hr.next, ?_⟩
    exact (hu.locale he).eq_of_contents hr.coherent hr.id hr.pins (hr.contents.eq (hn id e he))

end Universe

/-- What a run absorbs is reported. -/
theorem Execution.eq_of_absorb {names : Names} {fault : Fault} {x : Execution} (h : absorb names fault = .ok x) :
    x = .ofFault names fault := by
  unfold absorb at h
  split at h
  · cases h
  · split at h
    · exact (Except.ok.inj h).symm
    · cases h

/-- A run of an agent whose evaluation fails, in a session whose universe was changed by nothing but turns of agents,
and where all nodes that were loaded can be put in words: undoing what its journal recorded succeeds and leads to the
universe before the run, but for counters; this is the universe that the run leaves, the agent is the one it was, and
the failure is reported, though not on the standard output, or passed on. -/
theorem Session.failed_run_leaves_no_trace {config : Config} {label : String} {f f' : Folder}
    {s : Session} (hs : Session.start config label f = .ok s f')
    (hload : ∀ u, config.snapshotDir.isSome → Universe.load label f = .ok u → u.Writable) (ts : List Turn) (t : Turn)
    {fault : Fault} {p : Progress} (hf : t.eval s.context (s.played ts) = .error fault p) :
    ∃ v, p.journal.rollback Evaluator.undo p.store = .ok () ([], v) ∧
      (s.played ts).SameButCounters v ∧
      t.agent.interpreter.evaluate s.context t.state t.program (s.played ts) = .error fault v ∧
      Ends (Agent.run s.context t.program) (s.played ts, t.agent)
        (fun x left => left = (v, t.agent) ∧ Execution.absorb v.names fault.told = .ok x ∧
          x = .ofFault v.names fault.told ∧ ∀ effect ∈ x.effects, effect.channel ≠ .stdout)
        (fun told left => left = (v, t.agent) ∧ Execution.absorb v.names fault.told = .error told) := by
  have hlasting := Universe.lasting_unnamed.and Universe.lasting_writable
  have hlasts := Session.played_lasts hlasting And.right
    (Session.start_lasts hlasting ⟨Universe.empty_loading.unnamed, Universe.empty_writable⟩
      (fun hdir hl => ⟨(Universe.load_loading hl).1.unnamed, hload _ hdir hl⟩) hs) ts
  obtain ⟨v, hv, hr, hstep⟩ := Evaluator.step_of_error ⟨hlasts.toCoherentClosed, hlasts.prop.2⟩ hf
  refine ⟨v, hv, hr.sameButCounters hlasts.coherent hlasts.prop.1, hstep, ?_⟩
  have heval : t.agent.interpreter.evaluate s.context t.agent.state t.program (s.played ts) =
    .error fault v := hstep
  unfold Ends Agent.run
  simp only [heval]
  cases hx : Execution.absorb v.names fault.told with
  | error told => exact ⟨rfl, rfl⟩
  | ok x =>
    obtain rfl := Execution.eq_of_absorb hx
    refine ⟨rfl, rfl, rfl, fun effect heffect => ?_⟩
    cases List.mem_singleton.1 heffect
    exact fun h => nomatch h

/-- An agent at home that names a node. -/
def Turn.naming : Turn where
  state := (Agent.spawn 2 (.node ⟨2, selfHandle⟩)).state
  depth := 3
  program := .list [.sym "def", .sym "x", .int 1]

/-- An agent at home that changes a node, names another one, and fails then. -/
def Turn.failing : Turn where
  state := (Agent.spawn 2 (.node ⟨2, selfHandle⟩)).state
  depth := 3
  program := .list [.sym "progn", .list [.sym "set!", .sym "x", .int 2],
    .list [.sym "def", .sym "y", .sym "x"], .list [.sym "car", .sym "y"]]

theorem Session.failing_run_leaves_no_trace :
    ∃ s f' fault p v, Session.start .default "" ∅ = .ok s f' ∧
      Turn.failing.eval s.context (s.played [.naming]) = .error fault p ∧ p.journal.length = 2 ∧
      p.journal.rollback Evaluator.undo p.store = .ok () ([], v) ∧
      (s.played [.naming]).SameButCounters v := by
  have hrun : (match Session.start .default "" ∅ with
      | .ok s _ =>
        match Turn.failing.eval s.context (s.played [.naming]) with
        | .error _ p => p.journal.length
        | .ok .. => 0
      | .error .. => 0) = 2 := by decide +kernel
  cases hs : Session.start .default "" ∅ with
  | error fault f' => simp [hs] at hrun
  | ok s f' =>
    simp only [hs] at hrun
    cases hf : Turn.failing.eval s.context (s.played [.naming]) with
    | ok value p => simp [hf] at hrun
    | error fault p =>
      obtain ⟨v, hv, hsame, -⟩ := Session.failed_run_leaves_no_trace hs (fun _ hdir => absurd hdir (by decide)) [.naming]
        .failing hf
      exact ⟨s, f', fault, p, v, rfl, hf, by simpa only [hf] using hrun, hv, hsame⟩

/-- The record of an environment with a node beyond the handles that are given out, which has a name and a number. -/
def Environment.outsized : Plain := .object [("format", .text recordFormat), ("version", .int 1),
  ("id", .int 1), ("next", .int (Decimal.firstTooLong + 1)), ("nodes", .list [.object [("id", .int 0)],
    .object [("id", .int Decimal.firstTooLong), ("name", .text "big"), ("structure", (Structure.int 1).encode)]])]

/-- An agent in that environment that gives the node another number. -/
def Turn.enlarging : Turn where
  state := (Agent.spawn 1 (.node ⟨1, selfHandle⟩)).state
  depth := 3
  program := .list [.sym "set!", .sym "big", .int 2]

/-- Once that environment has been taken in, as loading does, the node has the other number after the agent has failed
to change it: nothing writes its handle, so that the change is not recorded. -/
theorem Session.distant_set_stays : ∃ e v s fault p before left,
    Environment.fromRecord Environment.outsized = .ok e ∧
    Universe.attach e (Universe.empty.evolved [.operate 0 (.createNode none none)]) = .ok ⟨⟩ v ∧
    ofUniverse .default v = .ok s ∧ Turn.enlarging.eval s.context s.store = .error fault p ∧ p.journal.length = 0 ∧
    s.store.members[(1 : Int)]? = some before ∧ (s.played [.enlarging]).members[(1 : Int)]? = some left ∧
    (before.getStructure (.node ⟨1, Decimal.firstTooLong⟩)).toOption.map (·.print .none) = some "1" ∧
    (left.getStructure (.node ⟨1, Decimal.firstTooLong⟩)).toOption.map (·.print .none) = some "2" := by
  have hrun : ((Environment.fromRecord Environment.outsized).toOption.map fun e =>
      passes (Universe.attach e) (Universe.empty.evolved [.operate 0 (.createNode none none)]) fun _ v =>
        (ofUniverse .default v).toOption.any fun s =>
          s.store.members[(1 : Int)]?.any fun before => (s.played [.enlarging]).members[(1 : Int)]?.any fun left =>
            (match Turn.enlarging.eval s.context s.store with
              | .error _ p => decide (p.journal.length = 0)
              | .ok .. => false) &&
            decide ((before.getStructure (.node ⟨1, Decimal.firstTooLong⟩)).toOption.map (·.print .none) = some "1" ∧
              (left.getStructure (.node ⟨1, Decimal.firstTooLong⟩)).toOption.map (·.print .none) = some "2")) =
      some true := by
    decide +kernel
  obtain ⟨e, he, hrun⟩ := Option.map_eq_some_iff.1 hrun
  obtain ⟨_, v, hv, hrun⟩ := exists_of_passes hrun
  obtain ⟨s, hs, hrun⟩ := (Option.any_eq_true _ _).1 hrun
  obtain ⟨before, hbefore, hrun⟩ := (Option.any_eq_true _ _).1 hrun
  obtain ⟨left, hleft, hrun⟩ := (Option.any_eq_true _ _).1 hrun
  obtain ⟨heval, hrun⟩ := Bool.and_eq_true_iff.1 hrun
  cases hf : Turn.enlarging.eval s.context s.store with
  | ok value p =>
    rw [hf] at heval
    cases heval
  | error fault p =>
    rw [hf] at heval
    exact ⟨e, v, s, fault, p, before, left, ok_of_toOption he, hv, ok_of_toOption hs, hf, of_decide_eq_true heval,
      hbefore, hleft, of_decide_eq_true hrun⟩

end GraphLisp
