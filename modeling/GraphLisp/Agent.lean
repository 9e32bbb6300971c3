import GraphLisp.Evaluator.Basic
/-!
# Agents

An agent stands at a place, shadows names with an overlay, and has an interpreter that evaluates
for it. A run that fails leaves the agent as it was and reports the failure; fatal failures are
not reported but passed on.
-/

namespace GraphLisp

/-- What an interpreter may consult: where the agent is, and what names mean to it. -/
structure AgentState where
  place : Place
  overlay : Level Structure
  scope : Scope Structure

/-- Something that evaluates structures for an agent. -/
structure Interpreter where
  name : String
  evaluate : Context → AgentState → Structure → Universe.Change Outcome

/-- The interpreter that evaluates by the rules of the language. -/
def Interpreter.standard : Interpreter where
  name := "Evaluator"
  evaluate context state s :=
    Evaluator.step Evaluator.maxDepth ⟨context, state.overlay, s⟩ state.place state.scope

/-- An agent of some universe and context. -/
structure Agent where
  state : AgentState
  interpreter : Interpreter

/-- What a run came to. -/
inductive Execution where
  | success (value : Structure) (effects : List Effect)
  | failure (fault : Fault) (offender : Option String) (effects : List Effect)

namespace Execution

/-- A failure in words: its kind, its message, and the printed structure that it blames. -/
def failureText (kind : Option Kind) (message offender : Option String) : String :=
  let words := (message.filter (· != "")).getD "Unknown error"
  (kind.map Kind.word).getD "Error" ++ ": " ++ words ++
    (offender.map fun o => " (at " ++ o ++ ")").getD ""

/-- The failure of a run in words; nothing for a success. -/
def formatError : Execution → String
  | .success _ _ => ""
  | .failure fault offender _ => failureText (some fault.kind) (some fault.message) offender

/-- What a run had to say. -/
def effects : Execution → List Effect
  | .success _ effects | .failure _ _ effects => effects

/-- Whether a run succeeded. -/
def isSuccess : Execution → Bool
  | .success _ _ => true
  | .failure _ _ _ => false

/-- A failed run, which says on the error channel what failed. -/
def ofFault (names : Names) (fault : Fault) : Execution :=
  let offender := fault.offender.map fun s => s.print names
  let text := failureText (some fault.kind) (some fault.message) offender
  .failure fault offender [⟨.stderr, text⟩]

/-- What a run makes of a failure. Fatal failures, and those that are none of the store, the snapshots and the
programs, are passed on; so is that a number in the structure to blame is too long to be printed. -/
def absorb (names : Names) (fault : Fault) : Except Fault Execution :=
  if fault.kind.isFatal || !fault.kind.isDomain then .error fault
  else if fault.offender.all (·.isPrintable names) then .ok (.ofFault names fault)
  else .error (.numeral none)

end Execution

namespace Agent

/-- An agent in an environment, as a rule at a node of it. -/
def spawn (env : Int) (location : Structure) : Agent :=
  ⟨⟨⟨env, location⟩, [], []⟩, .standard⟩

/-- The agent as messages show it. -/
def shown (a : Agent) : String :=
  s!"<Agent env={a.state.place.env} at=" ++ a.state.place.location.shown ++ ">"

/-- The agent somewhere else. -/
def move (a : Agent) (place : Place) : Agent := { a with state.place := place }

/-- The agent with a name bound in its overlay. -/
def define (a : Agent) (name : String) (value : Structure) : Agent :=
  { a with state.overlay := Level.bind name value a.state.overlay }

/-- Something that an agent does to itself and to its universe. -/
abbrev Act := EStateM Fault (Universe × Agent)

/-- Runs a structure. -/
def run (context : Context) (s : Structure) : Act Execution := fun (u, a) =>
  match a.interpreter.evaluate context a.state s u with
  | .ok outcome u => .ok (.success outcome.value outcome.effects) (u, a.move outcome.place)
  | .error fault u =>
    match Execution.absorb u.names fault.told with
    | .ok e => .ok e (u, a)
    | .error fault => .error fault (u, a)

/-- Runs structures in turn up to the first failure. -/
def runAll (context : Context) : List Structure → Act (List Execution)
  | [] => return []
  | s :: rest => do
    let e ← run context s
    if e.isSuccess then return e :: (← runAll context rest) else return [e]

/-- Moves the agent, and returns its new location. -/
def jump (target : Structure) : Act Structure := do
  let (u, a) ← get
  match u.jump target with
  | .ok place =>
    set (u, a.move place)
    return place.location
  | .error fault => throw fault

end Agent

end GraphLisp
