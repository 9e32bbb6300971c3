import GraphLisp.Evaluator.Progress
import GraphLisp.Region
/-!
# Special forms

The roles that get their arguments unevaluated. Every form takes the evaluator as an argument, so
that what a form does is settled by what evaluating its parts does. Each change of the store is
recorded right after it was made, and only if something was changed.
-/

namespace GraphLisp.Form

open Eval

/-- How structures are evaluated in a scope. -/
abbrev Evaluate := Structure → Scope Structure → Eval Structure

/-- The wrong number of arguments. -/
def misfit {α : Type} (f : SpecialForm) (expected : Arity) (args : List Structure)
    (form : Structure) : Eval α :=
  throw (.arity f.word expected args.length form)

variable (setting : Setting) (ev : Evaluate)

/-- The node that an argument refers to: a symbol designates the node that it names, and anything
else is evaluated. -/
def designate (s : Structure) (scope : Scope Structure) : Eval Node := do
  let found ← match s with
    | .sym name => resolve setting name scope
    | s => ev s scope
  match found with
  | .node n => return n
  | found => throw (.undesignated found)

/-- Evaluates expressions in turn; the last one gives the value. -/
def body (scope : Scope Structure) : List Structure → Eval Structure
  | [] => return .nil
  | [s] => ev s scope
  | s :: rest => do
    let _ ← ev s scope
    body scope rest

/-! ## Procedures and bindings -/

/-- The names of parameters, each of which may come once. -/
def parameters : List String → List Structure → Except Fault (List String)
  | _, [] => .ok []
  | seen, .sym name :: rest =>
    if name ∈ seen then .error (.repeatedParameter name)
    else do return name :: (← parameters (name :: seen) rest)
  | _, s :: _ => .error (.parameter s)

/-- A procedure that keeps the scope it is made in. Several expressions make one body. -/
def lambda (args : List Structure) (scope : Scope Structure) (form : Structure) :
    Eval Structure := do
  match args with
  | params :: first :: more =>
    let names ← answer (parameters [] (← elements params))
    if more.isEmpty then return .proc names first scope
    else
      let progn ← answer (setting.context.lookup "progn")
      return .proc names (.pair progn (.list (first :: more))) scope
  | args => misfit .lambda (.atLeast 2) args form

/-- The level that the entries of a binding list make. The values are evaluated outside of it. -/
def letLevel (scope : Scope Structure) : Level Structure → List Structure → Eval (Level Structure)
  | level, [] => return level
  | level, .pair a d :: rest => do
    match ← elements (.pair a d) with
    | [.sym name, s] =>
      if (Level.find? level name).isSome then throw (.repeatedLet name)
      let value ← ev s scope
      letLevel scope (level ++ [(name, value)]) rest
    | _ => throw (.letEntry (.pair a d))
  | _, s :: _ => throw (.letEntry s)

/-- Evaluates expressions in a scope with further bindings. -/
def letIn (args : List Structure) (scope : Scope Structure) (form : Structure) :
    Eval Structure := do
  match args with
  | entries :: first :: more =>
    let level ← letLevel ev scope [] (← elements entries)
    body ev (scope.extend level) (first :: more)
  | args => misfit .letIn (.atLeast 2) args form

/-! ## The store -/

/-- Makes a node in the environment at hand. It holds what is given, if that is anything. -/
def make (name : Option String) (content : Structure) : Eval Structure := do
  let env := (← get).place.env
  let n ← within env fun around => Locale.createNode around name content.given?
  record env (.created n)
  return n

/-- Makes a node with a name. -/
def define (args : List Structure) (scope : Scope Structure) (form : Structure) :
    Eval Structure := do
  match args with
  | [.sym name] => make (some name) .nothing
  | [.sym name, s] => make (some name) (← ev s scope)
  | [s] | [s, _] => throw (.defName s)
  | args => misfit .define (.between 1 2) args form

/-- Makes a node without a name. -/
def node (args : List Structure) (scope : Scope Structure) (form : Structure) :
    Eval Structure := do
  match args with
  | [] => make none .nothing
  | [s] => make none (← ev s scope)
  | args => misfit .node (.between 0 1) args form

/-- Replaces the structure of a node. -/
def set (args : List Structure) (scope : Scope Structure) (form : Structure) :
    Eval Structure := do
  match args with
  | [t, s] =>
    let target ← designate setting ev t scope
    let value ← ev s scope
    let previous ← within target.env fun around =>
      Locale.setStructure around target value.given?
    record target.env (.restructured target previous)
    return value
  | args => misfit .set (.exactly 2) args form

/-- Stores a triple in the environment at hand. -/
def tell (args : List Structure) (scope : Scope Structure) (form : Structure) :
    Eval Structure := do
  match args with
  | [a, b, c] =>
    let s ← designate setting ev a scope
    let p ← designate setting ev b scope
    let o ← designate setting ev c scope
    let env := (← get).place.env
    let (n, new) ← within env fun _ => Locale.insertTriple s p o
    if new then record env (.created n)
    return n
  | args => misfit .tell (.exactly 3) args form

/-- A part of a pattern; the node of the placeholder is a wildcard. -/
def patternPart (s : Structure) (scope : Scope Structure) : Eval (Option Structure) := do
  let n ← designate setting ev s scope
  let isWildcard := (setting.context.find? .placeholder).any (·.same n)
  return if isWildcard then none else some n

/-- The nodes of the triples that match a pattern. -/
def ask (args : List Structure) (scope : Scope Structure) (form : Structure) :
    Eval Structure := do
  match args with
  | [a, b, c] =>
    let s ← patternPart setting ev a scope
    let p ← patternPart setting ev b scope
    let o ← patternPart setting ev c scope
    let ts ← answer ((← here).ask s p o)
    return .list (ts.map fun t => .node t.node)
  | args => misfit .ask (.exactly 3) args form

/-- Deletes a node or a triple. The place at hand and the nodes of roles stay. -/
def delete (args : List Structure) (scope : Scope Structure) (form : Structure) :
    Eval Structure := do
  match args with
  | [a] =>
    let target ← designate setting ev a scope
    if (← get).place.location.same target then throw (.currentLocation target)
    if let some r := setting.context.roleOf target then throw (.boundToRole target r.word)
    let e ← environment target.env
    match ← answer (e.tripleOf target) with
    | some _ =>
      let (s, p, o) ← within target.env fun around => Locale.deleteTriple around target
      record target.env (.deletedTriple target s p o)
    | none =>
      let was ← within target.env fun around => Locale.deleteNode around target
      record target.env (.deletedNode target was)
    return .bool true
  | args => misfit .delete (.exactly 1) args form

/-- Makes a stand-in for a node of another environment, or finds it. -/
def importNode (args : List Structure) (scope : Scope Structure) (form : Structure) :
    Eval Structure := do
  match args with
  | [a] =>
    let target ← designate setting ev a scope
    if target.env = (← here).id then return target
    let env := (← get).place.env
    let (n, new) ← within env fun around => Locale.importNode around target
    if new then record env (.created n)
    return n
  | args => misfit .importNode (.exactly 1) args form

/-! ## Places -/

/-- Moves to a node. -/
def jump (args : List Structure) (scope : Scope Structure) (form : Structure) :
    Eval Structure := do
  match args with
  | [a] => moveTo (← designate setting ev a scope)
  | args => misfit .jump (.exactly 1) args form

/-- Moves into an environment. -/
def envJump (args : List Structure) (scope : Scope Structure) (form : Structure) :
    Eval Structure := do
  match args with
  | [a] =>
    let target ← designate setting ev a scope
    if !(← get).store.denotes target then throw (.noEnvironmentHere target)
    moveTo target
  | args => misfit .envJump (.exactly 1) args form

/-- Moves along the first wormhole out of the environment at hand. -/
def followFrom (predicate : Option Node) : Eval Structure := do
  let p ← get
  let source ← answer (p.store.envNode p.place.env)
  match ← answer (p.store.wormholes source (predicate.map .node)) with
  | [] => throw (.noWormhole p.place.env predicate)
  | t :: _ => moveTo t.object

/-- Moves along a wormhole. -/
def follow (args : List Structure) (scope : Scope Structure) (form : Structure) :
    Eval Structure := do
  match args with
  | [] => followFrom none
  | [a] => followFrom (some (← designate setting ev a scope))
  | args => misfit .follow (.between 0 1) args form

/-! ## Regions -/

/-- The predicates that a region is restricted to. -/
def selection : List Structure → Except Fault (List Node)
  | [] => .ok []
  | .node n :: rest => do return n :: (← selection rest)
  | s :: _ => .error (.selection s)

/-- Writes the region of a node as a list. -/
def compile (args : List Structure) (scope : Scope Structure) (form : Structure) :
    Eval Structure := do
  match args with
  | [a] =>
    let target ← designate setting ev a scope
    answer ((← environment target.env).unfold target none)
  | [a, b] =>
    let target ← designate setting ev a scope
    let predicates ← answer (selection (← elements (← ev b scope)))
    answer ((← environment target.env).unfold target (some predicates))
  | args => misfit .compile (.between 1 2) args form

/-- Builds a region in the environment at hand. What was made is recorded even on failure. -/
def rebuild (env : Int) (s : Structure) : Eval Structure := do
  let (result, created) ← within env fun around => Locale.raise around s
  modify fun p => { p with
    journal := created.map (fun n => (env, Undo.created n)) ++ p.journal }
  return (← answer result)

/-- Builds a region from a list. -/
def decompile (args : List Structure) (scope : Scope Structure) (form : Structure) :
    Eval Structure := do
  match args with
  | [a] =>
    let s ← ev a scope
    rebuild (← get).place.env s
  | args => misfit .decompile (.exactly 1) args form

/-- Makes a node that holds the whole structure being evaluated. -/
def reify (args : List Structure) (form : Structure) : Eval Structure := do
  match args with
  | [] => make none setting.top
  | args => misfit .reify (.exactly 0) args form

end GraphLisp.Form
