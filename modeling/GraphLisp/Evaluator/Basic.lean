import GraphLisp.Evaluator.Builtins
import GraphLisp.Evaluator.Forms
/-!
# The evaluator

A form whose head is the node of a role runs that role; otherwise its head must mean a procedure,
which is applied to the values of the arguments. Symbols are looked up, and everything else stands
for itself. Evaluation is bounded by a number of nested evaluations.

A step is all or nothing: if it fails, the changes in its journal are undone, and only handles
that were given out stay given out.
-/

namespace GraphLisp

open Eval

namespace Evaluator

variable (setting : Setting) (ev : Form.Evaluate)

/-- Applies a procedure to values. -/
def applyProcedure (params : List String) (body : Structure) (scope : Scope Structure)
    (values : List Structure) (form : Structure) : Eval Structure := do
  if values.length ≠ params.length then
    throw (.arity "lambda" (.exactly params.length) values.length form)
  ev body (scope.extend (Level.ofPairs (params.zip values)))

/-- What a value means as the head of a form: nodes stand for what they mean. -/
def operator (s : Structure) : Eval Structure :=
  match s with
  | .node n => meaning n
  | s => return s

/-- Applies a value to values. Only builtins and procedures can be applied. -/
def applyValue (f : Structure) (values : List Structure) (form : Structure) : Eval Structure := do
  match setting.context.roleOf f with
  | some (.builtin b) => b.run values form
  | some r => throw (.formNotApplicable r.word f)
  | none =>
    match ← operator f with
    | .proc params body scope => applyProcedure ev params body scope values form
    | s => throw (.notCallable s)

/-- Evaluates arguments from left to right. -/
def evalAll (scope : Scope Structure) : List Structure → Eval (List Structure)
  | [] => return []
  | s :: rest => do
    let value ← ev s scope
    return value :: (← evalAll scope rest)

/-- Runs a special form. -/
def runForm (f : SpecialForm) (args : List Structure) (scope : Scope Structure)
    (form : Structure) : Eval Structure :=
  match f with
  | .quote =>
    match args with
    | [s] => return s
    | args => Form.misfit .quote (.exactly 1) args form
  | .lambda => Form.lambda setting args scope form
  | .letIn => Form.letIn ev args scope form
  | .define => Form.define ev args scope form
  | .node => Form.node ev args scope form
  | .set => Form.set setting ev args scope form
  | .tell => Form.tell setting ev args scope form
  | .ask => Form.ask setting ev args scope form
  | .jump => Form.jump setting ev args scope form
  | .progn => Form.body ev scope args
  | .cond =>
    match args with
    | [test, yes] => do
      if (← ev test scope).truthy then ev yes scope else return .nil
    | [test, yes, no] => do
      if (← ev test scope).truthy then ev yes scope else ev no scope
    | args => Form.misfit .cond (.between 2 3) args form
  | .eval =>
    match args with
    | [s] => do ev (← ev s scope) scope
    | args => Form.misfit .eval (.exactly 1) args form
  | .apply =>
    match args with
    | [f, s] => do
      let f ← ev f scope
      let values ← elements (← ev s scope)
      applyValue setting ev f values form
    | args => Form.misfit .apply (.exactly 2) args form
  | .delete => Form.delete setting ev args scope form
  | .envJump => Form.envJump setting ev args scope form
  | .follow => Form.follow setting ev args scope form
  | .compile => Form.compile setting ev args scope form
  | .decompile => Form.decompile ev args scope form
  | .reify => Form.reify setting args form
  | .importNode => Form.importNode setting ev args scope form

/-- Runs a role on the arguments of a form. -/
def runRole (r : Role) (args : List Structure) (scope : Scope Structure) (form : Structure) :
    Eval Structure := do
  match r with
  | .form f => runForm setting ev f args scope form
  | .builtin b => b.run (← evalAll ev scope args) form
  | .placeholder => throw (.roleNotCallable r.word form)

/-- Evaluates a form. -/
def evalForm (car cdr : Structure) (scope : Scope Structure) : Eval Structure := do
  let form := Structure.pair car cdr
  let head ← match car with
    | .sym name => resolve setting name scope
    | car => ev car scope
  match setting.context.roleOf head with
  | some r => runRole setting ev r (← elements cdr) scope form
  | none =>
    match ← operator head with
    | .proc params body inner =>
      let values ← evalAll ev scope (← elements cdr)
      applyProcedure ev params body inner values form
    | _ => throw (.notCallable car)

/-- Evaluates a structure, given how its parts are evaluated. -/
def evalWith (s : Structure) (scope : Scope Structure) : Eval Structure :=
  match s with
  | .sym name => lookup setting name scope
  | .pair car cdr => evalForm setting ev car cdr scope
  | s => return s

/-- Evaluates a structure with at most so many evaluations inside each other. -/
def eval : Nat → Form.Evaluate
  | 0 => fun _ _ => throw (.depth setting.top)
  | depth + 1 => evalWith setting (eval depth)

end Evaluator

/-- What a step that succeeded came to. -/
structure Outcome where
  value : Structure
  place : Place
  /-- Whether there was a jump. -/
  moved : Bool
  effects : List Effect

namespace Evaluator

/-- How many evaluations may be inside each other. -/
def maxDepth : Nat := 1000

/-- Undoes a change in the environment where it was made. -/
def undo (env : Int) (u : Undo) : Universe.Change Unit :=
  Universe.within env fun around => u.perform around

/-- Evaluates a structure as one step. -/
def step (depth : Nat) (setting : Setting) (place : Place) (scope : Scope Structure) :
    Universe.Change Outcome := fun u =>
  match eval setting depth setting.top scope ⟨u, place, false, [], []⟩ with
  | .ok value p => .ok ⟨value, p.place, p.moved, p.effects⟩ p.store
  | .error fault p =>
    match p.journal.rollback undo p.store with
    | .ok _ (_, u) => .error fault u
    | .error fault (_, u) => .error fault u

end Evaluator

end GraphLisp
