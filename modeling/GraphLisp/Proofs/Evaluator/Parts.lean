import GraphLisp.Evaluator.Basic
/-!
# Two steps of a form

A form that designates a node, and a form that is evaluated, first find what its head refers to
(`Form.referent`) and then go on with what they found (`Form.designated`, `Evaluator.headed`). Where the head is
a node that plays a role, that role is run (`Evaluator.eval_role`).
-/

namespace GraphLisp

theorem Structure.toList_list (items : List Structure) : (list items).toList = .ok items := by
  have hspine : (list items).spine = (items, .nil) := by
    induction items with
    | nil => rfl
    | cons s rest ih => exact congrArg (fun x : List Structure × Structure => (s :: x.1, x.2)) ih
  unfold toList
  rw [hspine]

theorem Eval.elements_list (items : List Structure) : elements (.list items) = pure items := by
  unfold elements
  rw [Structure.toList_list]
  rfl

namespace Form

open Eval

variable (setting : Setting) (ev : Evaluate)

/-- What a structure refers to: a symbol is only resolved, all else is evaluated. -/
def referent (s : Structure) (scope : Scope Structure) : Eval Structure :=
  match s with
  | .sym name => resolve setting name scope
  | s => ev s scope

/-- The node that was meant, if what was referred to is a node. -/
def designated : Structure → Eval Node
  | .node n => return n
  | found => throw (.undesignated found)

theorem designate_eq (s : Structure) (scope : Scope Structure) :
    designate setting ev s scope = referent setting ev s scope >>= designated := by
  cases s <;> rfl

end Form

namespace Evaluator

open Eval

variable (setting : Setting) (ev : Form.Evaluate)

/-- The value of a form whose head refers to a structure. -/
def headed (car cdr : Structure) (scope : Scope Structure) (head : Structure) : Eval Structure := do
  match setting.context.roleOf head with
  | some r => runRole setting ev r (← elements cdr) scope (.pair car cdr)
  | none =>
    match ← operator head with
    | .proc params body inner =>
      let values ← evalAll ev scope (← elements cdr)
      applyProcedure ev params body inner values (.pair car cdr)
    | _ => throw (.notCallable car)

theorem evalForm_eq (car cdr : Structure) (scope : Scope Structure) :
    evalForm setting ev car cdr scope =
      Form.referent setting ev car scope >>= headed setting ev car cdr scope := by
  cases car <;> rfl

/-- A form whose head is the node of a role runs that role. -/
theorem eval_role {n : Node} {r : Role} (hn : setting.context.roleOf (.node n) = some r) (depth : Nat)
    (args : List Structure) (scope : Scope Structure) :
    eval setting (depth + 2) (.list (.node n :: args)) scope =
      runRole setting (eval setting (depth + 1)) r args scope (.list (.node n :: args)) := by
  change evalForm setting (eval setting (depth + 1)) (.node n) (.list args) scope = _
  rw [evalForm_eq]
  change headed setting _ (.node n) (.list args) scope (.node n) = _
  unfold headed
  rw [hn]
  dsimp only
  rw [elements_list, pure_bind]
  rfl

end Evaluator

end GraphLisp
