import GraphLisp.Evaluator.Progress
/-!
# Builtins

The roles that get the values of their arguments.
-/

namespace GraphLisp.Builtin

open Eval

/-- The wrong number of arguments. -/
def misfit (b : Builtin) (expected : Arity) (values : List Structure) (form : Structure) :
    Eval Structure :=
  throw (.arity b.word expected values.length form)

/-- The integers that all values must be. -/
def integers (b : Builtin) : List Structure → Except Fault (List Int)
  | [] => .ok []
  | .int n :: rest => do return n :: (← integers b rest)
  | s :: _ => .error (.notIntegers b.word s)

/-- Integer division toward negative infinity, by one divisor after the other. -/
def quotient (form : Structure) (n : Int) : List Int → Except Fault Int
  | [] => .ok n
  | d :: rest => if d = 0 then .error (.divisionByZero form) else quotient form (n.fdiv d) rest

/-- What is printed for a value: a string as it is, anything else as a structure. -/
def printed (names : Names) : Structure → String
  | .str s => s
  | s => s.print names

/-- Runs a builtin on values. -/
def run (b : Builtin) (values : List Structure) (form : Structure) : Eval Structure :=
  match b, values with
  | .car, [.pair a _] => return a
  | .car, [s] => throw (.expectsPair "car" s)
  | .car, vs => misfit .car (.exactly 1) vs form
  | .cdr, [.pair _ d] => return d
  | .cdr, [s] => throw (.expectsPair "cdr" s)
  | .cdr, vs => misfit .cdr (.exactly 1) vs form
  | .cons, [a, d] => return .pair a d
  | .cons, vs => misfit .cons (.exactly 2) vs form
  | .println, vs => do
    let names := (← get).store.names
    if !vs.all (·.isPrintable names) then throw (.numeral none)
    say (" ".intercalate (vs.map (printed names)))
    return .nil
  | .eq, [a, b] => return .bool (a.same b)
  | .eq, vs => misfit .eq (.exactly 2) vs form
  | .add, vs => do
    let ns ← answer (integers .add vs)
    return .int (ns.foldl (· + ·) 0)
  | .sub, vs => do
    match vs with
    | [] => misfit .sub (.atLeast 1) vs form
    | _ =>
      match ← answer (integers .sub vs) with
      | [n] => return .int (-n)
      | n :: rest => return .int (rest.foldl (· - ·) n)
      | [] => return .nil
  | .mul, vs => do
    let ns ← answer (integers .mul vs)
    return .int (ns.foldl (· * ·) 1)
  | .div, vs => do
    match vs with
    | [] | [_] => misfit .div (.atLeast 2) vs form
    | _ =>
      match ← answer (integers .div vs) with
      | n :: rest => return .int (← answer (quotient form n rest))
      | [] => return .nil
  | .listLen, [s] => do
    if s.isList then return .int (← elements s).length else throw (.expectsProperList s)
  | .listLen, vs => misfit .listLen (.exactly 1) vs form
  | .curr, [] => do
    describe
    return (← get).place.location
  | .curr, vs => misfit .curr (.exactly 0) vs form
  | .currEnv, [] => do
    let p ← get
    return ← answer (p.store.envNode p.place.env)
  | .currEnv, vs => misfit .currEnv (.exactly 0) vs form
  | .envFind, [s] => do
    match s with
    | .str name | .sym name =>
      match (← get).store.findEnvironment name with
      | some n => return n
      | none => return .nil
    | s => throw (.expectsName s)
  | .envFind, vs => misfit .envFind (.exactly 1) vs form

end GraphLisp.Builtin
