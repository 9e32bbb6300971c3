/-!
# Lexical scopes

A level binds names to values, each name once, in the order in which the names were first
bound. A scope is a chain of levels, innermost first: a name means what the innermost level that
binds it says. `Scope.flatten` is the single level that shows the same bindings.
-/

namespace GraphLisp

variable {α : Type}

/-- Names bound to values, in binding order. -/
abbrev Level (α : Type) := List (String × α)

namespace Level

/-- Binds a name: in its place if the level binds it already, else at the end. -/
def bind (name : String) (value : α) : Level α → Level α
  | [] => [(name, value)]
  | (n, v) :: rest => if n = name then (n, value) :: rest else (n, v) :: bind name value rest

/-- Binds further names in turn, over the ones that are there. -/
def update (level more : Level α) : Level α :=
  more.foldl (fun l b => bind b.1 b.2 l) level

/-- The level that binds the pairs in turn, so that the last value of a name wins. -/
def ofPairs (pairs : List (String × α)) : Level α := update [] pairs

/-- The value of a name. -/
def find? (level : Level α) (name : String) : Option α := level.lookup name

end Level

/-- A chain of levels, innermost first. -/
abbrev Scope (α : Type) := List (Level α)

namespace Scope

/-- How far out the innermost level that binds a name is. -/
def owner? (scope : Scope α) (name : String) : Option Nat :=
  scope.findIdx? fun level => (Level.find? level name).isSome

/-- The value of a name in the innermost level that binds it. -/
def find? (scope : Scope α) (name : String) : Option α :=
  scope.findSome? fun level => Level.find? level name

/-- A scope inside the given one. -/
def extend (scope : Scope α) (level : Level α) : Scope α := level :: scope

/-- All visible bindings. Outer names come first; a name bound again further in keeps its place
and shows the inner value. -/
def flatten : Scope α → Level α
  | [] => []
  | level :: outer => Level.update (flatten outer) level

end Scope

end GraphLisp
