import GraphLisp.Fault
/-!
# Names looked up in scopes

The ways to ask a scope for a name: whether some level binds it, and its value, for names that no level
binds with a default or with a failure. All of them go by the innermost level that binds the name.
-/

namespace GraphLisp.Scope

variable {α : Type}

/-- Whether some level binds a name. -/
def binds (scope : Scope α) (name : String) : Bool := (scope.owner? name).isSome

/-- The value of a name, or the given one if no level binds it. -/
def findD (scope : Scope α) (name : String) (default : α) : α := (scope.find? name).getD default

/-- The value of a name that some level has to bind. -/
def demand (scope : Scope α) (name : String) : Except Fault α :=
  match scope.find? name with
  | some value => .ok value
  | none => .error .missingKey

end GraphLisp.Scope
