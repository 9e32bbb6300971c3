import Std.Data.ExtTreeMap
import Std.Data.ExtTreeSet
/-!
# Indexes

An index lists, for each key, the values filed under it. A key with nothing filed under it is
absent, so two indexes that file the same values under the same keys are equal.
-/

namespace GraphLisp

open Std

/-- A table from keys to the values filed under them. -/
abbrev Index (κ ν : Type) [Ord κ] [Ord ν] := ExtTreeMap κ (ExtTreeSet ν)

namespace Index

variable {κ ν : Type} [Ord κ] [TransOrd κ] [Ord ν] [TransOrd ν]

/-- What is filed under a key: nothing, if the key is absent. -/
def bucket (m : Index κ ν) (k : κ) : ExtTreeSet ν := m[k]?.getD ∅

/-- Files a value under a key. -/
def file (m : Index κ ν) (k : κ) (v : ν) : Index κ ν := m.insert k ((bucket m k).insert v)

/-- The index with `rest` filed under a key, which leaves the index when nothing is left. -/
def refile (m : Index κ ν) (k : κ) (rest : ExtTreeSet ν) : Index κ ν :=
  if rest.isEmpty then m.erase k else m.insert k rest

/-- Takes a value out from under a key. -/
def withdraw (m : Index κ ν) (k : κ) (v : ν) : Index κ ν :=
  match m[k]? with
  | none => m
  | some held => refile m k (held.erase v)

end Index

end GraphLisp
