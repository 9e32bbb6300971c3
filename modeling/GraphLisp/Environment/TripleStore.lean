import GraphLisp.Fault
import GraphLisp.Index
/-!
# Triple stores

A triple store keeps statements about handles, each under a handle of its own, and files that
handle under the statement's subject, predicate and object. A table from statements to handles
tells whether a statement is stored already. After changes have been taken back, that table may
lack an entry.
-/

namespace GraphLisp

open Std

/-- A relation between three handles. -/
structure Statement where
  subject : Int
  predicate : Int
  object : Int
deriving DecidableEq

namespace Statement

instance : Ord Statement :=
  ⟨compareLex (compareOn Statement.subject)
    (compareLex (compareOn Statement.predicate) (compareOn Statement.object))⟩

instance : TransOrd Statement :=
  inferInstanceAs (TransCmp (compareLex (compareOn Statement.subject)
    (compareLex (compareOn Statement.predicate) (compareOn Statement.object))))

instance : LawfulEqOrd Statement where
  eq_of_compare {a b} h := by
    obtain ⟨hs, h⟩ := Ordering.then_eq_eq.1 h
    obtain ⟨hp, ho⟩ := Ordering.then_eq_eq.1 h
    have hs := LawfulEqOrd.eq_of_compare hs
    have hp := LawfulEqOrd.eq_of_compare hp
    have ho := LawfulEqOrd.eq_of_compare ho
    cases a; cases b; simp_all

end Statement

/-- The statements of an environment with their indexes. -/
structure TripleStore where
  statements : ExtTreeMap Int Statement
  handles : ExtTreeMap Statement Int
  bySubject : Index Int Int
  byPredicate : Index Int Int
  byObject : Index Int Int

namespace TripleStore

/-- The store without statements. -/
def empty : TripleStore := ⟨∅, ∅, ∅, ∅, ∅⟩

/-- The handle of a stored statement. -/
def find? (t : TripleStore) (st : Statement) : Option Int := t.handles[st]?

/-- Stores a statement under a handle. -/
def insert (t : TripleStore) (handle : Int) (st : Statement) : TripleStore where
  statements := t.statements.insert handle st
  handles := t.handles.insert st handle
  bySubject := t.bySubject.file st.subject handle
  byPredicate := t.byPredicate.file st.predicate handle
  byObject := t.byObject.file st.object handle

/-- An operation on a triple store. -/
abbrev Change := EStateM Fault TripleStore

/-- The index without a handle under a key that is bound to be there. -/
def unfile (m : Index Int Int) (key handle : Int) : Change (Index Int Int) :=
  match m[key]? with
  | none => throw .missingKey
  | some held => return m.refile key (held.erase handle)

/-- Removes the statement of a handle, and returns it. The table of handles and the indexes follow
in turn; where an entry is missing, the ones after it stay. -/
def remove (handle : Int) : Change Statement := do
  let some st := (← get).statements[handle]? | throw .missingKey
  modify fun t => { t with statements := t.statements.erase handle }
  if st ∉ (← get).handles then throw .missingKey
  modify fun t => { t with handles := t.handles.erase st }
  let bySubject ← unfile (← get).bySubject st.subject handle
  modify ({ · with bySubject })
  let byPredicate ← unfile (← get).byPredicate st.predicate handle
  modify ({ · with byPredicate })
  let byObject ← unfile (← get).byObject st.object handle
  modify ({ · with byObject })
  return st

/-- The buckets that a pattern picks. -/
def buckets (t : TripleStore) (s p o : Option Int) : List (ExtTreeSet Int) :=
  (s.map t.bySubject.bucket).toList ++ (p.map t.byPredicate.bucket).toList ++
    (o.map t.byObject.bucket).toList

/-- The handles of the statements that have the given parts, in order. -/
def select (t : TripleStore) (s p o : Option Int) : List Int :=
  match s, p, o with
  | some s, some p, some o => (t.find? ⟨s, p, o⟩).toList
  | s, p, o =>
    match t.buckets s p o with
    | [] => t.statements.keys
    | bucket :: others => bucket.toList.filter fun h => others.all (·.contains h)

/-- The handles of the statements that use a handle in any place, in order. -/
def involving (t : TripleStore) (handle : Int) : List Int :=
  ((t.bySubject.bucket handle ∪ t.byPredicate.bucket handle) ∪ t.byObject.bucket handle).toList

end TripleStore

end GraphLisp
