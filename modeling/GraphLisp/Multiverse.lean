import GraphLisp.Journal
import GraphLisp.Universe.Basic
/-!
# Multiverses

Universes side by side, over one stock of environments. A universe lists the sites of its
environments and never holds these themselves, so that several universes may have one environment,
and each of them sees what becomes of it. The universe that took an environment in last keeps it:
what is done to the environment is done in the surroundings and with the references of its keeper.

`Multiverse.store?` shows a universe with its environments, and with the keepers of those that were
taken over as its heirs; `Multiverse.keep` stores what has become of it.
-/

namespace GraphLisp

open Std

/-- Where an environment is in the stock, wherever it is listed. -/
abbrev Site := Nat

/-- An environment of the stock. -/
structure Holding where
  env : Environment
  /-- The nodes of other environments that are live, unless a universe keeps the environment; by
  default they are not looked into. -/
  resolver : Option (List Node)
  /-- The universe that took the environment in last. -/
  keeper : Option Nat

namespace Holding

/-- What an environment that no universe keeps sees of others. -/
def surroundings (h : Holding) : Surroundings where
  resolves n := h.resolver.all (·.contains n)
  denotes _ := false

end Holding

/-- The sites of the environments of a universe, and the references that it has on record. -/
structure Realm where
  members : ExtTreeMap Int Site
  references : CrossReferences

namespace Realm

/-- The ids of the environments by their sites. -/
def ids (r : Realm) : ExtTreeMap Site Int := r.members.foldl (fun ids id s => ids.insert s id) ∅

/-- The id of the environment at a site. -/
def idAt? (r : Realm) (s : Site) : Option Int := r.ids[s]?

/-- The ids of what two universes share, each in the first one with the id in the second one. -/
def shared (r other : Realm) : List (Int × Int) :=
  let ids := other.ids
  r.members.toList.filterMap fun (id, s) => ids[s]?.map fun there => (id, there)

end Realm

/-- Environments, and the universes over them. -/
structure Multiverse where
  stock : Array Holding
  realms : Array Realm

namespace Multiverse

/-- The multiverse without anything. -/
def empty : Multiverse := ⟨#[], #[]⟩

/-- Something that is done in a multiverse. -/
abbrev Change := EStateM Fault Multiverse

/-- A question that may have no answer. -/
def answer {α : Type} : Except Fault α → Change α
  | .ok a => return a
  | .error fault => throw fault

/-! ## Universes -/

/-- The environments of a universe. -/
def members (m : Multiverse) (r : Realm) : ExtTreeMap Int Environment :=
  r.members.filterMap fun _ s => m.stock[s]?.map (·.env)

/-- The universe that keeps what is at a site, if it is another one. -/
def otherKeeper? (m : Multiverse) (i : Nat) (s : Site) : Option Nat :=
  (m.stock[s]?.bind (·.keeper)).filter (· != i)

/-- The universe with a number as an heir of another one. -/
def heir? (m : Multiverse) (r : Realm) (k : Nat) : Option Heir :=
  m.realms[k]?.map fun other =>
    let taken := r.members.toList.filter fun (_, s) => m.stock[s]?.bind (·.keeper) == some k
    ⟨k, r.shared other, taken.map (·.1), m.members other, other.references⟩

/-- A universe as it is by now. -/
def store? (m : Multiverse) (i : Nat) : Option Universe :=
  m.realms[i]?.map fun r =>
    let keepers := (r.members.values.filterMap (m.otherKeeper? i)).eraseDups
    ⟨m.members r, r.references, keepers.filterMap (m.heir? r)⟩

/-- Stores what has become of an environment of a universe; one that is new gets a site. -/
def keepMember (i : Nat) (m : Multiverse) (id : Int) (e : Environment) : Multiverse :=
  match m.realms[i]?.bind (·.members[id]?) with
  | some s => { m with stock := m.stock.modify s ({ · with env := e }) }
  | none => { m with
      stock := m.stock.push ⟨e, none, some i⟩
      realms := m.realms.modify i fun r =>
        { r with members := r.members.insert id m.stock.size } }

/-- Stores the references of a universe. -/
def keepReferences (i : Nat) (references : CrossReferences) (m : Multiverse) : Multiverse :=
  { m with realms := m.realms.modify i ({ · with references }) }

/-- Stores what has become of a universe. -/
def keep (m : Multiverse) (i : Nat) (u : Universe) : Multiverse :=
  let m := u.members.foldl (keepMember i) (m.keepReferences i u.references)
  u.heirs.foldl (fun m h => m.keepReferences h.index h.references) m

/-- A universe that has to be there. -/
def store (i : Nat) : Change Universe := do
  match (← get).store? i with
  | some u => return u
  | none => throw .missingKey

/-- Does something in a universe. -/
def change {α : Type} (i : Nat) (c : Universe.Change α) : Change α := do
  match c (← store i) with
  | .ok a u =>
    modify (·.keep i u)
    return a
  | .error fault u =>
    modify (·.keep i u)
    throw fault

/-- Adds a universe of new environments, and returns its number. -/
def addStore (u : Universe) : Change Nat := modifyGet fun m =>
  (m.realms.size, { m with realms := m.realms.push ⟨∅, ∅⟩ }.keep m.realms.size u)

/-! ## Environments -/

/-- What is at a site. -/
def holding (s : Site) : Change Holding := do
  match (← get).stock[s]? with
  | some h => return h
  | none => throw .missingKey

/-- The environment at a site. -/
def environment (s : Site) : Change Environment := do return (← holding s).env

/-- Adds an environment that no universe keeps, and returns its site. -/
def addLoose (e : Environment) (resolver : Option (List Node)) : Change Site := modifyGet fun m =>
  (m.stock.size, { m with stock := m.stock.push ⟨e, resolver, none⟩ })

/-- The site of an environment of a universe. -/
def siteOf (i : Nat) (id : Int) : Change Site := do
  match (← get).realms[i]?.bind (·.members[id]?) with
  | some s => return s
  | none => throw (.noEnvironment id)

/-- Does something in an environment that no universe keeps. -/
def operateAlone {α : Type} (s : Site) (op : Surroundings → Op α) : Change α := do
  let h ← holding s
  let back (l : Locale) (m : Multiverse) : Multiverse :=
    { m with stock := m.stock.setIfInBounds s { h with env := l.env } }
  match op h.surroundings ⟨h.env, ∅⟩ with
  | .ok a l =>
    modify (back l)
    return a
  | .error fault l =>
    modify (back l)
    throw fault

/-- Does something in the environment at a site. -/
def operate {α : Type} (s : Site) (op : Surroundings → Op α) : Change α := do
  match (← holding s).keeper with
  | none => operateAlone s op
  | some i =>
    match (← get).realms[i]?.bind (·.idAt? s) with
    | some id => change i (Universe.within id op)
    | none => throw .missingKey

/-! ## Taking environments in -/

/-- Makes a universe the keeper of the environment at a site, under an id. -/
def adopt (m : Multiverse) (i : Nat) (id : Int) (s : Site) : Multiverse where
  stock := m.stock.modify s ({ · with keeper := some i })
  realms := m.realms.modify i fun r => { r with members := r.members.insert id s }

/-- Makes a universe around the environment at a site, and returns its number. -/
def surround (s : Site) : Change Nat := do
  let u ← answer (Universe.ofRoot (← environment s))
  modifyGet fun m =>
    let i := m.realms.size
    (i, ({ m with realms := m.realms.push ⟨∅, ∅⟩ }.adopt i rootId s).keep i u)

/-- Takes the environment at a site into a universe. -/
def register (i : Nat) (name : Option String) (s : Site) : Change Node := do
  let held := (← get).realms[i]?.bind (·.idAt? s)
  let e ← environment s
  let applicant := held.elim (.outsider e) Universe.Applicant.member
  match Universe.register name applicant (← store i) with
  | .ok n u =>
    modify fun m => (m.adopt i n.id s).keep i u
    return n
  | .error fault u =>
    modify (·.keep i u)
    throw fault

/-! ## Journals -/

/-- Undoes the changes in a journal, and returns what is left of it. -/
def rollback (journal : Journal Site) (m : Multiverse) :
    EStateM.Result Fault (Journal Site × Multiverse) Unit :=
  journal.rollback (fun s u => operate s fun around => u.perform around) m

end Multiverse

end GraphLisp
