import GraphLisp.Proofs.Scope
import GraphLisp.Scope.Lookup
/-!
# A flattened scope looks like the scope

However a scope is asked for a name, the answer is what the innermost level that binds the name says
(`Scope.answers`), and the flattened scope says the same. A level bound over others is laid over what they
show (`Level.update_eq_overlaid`): names that were visible keep their places and show the new values, new
names follow. So it makes no difference to what an extended scope shows whether the scope was flattened
first (`Scope.flattened_looks_alike`).
-/

namespace GraphLisp

variable {α : Type}

namespace Level

/-- A level with another one laid over it: its names keep their places, with the values that they have in
the other level if they have one there, and then come the other names. -/
def overlaid (level more : Level α) : Level α :=
  level.map (fun b => (b.1, (more.find? b.1).getD b.2)) ++ more.filter fun b => b.1 ∉ level.names

theorem find?_eq_none_iff {level : Level α} {name : String} : level.find? name = none ↔ name ∉ level.names := by
  constructor
  · intro h hm
    induction level with
    | nil => cases hm
    | cons b level ih =>
      rw [find?_cons] at h
      split at h
      · cases h
      · next hne =>
        rcases List.mem_cons.1 hm with hm | hm
        · exact hne hm
        · exact ih h hm
  · exact find?_absent

/-- A name that is there gets the new value in its place. -/
theorem bind_of_present {level : Level α} {name : String} (h : level.Distinct) (hm : name ∈ level.names)
    (value : α) : bind name value level = level.map fun b => (b.1, if b.1 = name then value else b.2) := by
  induction level with
  | nil => cases hm
  | cons c level ih =>
    obtain ⟨hc, hlevel⟩ := List.nodup_cons.1 h
    rw [bind_cons, List.map_cons]
    by_cases hname : c.1 = name
    · have hrest : level.map (fun b => (b.1, if b.1 = name then value else b.2)) = level := by
        refine (List.map_congr_left fun b hb => ?_).trans (List.map_id level)
        have hne : b.1 ≠ name := fun heq => hc (List.mem_map.2 ⟨b, hb, heq.trans hname.symm⟩)
        rw [if_neg hne]
        rfl
      rw [if_pos hname, if_pos hname, hrest]
    · rcases List.mem_cons.1 hm with rfl | hm
      · exact absurd rfl hname
      · rw [if_neg hname, if_neg hname, ih hlevel hm]

theorem names_bind_of_present {level : Level α} {name : String} (h : level.Distinct) (hm : name ∈ level.names)
    (value : α) : (bind name value level).names = level.names := by
  simp [bind_of_present h hm, names]

/-- Laying over a level with one more name bound is binding that name first. -/
theorem overlaid_cons {level more : Level α} {b : String × α} (h : level.Distinct) (hb : b.1 ∉ more.names) :
    overlaid (bind b.1 b.2 level) more = overlaid level (b :: more) := by
  have hnone : more.find? b.1 = none := find?_absent hb
  -- the name keeps its place if it was there, and is the first of the new names if it was not
  unfold overlaid
  by_cases hm : b.1 ∈ level.names
  · rw [names_bind_of_present h hm, bind_of_present h hm, List.map_map, List.filter_cons_of_neg (by simpa using hm)]
    congr 1
    apply List.map_congr_left
    intro c _
    by_cases hc : c.1 = b.1
    · simp [find?_cons, hc, hnone]
    · simp [find?_cons, hc]
  · have hkept : more.filter (fun c => c.1 ∉ (level ++ [b]).names) = more.filter fun c => c.1 ∉ level.names := by
      apply List.filter_congr
      intro c hc
      have hne : c.1 ≠ b.1 := fun heq => hb (List.mem_map.2 ⟨c, hc, heq⟩)
      have hiff : c.1 ∈ (level ++ [b]).names ↔ c.1 ∈ level.names := by
        rw [names, List.map_append, List.mem_append, List.map_singleton, List.mem_singleton]
        exact or_iff_left hne
      simp only [hiff]
    have hmap : level.map (fun c => (c.1, (more.find? c.1).getD c.2)) =
        level.map fun c => (c.1, (Level.find? (b :: more) c.1).getD c.2) := by
      apply List.map_congr_left
      intro c hc
      have hne : c.1 ≠ b.1 := fun heq => hm (List.mem_map.2 ⟨c, hc, heq⟩)
      rw [find?_cons, if_neg hne]
    rw [bind_of_absent hm, List.filter_cons_of_pos (by simpa using hm), hkept, List.map_append, hmap,
      List.map_singleton, hnone, List.append_assoc]
    rfl

/-- Binding the names of a level over another one lays it over that one. -/
theorem update_eq_overlaid {level more : Level α} (h : level.Distinct) (hm : more.Distinct) :
    level.update more = level.overlaid more := by
  -- the level is changed by each binding, so the induction is over all levels
  induction more generalizing level with
  | nil => simp [update, overlaid]
  | cons b more ih =>
    obtain ⟨hb, hmore⟩ := List.nodup_cons.1 hm
    rw [update_cons, ih (h.bind b.1 b.2) hmore, overlaid_cons h hb]

end Level

namespace Scope

/-- What a scope answers when it is asked for a name, in whichever way: nothing, if no level binds the name,
or else what the innermost level says that binds it. -/
inductive Answers (scope : Scope α) (name : String) : Option α → Prop where
  | unbound (owner : scope.owner? name = none) (absent : ∀ level ∈ scope, Level.find? level name = none)
    (binds : scope.binds name = false) (find : scope.find? name = none)
    (demand : scope.demand name = .error .missingKey) (default : ∀ d, scope.findD name d = d) :
    Answers scope name none
  | bound {i : Nat} {level : Level α} {value : α} (owner : scope.owner? name = some i)
    (level_at : scope[i]? = some level) (value_at : level.find? name = some value)
    (further_in : ∀ j < i, ∀ inner, scope[j]? = some inner → Level.find? inner name = none)
    (binds : scope.binds name = true) (find : scope.find? name = some value)
    (demand : scope.demand name = .ok value) (default : ∀ d, scope.findD name d = value) :
    Answers scope name (some value)

theorem owner?_cons (level : Level α) (outer : Scope α) (name : String) :
    owner? (level :: outer) name =
      if (Level.find? level name).isSome then some 0 else (outer.owner? name).map (· + 1) := by
  unfold owner?
  rw [List.findIdx?_cons]

theorem owner?_eq_none_iff {scope : Scope α} {name : String} :
    scope.owner? name = none ↔ ∀ level ∈ scope, Level.find? level name = none := by
  simp [owner?, List.findIdx?_eq_none_iff]

/-- The owner of a name is the innermost level that binds it, and says what it means. -/
theorem owner_binds {scope : Scope α} {name : String} {i : Nat} (h : scope.owner? name = some i) :
    ∃ level value, scope[i]? = some level ∧ level.find? name = some value ∧ scope.find? name = some value ∧
      ∀ j < i, ∀ inner, scope[j]? = some inner → Level.find? inner name = none := by
  induction scope generalizing i with
  | nil => cases h
  | cons level outer ih =>
    rw [owner?_cons] at h
    cases hvalue : Level.find? level name with
    | some value =>
      rw [hvalue, Option.isSome_some, if_pos rfl] at h
      cases h
      refine ⟨level, value, rfl, hvalue, ?_, by omega⟩
      rw [find?_cons, hvalue, Option.some_or]
    | none =>
      rw [hvalue, Option.isSome_none, if_neg Bool.false_ne_true] at h
      obtain ⟨k, hk, rfl⟩ := Option.map_eq_some_iff.1 h
      obtain ⟨found, value, hat, hfound, hfind, hinner⟩ := ih hk
      refine ⟨found, value, hat, hfound, ?_, ?_⟩
      · rw [find?_cons, hvalue, Option.none_or, hfind]
      · intro j hj inner hat
        cases j with
        | zero =>
          cases hat
          exact hvalue
        | succ j => exact hinner j (by omega) inner hat

/-- All ways to ask for a name agree. -/
theorem answers (scope : Scope α) (name : String) : scope.Answers name (scope.find? name) := by
  cases howner : scope.owner? name with
  | none =>
    have habsent := owner?_eq_none_iff.1 howner
    have hfind : scope.find? name = none := List.findSome?_eq_none_iff.2 habsent
    rw [hfind]
    exact .unbound howner habsent (by rw [binds, howner, Option.isSome_none]) hfind (by rw [demand, hfind])
      fun d => by rw [findD, hfind, Option.getD_none]
  | some i =>
    obtain ⟨level, value, hat, hvalue, hfind, hinner⟩ := owner_binds howner
    rw [hfind]
    exact .bound howner hat hvalue hinner (by rw [binds, howner, Option.isSome_some]) hfind (by rw [demand, hfind])
      fun d => by rw [findD, hfind, Option.getD_some]

theorem Answers.binds_iff {scope : Scope α} {name : String} {answer : Option α} (h : scope.Answers name answer) :
    scope.binds name = true ↔ answer.isSome = true := by
  cases h with
  | unbound _ _ binds => simp [binds]
  | bound _ _ _ _ binds => simp [binds]

theorem find?_of_single {level : Level α} (name : String) : find? [level] name = level.find? name := by
  rw [find?_cons, find?, List.findSome?_nil, Option.or_none]

theorem find?_collapse {scope : Scope α} (name : String) :
    scope.collapse.find? name = Level.find? scope.flatten name := by
  unfold collapse single
  split
  · next h =>
    rw [List.isEmpty_iff.1 h]
    rfl
  · exact find?_of_single name

theorem flatten_of_single {level : Level α} (h : level.Distinct) : flatten [level] = level :=
  Level.ofPairs_of_distinct h

theorem flatten_extend {scope : Scope α} {more : Level α} (h : more.Distinct) :
    (scope.extend more).flatten = scope.flatten.overlaid more :=
  Level.update_eq_overlaid (distinct_flatten scope) h

/-- A flattened scope answers for every name as the scope does, whether its level is kept when it binds
nothing or not. Its names are those that some level binds. A scope that is extended shows the new level laid
over what it showed, and so does the flattened scope that is extended; the scope itself is still there
behind the new level, and means by the names that the new level does not bind what it meant. -/
theorem flattened_looks_alike {scope : Scope α} (h : scope.Distinct) :
    (∀ name, scope.Answers name (Level.find? scope.flatten name) ∧
      Answers [scope.flatten] name (Level.find? scope.flatten name) ∧
      scope.collapse.Answers name (Level.find? scope.flatten name) ∧
      (scope.binds name = true ↔ name ∈ scope.flatten.names)) ∧
    ∀ more : Level α, more.Distinct →
      (scope.extend more).flatten = scope.flatten.overlaid more ∧
      (extend [scope.flatten] more).flatten = scope.flatten.overlaid more ∧
      (scope.collapse.extend more).flatten = scope.flatten.overlaid more ∧
      (scope.extend more).tail = scope ∧
      ∀ name, more.find? name = none →
        (scope.extend more).Answers name (Level.find? scope.flatten name) := by
  have hchain : ∀ name, scope.Answers name (Level.find? scope.flatten name) := by
    intro name
    rw [find?_flatten h]
    exact scope.answers name
  refine ⟨fun name => ⟨hchain name, ?_, ?_, ?_⟩, fun more hmore => ⟨flatten_extend hmore, ?_, ?_, rfl, ?_⟩⟩
  · rw [← find?_of_single]
    exact answers _ name
  · rw [← find?_collapse]
    exact answers _ name
  · rw [(hchain name).binds_iff, Option.isSome_iff_ne_none, Ne, Level.find?_eq_none_iff,
      Decidable.not_not]
  · rw [flatten_extend hmore, flatten_of_single (distinct_flatten scope)]
  · rw [flatten_extend hmore, flatten_collapse]
  · intro name hname
    have hfind : (scope.extend more).find? name = Level.find? scope.flatten name := by
      rw [extend, find?_cons, hname, Option.none_or, find?_flatten h]
    rw [← hfind]
    exact answers _ name

/-- A scope in which a name is bound again two levels further in, past a level that binds nothing. -/
def nested : Scope Int := [[("k", 1), ("n", 2)], [], [("f", 3), ("k", 4)]]

theorem nested_looks_alike :
    nested.Distinct ∧ Level.Distinct [("x", 5), ("k", (6 : Int))] ∧
      nested.Answers "k" (some 1) ∧ nested.Answers "x" none ∧
      (nested.extend [("x", 5), ("k", 6)]).flatten = [("f", 3), ("k", 6), ("n", 2), ("x", 5)] := by
  have hnested : nested.Distinct := by unfold Distinct Level.Distinct nested; decide
  have hmore : Level.Distinct [("x", 5), ("k", (6 : Int))] := by unfold Level.Distinct; decide
  obtain ⟨hnames, hextended⟩ := flattened_looks_alike hnested
  exact ⟨hnested, hmore, (hnames "k").1, (hnames "x").1, (hextended _ hmore).1⟩

end Scope

end GraphLisp
