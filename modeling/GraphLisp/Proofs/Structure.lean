import GraphLisp.Payload
import GraphLisp.Proofs.Scope
/-!
# Structures part by part

Induction over structures reaches the values in the scopes of procedures (`Structure.induct`). What
a structure mentions, whether it is whole, and its payload are determined by its visible parts: of
a procedure, the body and what its scope shows when flattened. `Structure.Occurs` says the same of
mentioned nodes by rules.
-/

namespace GraphLisp

namespace Structure

theorem sizeOf_binding_lt {scope : Scope Structure} {level : Level Structure} {b : String × Structure}
    (hl : level ∈ scope) (hb : b ∈ level) : sizeOf b.2 < sizeOf scope := by
  have h₁ := List.sizeOf_lt_of_mem hl
  have h₂ := List.sizeOf_lt_of_mem hb
  obtain ⟨name, s⟩ := b
  simp only [Prod.mk.sizeOf_spec] at h₂
  dsimp only
  omega

/-- Induction over the parts of structures, hidden bindings included. -/
@[elab_as_elim] theorem induct {motive : Structure → Prop} (int : ∀ n, motive (.int n))
    (bool : ∀ b, motive (.bool b)) (str : ∀ s, motive (.str s)) (sym : ∀ name, motive (.sym name))
    (nil : motive .nil) (node : ∀ n, motive (.node n))
    (pair : ∀ car cdr, motive car → motive cdr → motive (.pair car cdr))
    (proc : ∀ (params : List String) (body : Structure) (scope : Scope Structure), motive body →
      (∀ level ∈ scope, ∀ b ∈ level, motive b.2) →
      motive (.proc params body scope))
    (nothing : motive .nothing) (s : Structure) : motive s :=
  match s with
  | .int n => int n
  | .bool b => bool b
  | .str s => str s
  | .sym name => sym name
  | .nil => nil
  | .node n => node n
  | .pair car cdr => pair car cdr (induct int bool str sym nil node pair proc nothing car)
      (induct int bool str sym nil node pair proc nothing cdr)
  | .proc params body scope => proc params body scope
      (induct int bool str sym nil node pair proc nothing body)
      fun _ hl b hb => have _ := sizeOf_binding_lt hl hb; induct int bool str sym nil node pair proc nothing b.2
  | .nothing => nothing
termination_by sizeOf s
decreasing_by all_goals simp_wf <;> omega

/-! ## Procedures by what their scopes show -/

/-- What goes through the values of a scope one by one. -/
theorem eq_mapValues {β : Type} {g : Structure → β} {onLevel : Level Structure → Level β}
    {onScope : Scope Structure → Scope β} (level_nil : onLevel [] = [])
    (level_cons : ∀ name s rest, onLevel ((name, s) :: rest) = (name, g s) :: onLevel rest)
    (scope_nil : onScope [] = [])
    (scope_cons : ∀ level outer, onScope (level :: outer) = onLevel level :: onScope outer)
    (scope : Scope Structure) : onScope scope = scope.mapValues g := by
  have hlevel : ∀ level : Level Structure, onLevel level = level.mapValues g := by
    intro level
    induction level with
    | nil => exact level_nil
    | cons b level ih => rw [level_cons, ih, Level.mapValues_cons]
  induction scope with
  | nil => exact scope_nil
  | cons level outer ih => rw [scope_cons, hlevel, ih, Scope.mapValues_cons]

theorem mentionsScope_eq (scope : Scope Structure) : mentionsScope scope = scope.mapValues mentions :=
  eq_mapValues rfl (fun _ _ _ => rfl) rfl (fun _ _ => rfl) scope

theorem wholeScope_eq (scope : Scope Structure) : wholeScope scope = scope.mapValues isWhole :=
  eq_mapValues rfl (fun _ _ _ => rfl) rfl (fun _ _ => rfl) scope

theorem encodeScope_eq (scope : Scope Structure) : encodeScope scope = scope.mapValues encode :=
  eq_mapValues rfl (fun _ _ _ => rfl) rfl (fun _ _ => rfl) scope

theorem mentions_proc (params : List String) (body : Structure) (scope : Scope Structure) :
    mentions (.proc params body scope) =
      scope.flatten.reverse.flatMap (fun b => b.2.mentions) ++ body.mentions := by
  rw [mentions, mentionsScope_eq, Scope.flatten_mapValues, Level.mapValues, ← List.map_reverse,
    List.flatMap_map]

theorem isWhole_proc (params : List String) (body : Structure) (scope : Scope Structure) :
    isWhole (.proc params body scope) = (scope.flatten.all (fun b => b.2.isWhole) && body.isWhole) := by
  rw [isWhole, wholeScope_eq, Scope.flatten_mapValues, Level.mapValues, List.all_map]
  rfl

/-! ## Occurring nodes -/

/-- A node occurs in a structure: in a part of a pair, in the body of a procedure, or in a value
that is visible in the scope of a procedure. -/
inductive Occurs (n : Node) : Structure → Prop where
  | here : Occurs n (.node n)
  | car {a d : Structure} (h : Occurs n a) : Occurs n (.pair a d)
  | cdr {a d : Structure} (h : Occurs n d) : Occurs n (.pair a d)
  | body {params : List String} {body : Structure} {scope : Scope Structure} (h : Occurs n body) :
    Occurs n (.proc params body scope)
  | binding {params : List String} {body : Structure} {scope : Scope Structure} {name : String}
    {value : Structure} (visible : (name, value) ∈ scope.flatten) (h : Occurs n value) :
    Occurs n (.proc params body scope)

/-- The mentioned nodes are those that occur. -/
theorem mem_mentions_iff (n : Node) (s : Structure) : n ∈ s.mentions ↔ s.Occurs n := by
  constructor
  · intro h
    induction s using induct with
    | node m =>
      obtain rfl : n = m := List.mem_singleton.1 h
      exact .here
    | pair car cdr ihcar ihcdr =>
      rcases List.mem_append.1 h with h | h
      · exact .car (ihcar h)
      · exact .cdr (ihcdr h)
    | proc params body scope ihbody ihscope =>
      rw [mentions_proc] at h
      rcases List.mem_append.1 h with h | h
      · obtain ⟨b, hb, h⟩ := List.mem_flatMap.1 h
        obtain ⟨level, hl, hbl⟩ := Scope.mem_flatten (List.mem_reverse.1 hb)
        exact .binding (List.mem_reverse.1 hb) (ihscope level hl b hbl h)
      · exact .body (ihbody h)
    | _ => cases h
  · intro h
    induction h with
    | here => exact List.mem_singleton.2 rfl
    | car _ ih => exact List.mem_append.2 (.inl ih)
    | cdr _ ih => exact List.mem_append.2 (.inr ih)
    | body _ ih =>
      rw [mentions_proc]
      exact List.mem_append.2 (.inr ih)
    | binding visible _ ih =>
      rw [mentions_proc]
      exact List.mem_append.2 (.inl (List.mem_flatMap.2 ⟨_, List.mem_reverse.2 visible, ih⟩))

end Structure

end GraphLisp
