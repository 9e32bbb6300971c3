import GraphLisp.Proofs.Context
import GraphLisp.Proofs.Evaluator.Depth
import GraphLisp.Proofs.Scope
import GraphLisp.Proofs.Session.Turns
/-!
# Bindings

To evaluate expressions with names bound to values is to call, at once, a procedure with these parameters and this
body (`Evaluator.letting_is_calling`). The two build the level of the names by different code, and several expressions
are made one form in the body of the procedure, but not in the other form. So they need different bounds on how
many evaluations may be inside each other, and they agree wherever neither is given up for that.
-/

namespace GraphLisp

open Eval

namespace Form

/-- A form that evaluates expressions with names bound to the values of others. -/
def letting (l : Node) (bindings : List (String × Structure)) (exprs : List Structure) : Structure :=
  .list (.node l :: .list (bindings.map fun b => .list [.sym b.1, b.2]) :: exprs)

/-- A form that makes a procedure with the names for parameters. -/
def making (m : Node) (bindings : List (String × Structure)) (exprs : List Structure) : Structure :=
  .list (.node m :: .list (bindings.map fun b => .sym b.1) :: exprs)

/-- A form that calls the procedure that its head makes. -/
def callingMade (m : Node) (bindings : List (String × Structure)) (exprs : List Structure) : Structure :=
  .pair (making m bindings exprs) (.list (bindings.map (·.2)))

/-- The body of a procedure made of expressions, given the node of the role that evaluates several in turn. -/
def oneBody (p : Node) : List Structure → Structure
  | [s] => s
  | exprs => .list (.node p :: exprs)

/-- Distinct names are parameters as they stand. -/
theorem parameters_distinct (bindings : List (String × Structure)) (h : Level.Distinct bindings) (seen : List String)
    (hnew : ∀ name ∈ Level.names bindings, name ∉ seen) :
    parameters seen (bindings.map fun b => .sym b.1) = .ok (Level.names bindings) := by
  -- what was seen grows from name to name, so the names that are left must be new to all of it
  induction bindings generalizing seen with
  | nil => rfl
  | cons b rest ih =>
    have hb := List.nodup_cons.1 h
    have hrest := ih hb.2 (b.1 :: seen) fun name hname hmem => by
      rcases List.mem_cons.1 hmem with rfl | hmem
      · exact hb.1 hname
      · exact hnew name (.tail _ hname) hmem
    rw [List.map_cons, parameters, if_neg (hnew b.1 (.head _)), hrest]
    rfl

/-- Names bound one after the other are bound to the values of the expressions. -/
theorem letLevel_eq (ev : Evaluate) (scope : Scope Structure) (bindings : List (String × Structure))
    (h : Level.Distinct bindings) (level : Level Structure)
    (hnew : ∀ name ∈ Level.names bindings, name ∉ level.names) :
    letLevel ev scope level (bindings.map fun b => .list [.sym b.1, b.2]) =
      Evaluator.evalAll ev scope (bindings.map (·.2)) >>= fun values =>
        pure (level ++ (Level.names bindings).zip values) := by
  -- the level grows from name to name, so the names that are left must be free in all of it
  induction bindings generalizing level with
  | nil =>
    change pure level = pure (level ++ [])
    rw [List.append_nil]
  | cons b rest ih =>
    have hb := List.nodup_cons.1 h
    have hfree : (Level.find? level b.1).isSome = false := by
      rw [Level.find?_absent (hnew b.1 (.head _))]
      rfl
    have hrest : ∀ value : Structure,
        letLevel ev scope (level ++ [(b.1, value)]) (rest.map fun b => .list [.sym b.1, b.2]) = _ :=
      fun value => ih hb.2 (level ++ [(b.1, value)]) fun name hname hmem => by
        rw [Level.names, List.map_append, List.mem_append] at hmem
        rcases hmem with hmem | hmem
        · exact hnew name (.tail _ hname) hmem
        · rw [List.mem_singleton.1 hmem] at hname
          exact hb.1 hname
    change (elements (.list [.sym b.1, b.2]) >>= _) = _
    rw [elements_list, pure_bind]
    simp only [hfree, Bool.false_eq_true, ↓reduceIte, hrest, List.map_cons, Evaluator.evalAll, bind_assoc, pure_bind,
      Level.names_cons, List.zip_cons_cons, List.append_assoc, List.singleton_append]

end Form

namespace Evaluator

theorem evalAll_length (ev : Form.Evaluate) (scope : Scope Structure) (ss : List Structure) (p : Progress) :
    Ends (evalAll ev scope ss) p (fun values _ => values.length = ss.length) fun _ _ => True := by
  induction ss generalizing p with
  | nil => rfl
  | cons s rest ih =>
    refine (Ends.always (fun _ _ => trivial) fun _ _ => trivial : Ends (ev s scope) p (fun _ _ => True)
      fun _ _ => True).bind (fun value p _ => ?_) fun _ _ h => h
    exact (ih p).bind (fun values _ h => congrArg Nat.succ h) fun _ _ h => h

/-- A procedure binds its parameters to the values. -/
theorem applyProcedure_distinct (ev : Form.Evaluate) {level : Level Structure} (h : level.Distinct)
    {values : List Structure} (hlength : values.length = level.names.length) (body : Structure)
    (scope : Scope Structure) (form : Structure) :
    applyProcedure ev level.names body scope values form = ev body (scope.extend (level.names.zip values)) := by
  have hzip : Level.Distinct (level.names.zip values) := by
    rw [Level.Distinct, Level.names, List.map_fst_zip (Nat.le_of_eq hlength.symm)]
    exact h
  unfold applyProcedure
  rw [if_neg (not_not_intro hlength), Level.ofPairs_of_distinct hzip]

section
variable {setting : Setting} {l m p : Node} {bindings : List (String × Structure)} {exprs : List Structure}
  (hl : setting.context.roleOf (.node l) = some (.form .letIn))
  (hm : setting.context.roleOf (.node m) = some (.form .lambda))
  (hp : setting.context.player? (.form .progn) = some (.node p))
  (hprogn : setting.context.roleOf (.node p) = some (.form .progn))
  (h : Level.Distinct bindings) (hne : exprs ≠ [])

include hl h hne in
/-- The form binds the names to the values, and then evaluates its body. -/
theorem eval_letting (depth : Nat) (scope : Scope Structure) :
    eval setting (depth + 2) (Form.letting l bindings exprs) scope =
      evalAll (eval setting (depth + 1)) scope (bindings.map (·.2)) >>= fun values =>
        Form.body (eval setting (depth + 1)) (scope.extend ((Level.names bindings).zip values)) exprs := by
  obtain ⟨first, more, rfl⟩ := List.exists_cons_of_ne_nil hne
  unfold Form.letting
  rw [eval_role setting hl]
  unfold runRole runForm Form.letIn
  dsimp only
  rw [elements_list, pure_bind, Form.letLevel_eq _ _ _ h [] fun _ _ => List.not_mem_nil, bind_assoc]
  simp only [pure_bind, List.nil_append]

include hm hp h hne in
/-- The form that makes a procedure. The node for a body of several expressions comes from the context, not from
what its name means where the form is evaluated. -/
theorem eval_making (depth : Nat) (scope : Scope Structure) :
    eval setting (depth + 2) (Form.making m bindings exprs) scope =
      pure (.proc (Level.names bindings) (Form.oneBody p exprs) scope) := by
  obtain ⟨first, more, rfl⟩ := List.exists_cons_of_ne_nil hne
  have hlookup : setting.context.lookup "progn" = .ok (.node p) := by
    have hword : Role.ofWord? "progn" = some (.form .progn) := Role.ofWord?_word (.form .progn)
    rw [Context.lookup, hword, Option.bind_some, hp]
  unfold Form.making
  rw [eval_role setting hm]
  unfold runRole runForm Form.lambda
  dsimp only
  rw [elements_list, pure_bind, Form.parameters_distinct _ h [] fun _ _ => List.not_mem_nil, hlookup]
  cases more <;> rfl

include hm hp h hne in
/-- The form binds the parameters to the values, and then evaluates the body of the procedure. -/
theorem eval_callingMade (depth : Nat) (scope : Scope Structure) :
    eval setting (depth + 3) (Form.callingMade m bindings exprs) scope =
      evalAll (eval setting (depth + 2)) scope (bindings.map (·.2)) >>= fun values =>
        eval setting (depth + 2) (Form.oneBody p exprs) (scope.extend ((Level.names bindings).zip values)) := by
  change evalForm setting (eval setting (depth + 2)) (Form.making m bindings exprs) _ scope = _
  rw [evalForm_eq]
  -- the head is a form, so it is evaluated, and what it makes plays no role
  change (eval setting (depth + 2) (Form.making m bindings exprs) scope >>= _) = _
  rw [eval_making hm hp h hne, pure_bind]
  unfold headed
  change (elements _ >>= _) = _
  rw [elements_list, pure_bind]
  refine bind_congr_ends fun q => (evalAll_length _ _ _ q).mono (fun values _ hlength => ?_) fun _ _ h => h
  refine applyProcedure_distinct _ h ?_ _ _ _
  rw [hlength, List.length_map, Level.names, List.length_map]

include hprogn hne in
/-- The body of the procedure needs as high a bound as its expressions do one by one, or one more. -/
theorem oneBody_bounds (depth : Nat) (scope : Scope Structure) :
    Approximates (.depth setting.top) (Form.body (eval setting (depth + 1)) scope exprs)
        (eval setting (depth + 2) (Form.oneBody p exprs) scope) ∧
      Approximates (.depth setting.top) (eval setting (depth + 2) (Form.oneBody p exprs) scope)
        (Form.body (eval setting (depth + 2)) scope exprs) := by
  obtain ⟨first, more, rfl⟩ := List.exists_cons_of_ne_nil hne
  cases more with
  | nil => exact ⟨eval_approximates (depth + 1) 1 first scope, .refl _ _⟩
  | cons second more =>
    have heval : eval setting (depth + 2) (Form.oneBody p (first :: second :: more)) scope =
        Form.body (eval setting (depth + 1)) scope (first :: second :: more) := eval_role setting hprogn depth _ scope
    rw [heval]
    exact ⟨.refl _ _, Form.body_approximates (eval_approximates (depth + 1) 1) scope _⟩

include hl hm hp hprogn h hne in
theorem letting_approximates (depth : Nat) (scope : Scope Structure) :
    Approximates (.depth setting.top) (eval setting (depth + 2) (Form.letting l bindings exprs) scope)
      (eval setting (depth + 3) (Form.callingMade m bindings exprs) scope) := by
  rw [eval_letting hl h hne, eval_callingMade hm hp h hne]
  refine (evalAll_approximates (eval_approximates (depth + 1) 1) scope _).bind fun values => ?_
  exact (oneBody_bounds hprogn hne depth _).1

include hl hm hp hprogn h hne in
theorem callingMade_approximates (depth : Nat) (scope : Scope Structure) :
    Approximates (.depth setting.top) (eval setting (depth + 3) (Form.callingMade m bindings exprs) scope)
      (eval setting (depth + 3) (Form.letting l bindings exprs) scope) := by
  rw [eval_letting hl h hne, eval_callingMade hm hp h hne]
  exact .after _ fun values => (oneBody_bounds hprogn hne depth _).2

end

/-- In one and the same step, the form that evaluates expressions with names bound to values and the call of a
procedure made on the spot end in the same way: if the one ends in a value or a failure, and is not given up for going
too deep, then so does the other, with all the same done. No name of the environment at hand, no binding
of the scope, and nothing in the overlay has a say in that. -/
theorem letting_is_calling {setting : Setting} (hc : setting.context.Bootstrapped) {l m : Node}
    (hl : setting.context.player? (.form .letIn) = some (.node l))
    (hm : setting.context.player? (.form .lambda) = some (.node m)) {bindings : List (String × Structure)}
    (h : (bindings.map (·.1)).Nodup) {exprs : List Structure} (hne : exprs ≠ []) (scope : Scope Structure)
    (p : Progress) :
    (∀ r, Evaluates setting (Form.letting l bindings exprs) scope p r ↔
      Evaluates setting (Form.callingMade m bindings exprs) scope p r) ∧
    ∀ r r', Evaluates setting (Form.letting l bindings exprs) scope p r →
      Evaluates setting (Form.callingMade m bindings exprs) scope p r' → r = r' := by
  obtain ⟨q, hq, hprogn⟩ := hc.plays (.form .progn)
  have hletIn := hc.roleOf_player hl
  have hlambda := hc.roleOf_player hm
  have hforth : ∀ r, Evaluates setting (Form.letting l bindings exprs) scope p r →
      Evaluates setting (Form.callingMade m bindings exprs) scope p r := by
    refine fun r => .of_approximates 2 1 fun d hd => ?_
    obtain ⟨d, rfl⟩ := Nat.exists_eq_add_of_le' hd
    exact letting_approximates hletIn hlambda hq hprogn h hne d scope
  have hback : ∀ r, Evaluates setting (Form.callingMade m bindings exprs) scope p r →
      Evaluates setting (Form.letting l bindings exprs) scope p r := by
    refine fun r => .of_approximates 3 0 fun d hd => ?_
    obtain ⟨d, rfl⟩ := Nat.exists_eq_add_of_le' hd
    exact callingMade_approximates hletIn hlambda hq hprogn h hne d scope
  exact ⟨fun r => ⟨hforth r, hback r⟩, fun r r' hr hr' => (hforth r hr).unique hr'⟩

end Evaluator

/-- An agent at home that gives the name of a role to a node of its own. -/
def Turn.renaming : Turn where
  state := (Agent.spawn 2 (.node ⟨2, selfHandle⟩)).state
  depth := 3
  program := .list [.sym "def", .sym "progn", .int 5]

namespace Session

/-- Where the agent goes on after that. -/
def renamed (s : Session) : Progress := .start (s.played [.renaming]) Turn.renaming.state.place

/-- What it can consult there, with another meaning for the name of another role. -/
def shadowing (s : Session) : Setting := ⟨s.context, [("let", .int 7)], .nil⟩

/-- A number, and what the name of the role means by now. -/
def fiveBindings : List (String × Structure) := [("x", .int 1), ("y", .sym "progn")]

/-- Neither the node with the name of a role nor what the overlay says makes a difference. -/
theorem renamed_letting_is_calling : ∃ s f', Session.start .default "" ∅ = .ok s f' ∧
    s.shadowing.context.Bootstrapped ∧ s.shadowing.context.player? (.form .letIn) = some (.node ⟨1, 3⟩) ∧
    s.shadowing.context.player? (.form .lambda) = some (.node ⟨1, 2⟩) ∧ (fiveBindings.map (·.1)).Nodup ∧
    ∃ p, Evaluator.Evaluates s.shadowing (Form.letting ⟨1, 3⟩ fiveBindings [.sym "x", .sym "y"]) [] s.renamed
        (.ok (.int 5) p) ∧
      Evaluator.Evaluates s.shadowing (Form.callingMade ⟨1, 2⟩ fiveBindings [.sym "x", .sym "y"]) [] s.renamed
        (.ok (.int 5) p) := by
  have hrun : passes (Session.start .default "") ∅ (fun s _ =>
      (s.context.player? (.form .letIn)).any (·.same (.node ⟨1, 3⟩)) &&
      (s.context.player? (.form .lambda)).any (·.same (.node ⟨1, 2⟩)) &&
      passes (Evaluator.eval s.shadowing 3 (Form.letting ⟨1, 3⟩ fiveBindings [.sym "x", .sym "y"]) []) s.renamed
        (fun value _ => value.same (.int 5))) = true := by decide +kernel
  have hplayer : ∀ {o : Option Structure} {n : Node}, o.any (·.same (.node n)) = true → o = some (.node n) := by
    intro o n h
    cases o with
    | none => cases h
    | some s => exact congrArg some ((Structure.same_node s n).1 h)
  obtain ⟨s, f', hs, htests⟩ := exists_of_passes hrun
  simp only [Bool.and_eq_true] at htests
  obtain ⟨⟨hl, hm⟩, hvalue⟩ := htests
  obtain ⟨value, p, hok, hfive⟩ := exists_of_passes hvalue
  obtain rfl := (Structure.same_int value 5).1 hfive
  have hc : s.shadowing.context.Bootstrapped := start_bootstrapped hs
  have hletting : Evaluator.Evaluates s.shadowing (Form.letting ⟨1, 3⟩ fiveBindings [.sym "x", .sym "y"]) []
      s.renamed (.ok (.int 5) p) := ⟨3, hok, fun _ h => by cases h⟩
  have hsame := Evaluator.letting_is_calling hc (hplayer hl) (hplayer hm) (by decide : (fiveBindings.map (·.1)).Nodup)
    (List.cons_ne_nil (.sym "x") [.sym "y"]) [] s.renamed
  exact ⟨s, f', hs, hc, hplayer hl, hplayer hm, by decide, p, hletting, (hsame.1 _).1 hletting⟩

end Session

end GraphLisp
