import GraphLisp.Proofs.Evaluator.Steady
import GraphLisp.Proofs.Session.Turns
/-!
# Calls

What the head of a form refers to can be called with values in two ways: the form itself can have it as its head,
or it can be given to the form that applies what it is given. The first way takes a name for the node that is named, the
second one for what that node means. Either way a node is then looked through once more, so that the two agree
unless a node that is named holds something that stands for another node, or plays a role and holds something
(`Evaluator.calls_agree`).
-/

namespace GraphLisp

open Eval

/-! ## Ending alike -/

section
variable {σ α β : Type}

/-- The same value, or failures of the same kind, and the same state. -/
inductive Kindred : EStateM.Result Fault σ α → EStateM.Result Fault σ α → Prop where
  | ok (a : α) (s : σ) : Kindred (.ok a s) (.ok a s)
  | error {f g : Fault} (h : f.kind = g.kind) (s : σ) : Kindred (.error f s) (.error g s)

theorem Kindred.refl (r : EStateM.Result Fault σ α) : Kindred r r := by
  cases r with
  | ok a s => exact .ok a s
  | error f s => exact .error rfl s

theorem Kindred.symm {r r' : EStateM.Result Fault σ α} (h : Kindred r r') : Kindred r' r := by
  cases h with
  | ok a s => exact .ok a s
  | error h s => exact .error h.symm s

theorem Kindred.trans {r r' r'' : EStateM.Result Fault σ α} (h : Kindred r r') (h' : Kindred r' r'') :
    Kindred r r'' := by
  cases h with
  | ok a s => exact h'
  | error h s =>
    cases h' with
    | error h' s => exact .error (h.trans h') s

theorem Kindred.bind {m m' : EStateM Fault σ α} {f g : α → EStateM Fault σ β} {s : σ} (h : Kindred (m s) (m' s))
    (hf : ∀ a t, m s = .ok a t → Kindred (f a t) (g a t)) : Kindred ((m >>= f) s) ((m' >>= g) s) := by
  simp only [Bind.bind, EStateM.bind]
  generalize m s = x at h hf
  generalize m' s = y at h
  cases h with
  | ok a t => exact hf a t rfl
  | error h t => exact .error h t

end

namespace Builtin

theorem quotient_kindred (form form' : Structure) (ds : List Int) (p : Progress) :
    ∀ n, Kindred (answer (quotient form n ds) p) (answer (quotient form' n ds) p) := by
  induction ds with
  | nil => exact fun _ => .refl _
  | cons d rest ih =>
    intro n
    unfold quotient
    split
    · exact .error (by rfl) p
    · exact ih _

/-- The form that a builtin was called in shows in the wording of a failure only. -/
theorem run_kindred (b : Builtin) (values : List Structure) (form form' : Structure) (p : Progress) :
    Kindred (b.run values form p) (b.run values form' p) := by
  unfold run
  split
  all_goals try first | exact .refl _ | exact .error (by rfl) p
  · split
    · exact .error (by rfl) p
    · exact .refl _
  · split
    · exact .error (by rfl) p
    · exact .error (by rfl) p
    · refine Kindred.bind (.refl _) fun ns p' _ => ?_
      split
      · exact (quotient_kindred form form' _ p' _).bind fun _ _ _ => .refl _
      · exact .refl _

end Builtin

namespace Form

/-- A form that returns the structure. -/
def quoted (q : Node) (s : Structure) : Structure := .list [.node q, s]

/-- A form with a head and values. -/
def calling (q : Node) (head : Structure) (values : List Structure) : Structure :=
  .pair head (.list (values.map (quoted q)))

/-- A form that applies what is given to values. -/
def applying (q a : Node) (head : Structure) (values : List Structure) : Structure :=
  .list [.node a, head, quoted q (.list values)]

end Form

namespace Evaluator

variable {setting : Setting} {scope : Scope Structure} {q a : Node}

/-- What is quoted is returned as it is. -/
theorem eval_quoted (hq : setting.context.roleOf (.node q) = some (.form .quote)) (depth : Nat) (s : Structure) :
    eval setting (depth + 2) (Form.quoted q s) scope = pure s := by
  unfold Form.quoted
  rw [eval_role setting hq]
  rfl

theorem evalAll_quoted (hq : setting.context.roleOf (.node q) = some (.form .quote)) (depth : Nat)
    (values : List Structure) :
    evalAll (eval setting (depth + 2)) scope (values.map (Form.quoted q)) = pure values := by
  induction values with
  | nil => rfl
  | cons s rest ih =>
    unfold evalAll
    rw [List.map_cons]
    dsimp only
    rw [eval_quoted hq, ih]
    rfl

/-- The form that a procedure was called in shows in the wording of a failure only. -/
theorem applyProcedure_kindred (ev : Form.Evaluate) (params : List String) (body : Structure)
    (inner : Scope Structure) (values : List Structure) (form form' : Structure) (p : Progress) :
    Kindred (applyProcedure ev params body inner values form p)
      (applyProcedure ev params body inner values form' p) := by
  unfold applyProcedure
  split
  · exact .error (by rfl) p
  · exact .refl _

theorem applyValue_kindred (ev : Form.Evaluate) (f : Structure) (values : List Structure) (form form' : Structure)
    (p : Progress) : Kindred (applyValue setting ev f values form p) (applyValue setting ev f values form' p) := by
  unfold applyValue
  cases setting.context.roleOf f with
  | some r =>
    cases r with
    | builtin b => exact Builtin.run_kindred b values form form' p
    | _ => exact .refl _
  | none =>
    refine Kindred.bind (.refl _) fun s p' _ => ?_
    cases s with
    | proc params body inner => exact applyProcedure_kindred ..
    | _ => exact .refl _

/-- A form whose head refers to something calls that with the values. -/
theorem headed_kindred (hq : setting.context.roleOf (.node q) = some (.form .quote)) (depth : Nat)
    (h found : Structure) (values : List Structure) (form : Structure) (p : Progress)
    (hform : ∀ f, setting.context.roleOf found ≠ some (.form f)) :
    Kindred (headed setting (eval setting (depth + 2)) h (.list (values.map (Form.quoted q))) scope found p)
      (applyValue setting (eval setting (depth + 2)) found values form p) := by
  unfold headed applyValue
  cases hr : setting.context.roleOf found with
  | some r =>
    dsimp only
    rw [elements_list, pure_bind]
    cases r with
    | form f => exact absurd hr (hform f)
    | builtin b =>
      unfold runRole
      dsimp only
      rw [evalAll_quoted hq, pure_bind]
      exact Builtin.run_kindred b values _ form p
    | placeholder => exact .error (by rfl) p
  | none =>
    refine Kindred.bind (.refl _) fun s p' _ => ?_
    cases s with
    | proc params body inner =>
      dsimp only
      rw [elements_list, pure_bind, evalAll_quoted hq, pure_bind]
      exact applyProcedure_kindred ..
    | _ => exact .error (by rfl) p'

/-- The form that applies what it is given evaluates that, and calls the value. -/
theorem eval_applying (hq : setting.context.roleOf (.node q) = some (.form .quote))
    (ha : setting.context.roleOf (.node a) = some (.form .apply)) (depth : Nat) (h : Structure)
    (values : List Structure) :
    eval setting (depth + 3) (Form.applying q a h values) scope = (eval setting (depth + 2) h scope >>= fun f =>
      applyValue setting (eval setting (depth + 2)) f values (Form.applying q a h values)) := by
  unfold Form.applying
  rw [eval_role setting ha]
  unfold runRole runForm
  dsimp only
  simp only [eval_quoted hq, pure_bind, elements_list]

/-- Where a node comes to be called, it makes no difference if what it means is called, unless that is another
node or the node plays a role. -/
theorem applyValue_meaning {n : Node} {p : Progress} (depth : Nat) (values : List Structure) (form : Structure)
    (hn : meaning n p = .ok (.node n) p ∨
      (setting.context.roleOf (.node n) = none ∧ ∀ m, meaning n p ≠ .ok (.node m) p)) :
    Kindred (applyValue setting (eval setting depth) (.node n) values form p)
      ((meaning n >>= fun s => applyValue setting (eval setting depth) s values form) p) := by
  rcases hn with hn | ⟨hrole, hn⟩
  · rw [bind_of_ok hn]
    exact .refl _
  · unfold applyValue operator
    rw [hrole]
    dsimp only
    refine Kindred.bind (.refl _) fun s p' hs => ?_
    obtain rfl : p = p' := (meaning_keeps n p rfl).of_ok hs
    cases s with
    | node m => exact absurd hs (hn m)
    | proc params body inner => exact .refl _
    | _ => exact .error (by rfl) p

end Evaluator

/-- The head is not the name of a node that holds a node itself, or that plays a role and holds something. -/
def Form.Straight (setting : Setting) (scope : Scope Structure) (h : Structure) (p : Progress) : Prop :=
  ∀ name n, h = .sym name → namesNode setting name scope = true → resolve setting name scope p = .ok (.node n) p →
    meaning n p = .ok (.node n) p ∨
      (setting.context.roleOf (.node n) = none ∧ ∀ m, meaning n p ≠ .ok (.node m) p)

namespace Evaluator

variable {setting : Setting} {scope : Scope Structure} {q a : Node} {p : Progress}

/-- The value of a name, given what it refers to. -/
theorem lookup_of_resolve {name : String} {found : Structure} (h : resolve setting name scope p = .ok found p) :
    lookup setting name scope p =
      (match found with
      | .node n => if namesNode setting name scope then meaning n else pure (.node n)
      | s => pure s : Eval Structure) p := by
  unfold lookup
  rw [bind_of_ok h]
  cases found <;> rfl

/-- To apply what a straight head means is to apply what it refers to. -/
theorem applyValue_referent (depth : Nat) {h : Structure} (hstraight : Form.Straight setting scope h p)
    (values : List Structure) (form : Structure) :
    Kindred
      ((Form.referent setting (eval setting (depth + 1)) h scope >>= fun f =>
        applyValue setting (eval setting (depth + 1)) f values form) p)
      ((eval setting (depth + 1) h scope >>= fun f =>
        applyValue setting (eval setting (depth + 1)) f values form) p) := by
  cases h with
  | sym name =>
    change Kindred ((resolve setting name scope >>= _) p) ((lookup setting name scope >>= _) p)
    cases hfound : resolve setting name scope p with
    | error fault p' =>
      have hlookup : lookup setting name scope p = .error fault p' := bind_of_error hfound
      rw [bind_of_error hfound, bind_of_error hlookup]
      exact .refl _
    | ok found p' =>
      obtain rfl : p = p' := (resolve_keeps setting name scope p rfl).of_ok hfound
      have hlookup := lookup_of_resolve hfound
      rw [bind_of_ok hfound]
      cases found with
      | node n =>
        cases hnames : namesNode setting name scope with
        | true =>
          simp only [hnames, ↓reduceIte] at hlookup
          refine (applyValue_meaning _ values form (hstraight name n rfl hnames hfound)).trans ?_
          simp only [Bind.bind, EStateM.bind, hlookup]
          exact .refl _
        | false =>
          simp only [hnames, Bool.false_eq_true, ↓reduceIte] at hlookup
          rw [bind_of_ok hlookup]
          exact .refl _
      | _ =>
        rw [bind_of_ok hlookup]
        exact .refl _
  | _ => exact .refl _

/-- A form with a head and values calls what the head refers to. -/
theorem eval_calling (hq : setting.context.roleOf (.node q) = some (.form .quote)) (depth : Nat) {h : Structure}
    (values : List Structure) (form : Structure)
    (hform : ∀ found p', Form.referent setting (eval setting (depth + 2)) h scope p = .ok found p' →
      ∀ f, setting.context.roleOf found ≠ some (.form f)) :
    Kindred (eval setting (depth + 3) (Form.calling q h values) scope p)
      ((Form.referent setting (eval setting (depth + 2)) h scope >>= fun f =>
        applyValue setting (eval setting (depth + 2)) f values form) p) := by
  change Kindred (evalForm setting (eval setting (depth + 2)) h (.list (values.map (Form.quoted q))) scope p) _
  rw [evalForm_eq]
  refine Kindred.bind (.refl _) fun found p' hfound => ?_
  exact headed_kindred hq depth h found values form p' (hform found p' hfound)

/-- In one and the same step, calling the head of a form with values, and applying it to them, end alike: in the same
value and with all the same done, or in failures of the same kind. The head must not denote a special form, and it
must be straight. Of a name, the one way calls the node that is named, and the other way what that node means; the
name of a node that plays no role and holds another node cannot be called at all. -/
theorem calls_agree (hq : setting.context.roleOf (.node q) = some (.form .quote))
    (ha : setting.context.roleOf (.node a) = some (.form .apply)) (depth : Nat) (h : Structure)
    (values : List Structure)
    (hform : ∀ found p', Form.referent setting (eval setting (depth + 2)) h scope p = .ok found p' →
      ∀ f, setting.context.roleOf found ≠ some (.form f)) :
    (Form.Straight setting scope h p →
      Kindred (eval setting (depth + 3) (Form.calling q h values) scope p)
        (eval setting (depth + 3) (Form.applying q a h values) scope p)) ∧
    ∀ name n s, h = .sym name → namesNode setting name scope = true →
      resolve setting name scope p = .ok (.node n) p → meaning n p = .ok s p →
      Kindred (eval setting (depth + 3) (Form.calling q h values) scope p)
        (eval setting (depth + 3) (Form.calling q (.node n) values) scope p) ∧
      Kindred (eval setting (depth + 3) (Form.applying q a h values) scope p)
        (eval setting (depth + 3) (Form.applying q a (Form.quoted q s) values) scope p) ∧
      (setting.context.roleOf (.node n) = none → ∀ m, s = .node m →
        eval setting (depth + 3) (Form.calling q h values) scope p = .error (.notCallable h) p) := by
  refine ⟨fun hstraight => ?_, ?_⟩
  · rw [eval_applying hq ha]
    exact (eval_calling hq depth values _ hform).trans (applyValue_referent _ hstraight values _)
  · rintro name n s rfl hnames hfound hmeans
    refine ⟨?_, ?_, ?_⟩
    · have hnode : Kindred (eval setting (depth + 3) (Form.calling q (.node n) values) scope p) _ :=
        eval_calling hq depth values .nil fun found p' hfound' => by
          cases hfound'
          exact hform _ p hfound
      have hcall := eval_calling hq depth values .nil hform
      change Kindred _ ((resolve setting name scope >>= _) p) at hcall
      rw [bind_of_ok hfound] at hcall
      exact hcall.trans hnode.symm
    · have hlookup : eval setting (depth + 2) (.sym name) scope p = .ok s p := by
        refine (lookup_of_resolve hfound).trans ?_
        simp only [hnames, ↓reduceIte]
        exact hmeans
      rw [eval_applying hq ha, eval_applying hq ha, bind_of_ok hlookup, eval_quoted hq, pure_bind]
      exact applyValue_kindred ..
    · rintro hrole m rfl
      change evalForm setting _ (.sym name) _ scope p = _
      rw [evalForm_eq]
      change (resolve setting name scope >>= _) p = _
      rw [bind_of_ok hfound]
      unfold headed operator
      rw [hrole]
      exact bind_of_ok hmeans

end Evaluator

/-- An agent at home that gives another name to a builtin. -/
def Turn.aliasing : Turn where
  state := (Agent.spawn 2 (.node ⟨2, selfHandle⟩)).state
  depth := 3
  program := .list [.sym "def", .sym "f", .sym "car"]

namespace Session

/-- Where the agent goes on after that. -/
def aliased (s : Session) : Progress := .start (s.played [.aliasing]) Turn.aliasing.state.place

/-- What it can consult there. -/
def consulting (s : Session) : Setting := ⟨s.context, [], .nil⟩

/-- A name of a builtin, called with a list. -/
def called (s : Session) (name : String) : Eval Structure :=
  Evaluator.eval s.consulting 3 (Form.calling ⟨1, 1⟩ (.sym name) [.list [.int 1, .int 2]]) []

/-- The name, applied to the list. -/
def applied (s : Session) (name : String) : Eval Structure :=
  Evaluator.eval s.consulting 3 (Form.applying ⟨1, 1⟩ ⟨1, 13⟩ (.sym name) [.list [.int 1, .int 2]]) []

/-- The builtin has its own name, and the other name is that of a node that holds its node. -/
theorem exists_aliased : ∃ s f', Session.start .default "" ∅ = .ok s f' ∧
    s.context.roleOf (.node ⟨1, 1⟩) = some (.form .quote) ∧ s.context.roleOf (.node ⟨1, 13⟩) = some (.form .apply) ∧
    s.context.roleOf (.node ⟨1, 21⟩) = some (.builtin .car) ∧ s.context.roleOf (.node ⟨2, 1⟩) = none ∧
    resolve s.consulting "car" [] s.aliased = .ok (.node ⟨1, 21⟩) s.aliased ∧
    meaning ⟨1, 21⟩ s.aliased = .ok (.node ⟨1, 21⟩) s.aliased ∧
    resolve s.consulting "f" [] s.aliased = .ok (.node ⟨2, 1⟩) s.aliased ∧
    meaning ⟨2, 1⟩ s.aliased = .ok (.node ⟨1, 21⟩) s.aliased := by
  have hrun : passes (Session.start .default "") ∅ (fun s _ =>
      decide (s.context.roleOf (.node ⟨1, 1⟩) = some (.form .quote)) &&
      decide (s.context.roleOf (.node ⟨1, 13⟩) = some (.form .apply)) &&
      decide (s.context.roleOf (.node ⟨1, 21⟩) = some (.builtin .car)) &&
      decide (s.context.roleOf (.node ⟨2, 1⟩) = none) &&
      passes (resolve s.consulting "car" []) s.aliased (fun found _ => found.same (.node ⟨1, 21⟩)) &&
      passes (meaning ⟨1, 21⟩) s.aliased (fun found _ => found.same (.node ⟨1, 21⟩)) &&
      passes (resolve s.consulting "f" []) s.aliased (fun found _ => found.same (.node ⟨2, 1⟩)) &&
      passes (meaning ⟨2, 1⟩) s.aliased (fun found _ => found.same (.node ⟨1, 21⟩))) = true := by decide +kernel
  have hstay : ∀ {m : Eval Structure} {p : Progress} {n : Node}, Preserves (p = ·) m →
      passes m p (fun found _ => found.same (.node n)) = true → m p = .ok (.node n) p := by
    intro m p n hm h
    obtain ⟨found, p', hok, hfound⟩ := exists_of_passes h
    obtain rfl : p = p' := (hm p rfl).of_ok hok
    rw [hok, (Structure.same_node found n).1 hfound]
  obtain ⟨s, f', hs, htests⟩ := exists_of_passes hrun
  simp only [Bool.and_eq_true, decide_eq_true_eq] at htests
  obtain ⟨⟨⟨⟨⟨⟨⟨hq, ha⟩, hcar⟩, hnone⟩, hname⟩, hself⟩, halias⟩, hholds⟩ := htests
  exact ⟨s, f', hs, hq, ha, hcar, hnone, hstay (resolve_keeps _ _ _) hname, hstay (meaning_keeps _) hself,
    hstay (resolve_keeps _ _ _) halias, hstay (meaning_keeps _) hholds⟩

/-- By its own name the builtin is called and applied alike. -/
theorem car_called_alike : ∃ s f', Session.start .default "" ∅ = .ok s f' ∧
    s.context.roleOf (.node ⟨1, 1⟩) = some (.form .quote) ∧ s.context.roleOf (.node ⟨1, 13⟩) = some (.form .apply) ∧
    resolve s.consulting "car" [] s.aliased = .ok (.node ⟨1, 21⟩) s.aliased ∧
    s.context.roleOf (.node ⟨1, 21⟩) = some (.builtin .car) ∧
    Form.Straight s.consulting [] (.sym "car") s.aliased ∧ Kindred (s.called "car" s.aliased) (s.applied "car" s.aliased) := by
  obtain ⟨s, f', hs, hq, ha, hcar, -, hname, hself, -, -⟩ := exists_aliased
  have hform : ∀ found p', Form.referent s.consulting (Evaluator.eval s.consulting 2) (.sym "car") [] s.aliased =
      .ok found p' → ∀ f, s.consulting.context.roleOf found ≠ some (.form f) := by
    intro found p' h f hf
    cases hname.symm.trans h
    cases hcar.symm.trans hf
  have hstraight : Form.Straight s.consulting [] (.sym "car") s.aliased := by
    rintro name n ⟨⟩ - h
    cases hname.symm.trans h
    exact .inl hself
  exact ⟨s, f', hs, hq, ha, hname, hcar, hstraight,
    (Evaluator.calls_agree hq ha 0 (.sym "car") [.list [.int 1, .int 2]] hform).1 hstraight⟩

/-- By the other name the builtin is applied, but it cannot be called. -/
theorem alias_not_called : ∃ s f', Session.start .default "" ∅ = .ok s f' ∧
    s.context.roleOf (.node ⟨1, 1⟩) = some (.form .quote) ∧ s.context.roleOf (.node ⟨1, 13⟩) = some (.form .apply) ∧
    resolve s.consulting "f" [] s.aliased = .ok (.node ⟨2, 1⟩) s.aliased ∧ s.context.roleOf (.node ⟨2, 1⟩) = none ∧
    (∃ p, s.applied "f" s.aliased = .ok (.int 1) p) ∧
    (∃ f p, s.called "f" s.aliased = .error f p ∧ f.kind = .typeMismatch) ∧
    ¬Kindred (s.called "f" s.aliased) (s.applied "f" s.aliased) := by
  have hrun : passes (Session.start .default "") ∅ (fun s _ =>
      passes (s.applied "f") s.aliased (fun value _ => value.same (.int 1)) &&
      fails (s.called "f") s.aliased (fun f => decide (f.kind = .typeMismatch))) = true := by decide +kernel
  obtain ⟨s, f', hs, hq, ha, -, hnone, -, -, halias, -⟩ := exists_aliased
  obtain ⟨s', f'', hs', htests⟩ := exists_of_passes hrun
  cases hs.symm.trans hs'
  obtain ⟨happlied, hcalled⟩ := Bool.and_eq_true_iff.1 htests
  obtain ⟨value, p, hok, hone⟩ := exists_of_passes happlied
  obtain ⟨f, p', herror, hkind⟩ := exists_of_fails hcalled
  obtain rfl := (Structure.same_int value 1).1 hone
  refine ⟨s, f', hs, hq, ha, halias, hnone, ⟨p, hok⟩, ⟨f, p', herror, of_decide_eq_true hkind⟩, fun h => ?_⟩
  rw [hok, herror] at h
  cases h

end Session

end GraphLisp
