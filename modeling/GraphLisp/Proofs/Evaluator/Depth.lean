import GraphLisp.Proofs.Evaluator.Parts
import GraphLisp.Proofs.Outcome
/-!
# Depth

How many evaluations may be inside each other decides only whether a step is given up for going too deep. What is
evaluated with a lower bound is given up, or ends as it does with a higher one (`Evaluator.eval_approximates`), so
that there is one way for it to end if it is not given up (`Evaluator.Evaluates`). Every form approximates itself in
this sense if evaluating its parts does.
-/

namespace GraphLisp

section
variable {ε σ α β : Type}

/-- Either the first computation fails with the fault, or the second one ends as the first one does. -/
def Approximates (fault : ε) (m n : EStateM ε σ α) : Prop :=
  ∀ s, (∃ t, m s = .error fault t) ∨ n s = m s

variable {fault : ε} {m n : EStateM ε σ α}

theorem Approximates.refl (fault : ε) (m : EStateM ε σ α) : Approximates fault m m := fun _ => .inr rfl

theorem approximates_throw (fault : ε) (n : EStateM ε σ α) : Approximates fault (throw fault) n :=
  fun s => .inl ⟨s, rfl⟩

/-- What goes on approximately after what is approximate. -/
theorem Approximates.bind {f g : α → EStateM ε σ β} (h : Approximates fault m n)
    (hf : ∀ a, Approximates fault (f a) (g a)) : Approximates fault (m >>= f) (n >>= g) := by
  intro s
  rcases h s with ⟨t, ht⟩ | hs
  · exact .inl ⟨t, bind_of_error ht⟩
  · cases hm : m s with
    | ok a t =>
      rw [bind_of_ok hm, bind_of_ok (hs.trans hm)]
      exact hf a t
    | error e t =>
      rw [bind_of_error hm, bind_of_error (hs.trans hm)]
      exact .inr rfl

/-- What goes on approximately after the same computation. -/
theorem Approximates.after (m : EStateM ε σ α) {f g : α → EStateM ε σ β}
    (hf : ∀ a, Approximates fault (f a) (g a)) : Approximates fault (m >>= f) (m >>= g) :=
  (Approximates.refl fault m).bind hf

/-- What goes on in the same way after what is approximate. -/
theorem Approximates.before (h : Approximates fault m n) (f : α → EStateM ε σ β) :
    Approximates fault (m >>= f) (n >>= f) := h.bind fun a => .refl fault (f a)

theorem Approximates.ite {c : Prop} [Decidable c] {m' n' : EStateM ε σ α} (h : Approximates fault m n)
    (h' : Approximates fault m' n') : Approximates fault (if c then m else m') (if c then n else n') := by
  split
  · exact h
  · exact h'

end

open Eval

/-! ## Forms -/

namespace Form

variable (setting : Setting) {ev ev' : Evaluate} {fault : Fault}
  (hev : ∀ s scope, Approximates fault (ev s scope) (ev' s scope))
include hev

theorem referent_approximates (s : Structure) (scope : Scope Structure) :
    Approximates fault (referent setting ev s scope) (referent setting ev' s scope) := by
  cases s with
  | sym name => exact .refl _ _
  | _ => exact hev _ scope

theorem designate_approximates (s : Structure) (scope : Scope Structure) :
    Approximates fault (designate setting ev s scope) (designate setting ev' s scope) := by
  rw [designate_eq, designate_eq]
  exact (referent_approximates setting hev s scope).before _

theorem body_approximates (scope : Scope Structure) (ss : List Structure) :
    Approximates fault (body ev scope ss) (body ev' scope ss) := by
  induction ss with
  | nil => exact .refl _ _
  | cons s rest ih =>
    cases rest with
    | nil => exact hev s scope
    | cons s' rest => exact (hev s scope).bind fun _ => ih

theorem letLevel_approximates (scope : Scope Structure) (entries : List Structure) :
    ∀ level, Approximates fault (letLevel ev scope level entries) (letLevel ev' scope level entries) := by
  induction entries with
  | nil => exact fun _ => .refl _ _
  | cons entry rest ih =>
    intro level
    cases entry with
    | pair a d =>
      unfold letLevel
      refine .after _ fun parts => ?_
      split
      · exact .ite (.refl _ _) ((hev _ scope).bind fun value => ih _)
      · exact .refl _ _
    | _ => exact .refl _ _

theorem letIn_approximates (args : List Structure) (scope : Scope Structure) (form : Structure) :
    Approximates fault (letIn ev args scope form) (letIn ev' args scope form) := by
  unfold letIn
  split
  · refine .after _ fun entries => ?_
    exact (letLevel_approximates hev scope entries []).bind fun level => body_approximates hev _ _
  · exact .refl _ _

theorem define_approximates (args : List Structure) (scope : Scope Structure) (form : Structure) :
    Approximates fault (define ev args scope form) (define ev' args scope form) := by
  unfold define
  split
  · exact .refl _ _
  · exact (hev _ scope).before _
  all_goals exact .refl _ _

theorem node_approximates (args : List Structure) (scope : Scope Structure) (form : Structure) :
    Approximates fault (node ev args scope form) (node ev' args scope form) := by
  unfold node
  split
  · exact .refl _ _
  · exact (hev _ scope).before _
  · exact .refl _ _

theorem set_approximates (args : List Structure) (scope : Scope Structure) (form : Structure) :
    Approximates fault (set setting ev args scope form) (set setting ev' args scope form) := by
  unfold set
  split
  · exact (designate_approximates setting hev _ scope).bind fun target => (hev _ scope).before _
  · exact .refl _ _

theorem tell_approximates (args : List Structure) (scope : Scope Structure) (form : Structure) :
    Approximates fault (tell setting ev args scope form) (tell setting ev' args scope form) := by
  unfold tell
  split
  · refine (designate_approximates setting hev _ scope).bind fun s => ?_
    refine (designate_approximates setting hev _ scope).bind fun p => ?_
    exact (designate_approximates setting hev _ scope).before _
  · exact .refl _ _

theorem patternPart_approximates (s : Structure) (scope : Scope Structure) :
    Approximates fault (patternPart setting ev s scope) (patternPart setting ev' s scope) :=
  (designate_approximates setting hev s scope).before _

theorem ask_approximates (args : List Structure) (scope : Scope Structure) (form : Structure) :
    Approximates fault (ask setting ev args scope form) (ask setting ev' args scope form) := by
  unfold ask
  split
  · refine (patternPart_approximates setting hev _ scope).bind fun s => ?_
    refine (patternPart_approximates setting hev _ scope).bind fun p => ?_
    exact (patternPart_approximates setting hev _ scope).before _
  · exact .refl _ _

theorem delete_approximates (args : List Structure) (scope : Scope Structure) (form : Structure) :
    Approximates fault (delete setting ev args scope form) (delete setting ev' args scope form) := by
  unfold delete
  split
  · exact (designate_approximates setting hev _ scope).before _
  · exact .refl _ _

theorem importNode_approximates (args : List Structure) (scope : Scope Structure) (form : Structure) :
    Approximates fault (importNode setting ev args scope form) (importNode setting ev' args scope form) := by
  unfold importNode
  split
  · exact (designate_approximates setting hev _ scope).before _
  · exact .refl _ _

theorem jump_approximates (args : List Structure) (scope : Scope Structure) (form : Structure) :
    Approximates fault (jump setting ev args scope form) (jump setting ev' args scope form) := by
  unfold jump
  split
  · exact (designate_approximates setting hev _ scope).before _
  · exact .refl _ _

theorem envJump_approximates (args : List Structure) (scope : Scope Structure) (form : Structure) :
    Approximates fault (envJump setting ev args scope form) (envJump setting ev' args scope form) := by
  unfold envJump
  split
  · exact (designate_approximates setting hev _ scope).before _
  · exact .refl _ _

theorem follow_approximates (args : List Structure) (scope : Scope Structure) (form : Structure) :
    Approximates fault (follow setting ev args scope form) (follow setting ev' args scope form) := by
  unfold follow
  split
  · exact .refl _ _
  · exact (designate_approximates setting hev _ scope).before _
  · exact .refl _ _

theorem compile_approximates (args : List Structure) (scope : Scope Structure) (form : Structure) :
    Approximates fault (compile setting ev args scope form) (compile setting ev' args scope form) := by
  unfold compile
  split
  · exact (designate_approximates setting hev _ scope).before _
  · exact (designate_approximates setting hev _ scope).bind fun target => (hev _ scope).before _
  · exact .refl _ _

theorem decompile_approximates (args : List Structure) (scope : Scope Structure) (form : Structure) :
    Approximates fault (decompile ev args scope form) (decompile ev' args scope form) := by
  unfold decompile
  split
  · exact (hev _ scope).before _
  · exact .refl _ _

end Form

/-! ## Evaluation -/

namespace Evaluator

section
variable (setting : Setting) {ev ev' : Form.Evaluate} {fault : Fault}
  (hev : ∀ s scope, Approximates fault (ev s scope) (ev' s scope))
include hev

theorem applyProcedure_approximates (params : List String) (body : Structure) (scope : Scope Structure)
    (values : List Structure) (form : Structure) :
    Approximates fault (applyProcedure ev params body scope values form)
      (applyProcedure ev' params body scope values form) :=
  .ite (.refl _ _) (hev _ _)

theorem applyValue_approximates (f : Structure) (values : List Structure) (form : Structure) :
    Approximates fault (applyValue setting ev f values form) (applyValue setting ev' f values form) := by
  unfold applyValue
  split
  · exact .refl _ _
  · exact .refl _ _
  · refine .after _ fun s => ?_
    split
    · exact applyProcedure_approximates hev _ _ _ _ _
    · exact .refl _ _

theorem evalAll_approximates (scope : Scope Structure) (ss : List Structure) :
    Approximates fault (evalAll ev scope ss) (evalAll ev' scope ss) := by
  induction ss with
  | nil => exact .refl _ _
  | cons s rest ih => exact (hev s scope).bind fun _ => ih.before _

theorem runForm_approximates (f : SpecialForm) (args : List Structure) (scope : Scope Structure)
    (form : Structure) :
    Approximates fault (runForm setting ev f args scope form) (runForm setting ev' f args scope form) := by
  cases f with
  | quote => exact .refl _ _
  | lambda => exact .refl _ _
  | letIn => exact Form.letIn_approximates hev args scope form
  | define => exact Form.define_approximates hev args scope form
  | node => exact Form.node_approximates hev args scope form
  | set => exact Form.set_approximates setting hev args scope form
  | tell => exact Form.tell_approximates setting hev args scope form
  | ask => exact Form.ask_approximates setting hev args scope form
  | jump => exact Form.jump_approximates setting hev args scope form
  | progn => exact Form.body_approximates hev scope args
  | cond =>
    unfold runForm
    dsimp only
    split
    · exact (hev _ scope).bind fun _ => .ite (hev _ scope) (.refl _ _)
    · exact (hev _ scope).bind fun _ => .ite (hev _ scope) (hev _ scope)
    · exact .refl _ _
  | eval =>
    unfold runForm
    dsimp only
    split
    · exact (hev _ scope).bind fun s => hev s scope
    · exact .refl _ _
  | apply =>
    unfold runForm
    dsimp only
    split
    · refine (hev _ scope).bind fun f => (hev _ scope).bind fun s => .after _ fun values => ?_
      exact applyValue_approximates setting hev f values form
    · exact .refl _ _
  | delete => exact Form.delete_approximates setting hev args scope form
  | envJump => exact Form.envJump_approximates setting hev args scope form
  | follow => exact Form.follow_approximates setting hev args scope form
  | compile => exact Form.compile_approximates setting hev args scope form
  | decompile => exact Form.decompile_approximates hev args scope form
  | reify => exact .refl _ _
  | importNode => exact Form.importNode_approximates setting hev args scope form

theorem runRole_approximates (r : Role) (args : List Structure) (scope : Scope Structure) (form : Structure) :
    Approximates fault (runRole setting ev r args scope form) (runRole setting ev' r args scope form) := by
  cases r with
  | form f => exact runForm_approximates setting hev f args scope form
  | builtin b => exact (evalAll_approximates hev scope args).before _
  | placeholder => exact .refl _ _

theorem headed_approximates (car cdr : Structure) (scope : Scope Structure) (head : Structure) :
    Approximates fault (headed setting ev car cdr scope head) (headed setting ev' car cdr scope head) := by
  unfold headed
  split
  · exact .after _ fun args => runRole_approximates setting hev _ args scope _
  · refine .after _ fun s => ?_
    split
    · refine .after _ fun args => (evalAll_approximates hev scope args).bind fun values => ?_
      exact applyProcedure_approximates hev _ _ _ values _
    · exact .refl _ _

theorem evalWith_approximates (s : Structure) (scope : Scope Structure) :
    Approximates fault (evalWith setting ev s scope) (evalWith setting ev' s scope) := by
  cases s with
  | pair car cdr =>
    change Approximates fault (evalForm setting ev car cdr scope) (evalForm setting ev' car cdr scope)
    rw [evalForm_eq, evalForm_eq]
    exact (Form.referent_approximates setting hev car scope).bind (headed_approximates setting hev car cdr scope)
  | _ => exact .refl _ _

end

variable {setting : Setting}

/-- With a higher bound evaluation ends as it does with a lower one, unless it is given up there. -/
theorem eval_approximates (depth more : Nat) (s : Structure) (scope : Scope Structure) :
    Approximates (.depth setting.top) (eval setting depth s scope) (eval setting (depth + more) s scope) := by
  induction depth generalizing s scope with
  | zero => exact approximates_throw _ _
  | succ depth ih =>
    rw [Nat.succ_add_eq_add_succ]
    exact evalWith_approximates setting ih s scope

/-! ## Ending at all -/

/-- Evaluation ends so, if evaluations may be inside each other deeply enough for it not to be given up. -/
def Evaluates (setting : Setting) (s : Structure) (scope : Scope Structure) (p : Progress)
    (r : EStateM.Result Fault Progress Structure) : Prop :=
  ∃ depth, eval setting depth s scope p = r ∧ ∀ q, r ≠ .error (.depth setting.top) q

variable {s : Structure} {scope : Scope Structure} {p : Progress} {r r' : EStateM.Result Fault Progress Structure}

/-- Any higher bound will do. -/
theorem eval_of_le {depth depth' : Nat} (h : eval setting depth s scope p = r)
    (hr : ∀ q, r ≠ .error (.depth setting.top) q) (hle : depth ≤ depth') : eval setting depth' s scope p = r := by
  obtain ⟨more, rfl⟩ := Nat.exists_eq_add_of_le hle
  rcases eval_approximates depth more s scope p with ⟨q, hq⟩ | heq
  · exact absurd (h.symm.trans hq) (hr q)
  · exact heq.trans h

/-- There is one way to end. -/
theorem Evaluates.unique (h : Evaluates setting s scope p r) (h' : Evaluates setting s scope p r') : r = r' := by
  obtain ⟨depth, h, hr⟩ := h
  obtain ⟨depth', h', hr'⟩ := h'
  rcases Nat.le_total depth depth' with hle | hle
  · exact (eval_of_le h hr hle).symm.trans h'
  · exact h.symm.trans (eval_of_le h' hr' hle)

/-- What approximates something else from some depth on ends as that does. -/
theorem Evaluates.of_approximates {t : Structure} (depth more : Nat)
    (h : ∀ d, depth ≤ d → Approximates (.depth setting.top) (eval setting d s scope) (eval setting (d + more) t scope))
    (hs : Evaluates setting s scope p r) : Evaluates setting t scope p r := by
  obtain ⟨d, hd, hr⟩ := hs
  have hhigh := eval_of_le hd hr (Nat.le_max_left d depth)
  rcases h _ (Nat.le_max_right d depth) p with ⟨q, hq⟩ | heq
  · exact absurd (hhigh.symm.trans hq) (hr q)
  · exact ⟨_, heq.trans hhigh, hr⟩

end Evaluator

end GraphLisp
