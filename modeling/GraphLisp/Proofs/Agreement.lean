import GraphLisp.Proofs.Outcome
import GraphLisp.Proofs.Structure.Likeness
/-!
# Runs that agree

Two runs agree if they start from states alike and then either both end in values and states alike
or both fail, in states alike and with failures that are equal once the structure they blame is
flattened (`Agree`). Failures that are equal in this sense have the same kind and the same wording.
The rules below take two computations apart side by side.
-/

namespace GraphLisp

/-- The failure with the structure that it blames flattened. -/
def Fault.flattened : Fault → Fault
  | .notANode s => .notANode s.flattened
  | .importOfNoNode s => .importOfNoNode s.flattened
  | .badPattern s => .badPattern s.flattened
  | .notAnEnvironmentNode s => .notAnEnvironmentNode s.flattened
  | .expectedList s => .expectedList s.flattened
  | .improperList s => .improperList s.flattened
  | .improperRegion s => .improperRegion s.flattened
  | .regionHead s => .regionHead s.flattened
  | .regionEntry s => .regionEntry s.flattened
  | .notAPredicate s => .notAPredicate s.flattened
  | .playsRole s role => .playsRole s.flattened role
  | .playsNoRole s => .playsNoRole s.flattened
  | .undesignated s => .undesignated s.flattened
  | .notCallable s => .notCallable s.flattened
  | .roleNotCallable role s => .roleNotCallable role s.flattened
  | .formNotApplicable role s => .formNotApplicable role s.flattened
  | .arity form expected given s => .arity form expected given s.flattened
  | .parameter s => .parameter s.flattened
  | .letEntry s => .letEntry s.flattened
  | .defName s => .defName s.flattened
  | .notIntegers operator s => .notIntegers operator s.flattened
  | .divisionByZero s => .divisionByZero s.flattened
  | .expectsPair operator s => .expectsPair operator s.flattened
  | .expectsProperList s => .expectsProperList s.flattened
  | .expectsName s => .expectsName s.flattened
  | .selection s => .selection s.flattened
  | .jumpTarget s => .jumpTarget s.flattened
  | .depth s => .depth s.flattened
  | f => f

/-- Flattening the structure that a failure blames changes neither its kind nor its wording. -/
theorem Fault.report_flattened (f : Fault) :
    f.flattened.report = { f.report with offender := f.report.offender.map Structure.flattened } := by
  cases f with
  | noWormhole env predicate => cases predicate <;> rfl
  | _ => simp [flattened, report, Structure.flattened]

theorem Fault.offender_flattened (f : Fault) :
    f.flattened.offender = f.offender.map Structure.flattened := by
  rw [offender, offender, report_flattened]
  cases f.report.offender with
  | none => rfl
  | some s => cases s <;> rfl

/-- The wording does not show what flattening changes. -/
theorem Fault.isWritable_flattened (f : Fault) : f.flattened.isWritable = f.isWritable := by
  cases f with
  | playsRole s _ | playsNoRole s => exact Structure.isWritable_flattened s
  | _ => rfl

variable {σ α β γ δ : Type}

/-! ## Answers -/

/-- Two questions are answered alike. -/
inductive Answers (Q : α → β → Prop) : Except Fault α → Except Fault β → Prop where
  | ok {a : α} {b : β} (h : Q a b) : Answers Q (.ok a) (.ok b)
  | error {f g : Fault} (h : f.flattened = g.flattened) : Answers Q (.error f) (.error g)

section
variable {Q : α → β → Prop} {S : γ → δ → Prop}

theorem Answers.bind {x : Except Fault α} {y : Except Fault β} {f : α → Except Fault γ}
    {g : β → Except Fault δ} (h : Answers Q x y) (hf : ∀ a b, Q a b → Answers S (f a) (g b)) :
    Answers S (x >>= f) (y >>= g) := by
  cases h with
  | ok h => exact hf _ _ h
  | error h => exact .error h

theorem Answers.mono {x : Except Fault α} {y : Except Fault β} (h : Answers Q x y)
    {Q' : α → β → Prop} (hQ : ∀ a b, Q a b → Q' a b) : Answers Q' x y := by
  cases h with
  | ok h => exact .ok (hQ _ _ h)
  | error h => exact .error h

theorem answers_refl {Q : α → α → Prop} (h : ∀ a, Q a a) (x : Except Fault α) : Answers Q x x := by
  cases x with
  | ok a => exact .ok (h a)
  | error f => exact .error rfl

theorem answers_mapM {f : α → Except Fault γ} {g : β → Except Fault δ} {xs : List α} {ys : List β}
    (h : List.Forall₂ Q xs ys) (hf : ∀ a b, Q a b → Answers S (f a) (g b)) :
    Answers (List.Forall₂ S) (xs.mapM f) (ys.mapM g) := by
  induction h with
  | nil => exact .ok .nil
  | cons hx _ ih =>
    rw [List.mapM_cons, List.mapM_cons]
    exact (hf _ _ hx).bind fun c d hc => ih.bind fun cs ds hcs => .ok (.cons hc hcs)

end

/-! ## Computations -/

/-- Two computations end alike. -/
inductive Agreed (R : σ → σ → Prop) (Q : α → β → Prop) :
    EStateM.Result Fault σ α → EStateM.Result Fault σ β → Prop where
  | ok {a : α} {b : β} {s t : σ} (ha : Q a b) (hs : R s t) : Agreed R Q (.ok a s) (.ok b t)
  | error {f g : Fault} {s t : σ} (hf : f.flattened = g.flattened) (hs : R s t) :
    Agreed R Q (.error f s) (.error g t)

/-- What ends like a success is a success. -/
theorem Agreed.exists_ok {R : σ → σ → Prop} {Q : α → β → Prop} {x : EStateM.Result Fault σ α} {b : β} {t : σ}
    (h : Agreed R Q x (.ok b t)) : ∃ a s, x = .ok a s ∧ Q a b ∧ R s t := by
  cases h with
  | ok ha hs => exact ⟨_, _, rfl, ha, hs⟩

/-- From states alike, two computations end alike. -/
def Agree (R : σ → σ → Prop) (Q : α → β → Prop) (m : EStateM Fault σ α) (n : EStateM Fault σ β) :
    Prop :=
  ∀ s t, R s t → Agreed R Q (m s) (n t)

section
variable {R : σ → σ → Prop} {Q : α → β → Prop} {S : γ → δ → Prop}

theorem agree_pure {a : α} {b : β} (h : Q a b) : Agree R Q (pure a) (pure b) :=
  fun _ _ hs => .ok h hs

theorem agree_throw {f g : Fault} (h : f.flattened = g.flattened) :
    Agree R Q (throw f) (throw g) := fun _ _ hs => .error h hs

theorem agree_get : Agree R R get get := fun _ _ hs => .ok hs hs

theorem agree_modify {f g : σ → σ} (h : ∀ s t, R s t → R (f s) (g t)) :
    Agree R (fun _ _ => True) (modify f) (modify g) := fun s t hs => .ok trivial (h s t hs)

theorem agree_set {s t : σ} (h : R s t) : Agree R (fun _ _ => True) (set s) (set t) :=
  fun _ _ _ => .ok trivial h

theorem Agree.bind {m : EStateM Fault σ α} {n : EStateM Fault σ β} {f : α → EStateM Fault σ γ}
    {g : β → EStateM Fault σ δ} (h : Agree R Q m n) (hf : ∀ a b, Q a b → Agree R S (f a) (g b)) :
    Agree R S (m >>= f) (n >>= g) := by
  intro s t hs
  have h := h s t hs
  simp only [Bind.bind, EStateM.bind]
  generalize m s = x at h
  generalize n t = y at h
  cases h with
  | ok ha hs => exact hf _ _ ha _ _ hs
  | error hf hs => exact .error hf hs

theorem Agree.mono {m : EStateM Fault σ α} {n : EStateM Fault σ β} (h : Agree R Q m n)
    {Q' : α → β → Prop} (hQ : ∀ a b, Q a b → Q' a b) : Agree R Q' m n := by
  intro s t hs
  have h := h s t hs
  generalize m s = x at h ⊢
  generalize n t = y at h ⊢
  cases h with
  | ok ha hs => exact .ok (hQ _ _ ha) hs
  | error hf hs => exact .error hf hs

/-- A test with the same result on both sides. -/
theorem Agree.ite {c d : Prop} [Decidable c] [Decidable d] (hc : c ↔ d) {m m' : EStateM Fault σ α}
    {n n' : EStateM Fault σ β} (h : Agree R Q m n) (h' : Agree R Q m' n') :
    Agree R Q (if c then m else m') (if d then n else n') := by
  by_cases hd : d
  · rwa [if_pos (hc.2 hd), if_pos hd]
  · rwa [if_neg (fun x => hd (hc.1 x)), if_neg hd]

/-- An answer that is passed on. -/
theorem agree_of_answers (x : Except Fault α) (y : Except Fault β) : Answers Q x y →
    Agree R Q
      (match x with
        | .ok a => pure a
        | .error fault => throw fault)
      (match y with
        | .ok a => pure a
        | .error fault => throw fault)
  | .ok h => agree_pure h
  | .error h => agree_throw h

theorem Agree.after {m : EStateM Fault σ α} {n : EStateM Fault σ β} (h : Agree R Q m n) {s t : σ}
    (hs : R s t) : R (after m s) (after n t) := by
  have h := h s t hs
  unfold GraphLisp.after
  generalize m s = x at h ⊢
  generalize n t = y at h ⊢
  cases h with
  | ok _ hs => exact hs
  | error _ hs => exact hs

end

end GraphLisp
