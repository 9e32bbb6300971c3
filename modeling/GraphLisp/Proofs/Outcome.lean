/-!
# How computations end

`Ends m s Q E` says that running `m` from the state `s` ends in `Q`, or fails in `E`: `Q` is about
the value and the state, `E` about the failure and the state. The rules below take a computation
apart along its steps, so that a property of an operation is a property of its tests and changes.
`after m s` is the state that is left either way, and `Preserves I m` says that an invariant holds of it
if it held before.
-/

namespace GraphLisp

variable {ε σ α β : Type}

/-- Running `m` from `s` ends in `Q`, or fails in `E`. -/
def Ends (m : EStateM ε σ α) (s : σ) (Q : α → σ → Prop) (E : ε → σ → Prop) : Prop :=
  match m s with
  | .ok a s => Q a s
  | .error e s => E e s

/-- The state that running `m` from `s` leaves, whether or not it fails. -/
def after (m : EStateM ε σ α) (s : σ) : σ :=
  match m s with
  | .ok _ s => s
  | .error _ s => s

section
variable {s : σ} {Q : α → σ → Prop} {E : ε → σ → Prop}

@[simp] theorem ends_pure (a : α) : Ends (pure a : EStateM ε σ α) s Q E ↔ Q a s := Iff.rfl

@[simp] theorem ends_throw (e : ε) : Ends (throw e : EStateM ε σ α) s Q E ↔ E e s := Iff.rfl

@[simp] theorem ends_get {Q : σ → σ → Prop} : Ends (get : EStateM ε σ σ) s Q E ↔ Q s s := Iff.rfl

@[simp] theorem ends_set (t : σ) {Q : PUnit → σ → Prop} :
    Ends (set t : EStateM ε σ PUnit) s Q E ↔ Q ⟨⟩ t := Iff.rfl

@[simp] theorem ends_modify (f : σ → σ) {Q : PUnit → σ → Prop} :
    Ends (modify f : EStateM ε σ PUnit) s Q E ↔ Q ⟨⟩ (f s) := Iff.rfl

theorem ends_bind (m : EStateM ε σ α) (f : α → EStateM ε σ β) {Q : β → σ → Prop} :
    Ends (m >>= f) s Q E ↔ Ends m s (fun a s => Ends (f a) s Q E) E := by
  simp only [Ends, bind, EStateM.bind]
  cases m s <;> rfl

theorem ends_ite (c : Prop) [Decidable c] (m n : EStateM ε σ α) :
    Ends (if c then m else n) s Q E ↔ (c → Ends m s Q E) ∧ (¬c → Ends n s Q E) := by
  by_cases h : c <;> simp [h]

theorem Ends.mono {m : EStateM ε σ α} {Q' : α → σ → Prop} {E' : ε → σ → Prop}
    (h : Ends m s Q E) (hQ : ∀ a t, Q a t → Q' a t) (hE : ∀ e t, E e t → E' e t) :
    Ends m s Q' E' := by
  unfold Ends at h ⊢
  cases hm : m s with
  | ok a t => rw [hm] at h; exact hQ a t h
  | error e t => rw [hm] at h; exact hE e t h

theorem Ends.and {m : EStateM ε σ α} {Q' : α → σ → Prop} {E' : ε → σ → Prop} (h : Ends m s Q E)
    (h' : Ends m s Q' E') : Ends m s (fun a t => Q a t ∧ Q' a t) fun e t => E e t ∧ E' e t := by
  unfold Ends at h h' ⊢
  cases hm : m s with
  | ok a t => rw [hm] at h h'; exact ⟨h, h'⟩
  | error e t => rw [hm] at h h'; exact ⟨h, h'⟩

theorem Ends.always {m : EStateM ε σ α} (hQ : ∀ a t, Q a t) (hE : ∀ e t, E e t) : Ends m s Q E := by
  unfold Ends
  cases m s with
  | ok a t => exact hQ a t
  | error e t => exact hE e t

/-- A computation that goes on from where another one ends. -/
theorem Ends.bind {m : EStateM ε σ α} {f : α → EStateM ε σ β} {R : α → σ → Prop} {F : ε → σ → Prop}
    {Q : β → σ → Prop} (h : Ends m s R F) (hf : ∀ a t, R a t → Ends (f a) t Q E)
    (hE : ∀ e t, F e t → E e t) : Ends (m >>= f) s Q E :=
  (ends_bind m f).2 (h.mono hf hE)

/-- A computation that goes on after a test, which changes nothing. -/
theorem Ends.test {m : EStateM ε σ α} {f : α → EStateM ε σ β} {R : α → Prop} {F : ε → σ → Prop}
    {Q : β → σ → Prop} (h : Ends m s (fun a t => t = s ∧ R a) F) (hf : ∀ a, R a → Ends (f a) s Q E)
    (hE : ∀ e t, F e t → E e t) : Ends (m >>= f) s Q E :=
  h.bind (fun a _ ⟨ht, hr⟩ => ht ▸ hf a hr) hE

/-- What a computation ends in, if it is known how it ends. -/
theorem Ends.of_ok {m : EStateM ε σ α} {a : α} {t : σ} (h : Ends m s Q E) (hm : m s = .ok a t) :
    Q a t := by
  unfold Ends at h; rwa [hm] at h

theorem Ends.of_error {m : EStateM ε σ α} {e : ε} {t : σ} (h : Ends m s Q E)
    (hm : m s = .error e t) : E e t := by
  unfold Ends at h; rwa [hm] at h

/-- What follows on a computation that succeeds. -/
theorem bind_of_ok {m : EStateM ε σ α} {f : α → EStateM ε σ β} {a : α} {t : σ} (hm : m s = .ok a t) :
    (m >>= f) s = f a t := by
  change EStateM.bind m f s = f a t
  unfold EStateM.bind
  rw [hm]

/-- What follows on a computation that fails is not run. -/
theorem bind_of_error {m : EStateM ε σ α} {f : α → EStateM ε σ β} {e : ε} {t : σ} (hm : m s = .error e t) :
    (m >>= f) s = .error e t := by
  change EStateM.bind m f s = .error e t
  unfold EStateM.bind
  rw [hm]

/-- It is enough to go on in the same way with what a computation can end in. -/
theorem bind_congr_ends {m : EStateM ε σ α} {f g : α → EStateM ε σ β}
    (h : ∀ s, Ends m s (fun a _ => f a = g a) fun _ _ => True) : m >>= f = m >>= g := by
  funext s
  cases hm : m s with
  | ok a t => rw [bind_of_ok hm, bind_of_ok hm, (h s).of_ok hm]
  | error e t => rw [bind_of_error hm, bind_of_error hm]

theorem get_bind {f : σ → EStateM ε σ β} : (get >>= f) s = f s s := rfl

theorem modify_bind {g : σ → σ} {f : PUnit → EStateM ε σ β} : (modify g >>= f) s = f ⟨⟩ (g s) := rfl

theorem ok_of_toOption {r : Except ε α} {a : α} (h : r.toOption = some a) : r = .ok a := by
  cases r with
  | ok b => cases h; rfl
  | error e => cases h

/-- Running `m` from `s` ends in a value and a state that pass a test. -/
def passes (m : EStateM ε σ α) (s : σ) (test : α → σ → Bool) : Bool :=
  match m s with
  | .ok a t => test a t
  | .error .. => false

theorem exists_of_passes {m : EStateM ε σ α} {test : α → σ → Bool} (h : passes m s test = true) :
    ∃ a t, m s = .ok a t ∧ test a t = true := by
  unfold passes at h
  cases hm : m s with
  | ok a t => rw [hm] at h; exact ⟨a, t, rfl, h⟩
  | error e t => rw [hm] at h; cases h

/-- Running `m` from `s` fails, and the failure passes a test. -/
def fails (m : EStateM ε σ α) (s : σ) (test : ε → Bool) : Bool :=
  match m s with
  | .ok .. => false
  | .error e _ => test e

theorem exists_of_fails {m : EStateM ε σ α} {test : ε → Bool} (h : fails m s test = true) :
    ∃ e t, m s = .error e t ∧ test e = true := by
  unfold fails at h
  cases hm : m s with
  | ok a t => rw [hm] at h; cases h
  | error e t => rw [hm] at h; exact ⟨e, t, rfl, h⟩

/-- A computation that cannot fail ends in a value. -/
theorem Ends.exists_ok {m : EStateM ε σ α} (h : Ends m s Q fun _ _ => False) :
    ∃ a t, m s = .ok a t ∧ Q a t := by
  unfold Ends at h
  cases hm : m s with
  | ok a t => rw [hm] at h; exact ⟨a, t, rfl, h⟩
  | error e t => rw [hm] at h; exact h.elim

theorem Ends.eq_ok {m : EStateM ε σ α} {a : α} {t : σ} (h : Ends m s (fun b u => b = a ∧ u = t) fun _ _ => False) :
    m s = .ok a t := by
  obtain ⟨b, u, hm, rfl, rfl⟩ := h.exists_ok
  exact hm

theorem Ends.eq_error {m : EStateM ε σ α} {e : ε} {t : σ}
    (h : Ends m s (fun _ _ => False) fun f u => f = e ∧ u = t) : m s = .error e t := by
  unfold Ends at h
  cases hm : m s with
  | ok a u => rw [hm] at h; exact h.elim
  | error f u =>
    rw [hm] at h
    rw [h.1, h.2]

theorem Ends.after {m : EStateM ε σ α} {P : σ → Prop} (h : Ends m s (fun _ => P) fun _ => P) :
    P (after m s) := by
  unfold Ends at h; unfold GraphLisp.after
  cases hm : m s with
  | ok a t => rw [hm] at h; exact h
  | error e t => rw [hm] at h; exact h

end

/-! ## Invariants -/

/-- A computation keeps an invariant, whether or not it fails. -/
def Preserves (I : σ → Prop) (m : EStateM ε σ α) : Prop :=
  ∀ s, I s → Ends m s (fun _ => I) fun _ => I

section
variable {I : σ → Prop}

theorem preserves_pure (a : α) : Preserves I (pure a : EStateM ε σ α) := fun _ h => h

theorem preserves_throw (e : ε) : Preserves I (throw e : EStateM ε σ α) := fun _ h => h

theorem preserves_get : Preserves I (get : EStateM ε σ σ) := fun _ h => h

theorem Preserves.bind {m : EStateM ε σ α} {f : α → EStateM ε σ β} (hm : Preserves I m)
    (hf : ∀ a, Preserves I (f a)) : Preserves I (m >>= f) :=
  fun s hs => (hm s hs).bind (fun a t ht => hf a t ht) fun _ _ h => h

end

/-- A computation keeps an invariant, and it fails in some ways only. -/
def Sustains (I : σ → Prop) (F : ε → Prop) (m : EStateM ε σ α) : Prop :=
  ∀ s, I s → Ends m s (fun _ => I) fun e t => I t ∧ F e

section
variable {I : σ → Prop} {F : ε → Prop}

theorem Sustains.preserves {m : EStateM ε σ α} (hm : Sustains I F m) : Preserves I m := fun s hs =>
  (hm s hs).mono (fun _ _ h => h) fun _ _ h => h.1

theorem sustains_pure (a : α) : Sustains I F (pure a : EStateM ε σ α) := fun _ h => h

theorem sustains_throw {e : ε} (he : F e) : Sustains I F (throw e : EStateM ε σ α) := fun _ h => ⟨h, he⟩

theorem sustains_modify {f : σ → σ} (h : ∀ s, I s → I (f s)) :
    Sustains I F (modify f : EStateM ε σ PUnit) := fun s hs => h s hs

theorem Sustains.bind {m : EStateM ε σ α} {f : α → EStateM ε σ β} (hm : Sustains I F m)
    (hf : ∀ a, Sustains I F (f a)) : Sustains I F (m >>= f) :=
  fun s hs => (hm s hs).bind (fun a t ht => hf a t ht) fun _ _ h => h

/-- What goes on with the state knows that the invariant holds of it. -/
theorem sustains_get {f : σ → EStateM ε σ α} (hf : ∀ s, I s → Sustains I F (f s)) :
    Sustains I F (get >>= f) := fun s hs => hf s hs s hs

theorem Sustains.ite {c : Prop} [Decidable c] {m n : EStateM ε σ α} (hm : Sustains I F m)
    (hn : Sustains I F n) : Sustains I F (if c then m else n) := by
  split
  · exact hm
  · exact hn

end

end GraphLisp
