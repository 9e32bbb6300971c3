import Mathlib.Data.List.Forall2
import GraphLisp.Proofs.Environment.Restore
/-!
# Checks

A reader of snapshots gives what it has read or refuses it as damaged. `Tells w right x` says that `x` does
one of the two: what it gives is `right`, and a damage can be put in words if `w` holds, which will be that
every number in what was read can. `Checks w good right x` says in addition that `x` is refused exactly if
it is not `good`. Checks one after the other are one check (`Checks.bind`), and so are the rows of a
section (`Checks.foldlM`).
-/

namespace GraphLisp

variable {α β ε : Type} {w good goal : Prop} {right : α → Prop}

/-- What is given is as it should be, and what is refused is damaged. -/
inductive Tells (w : Prop) (right : α → Prop) : Except Fault α → Prop where
  | gave {a : α} (ha : right a) : Tells w right (.ok a)
  | refused {d : Damage} (hd : w → d.isWritable = true) : Tells w right (.error (.corrupt d))

/-- What is good is given as it should be, and anything else is refused as damaged. -/
inductive Checks (w good : Prop) (right : α → Prop) : Except Fault α → Prop where
  | passed {a : α} (hg : good) (ha : right a) : Checks w good right (.ok a)
  | refused {d : Damage} (hg : ¬good) (hd : w → d.isWritable = true) :
      Checks w good right (.error (.corrupt d))

namespace Tells

theorem bind {right' : β → Prop} {x : Except Fault α} {f : α → Except Fault β} (h : Tells w right x)
    (hf : ∀ a, right a → Tells w right' (f a)) : Tells w right' (x >>= f) := by
  cases h with
  | gave ha => exact hf _ ha
  | refused hd => exact .refused hd

theorem mono {w' : Prop} {x : Except Fault α} (h : Tells w right x) (hw : w' → w) {right' : α → Prop}
    (hr : ∀ a, right a → right' a) : Tells w' right' x := by
  cases h with
  | gave ha => exact .gave (hr _ ha)
  | refused hd => exact .refused fun h => hd (hw h)

theorem foldlM {f : β → α → Except Fault β} {I : β → Prop} {rows : List α}
    (step : ∀ a ∈ rows, ∀ b, I b → Tells w I (f b a)) : ∀ {b}, I b → Tells w I (rows.foldlM f b) := by
  induction rows with
  | nil => exact fun hb => .gave hb
  | cons a rest ih =>
    intro b hb
    rw [List.foldlM_cons]
    exact (step a (.head _) b hb).bind fun _ hb' => ih (fun a ha => step a (.tail _ ha)) hb'

/-- A reader decides whether what it reads is readable. -/
theorem checks {x : Except Fault α} (h : Tells w right x) :
    Checks w (∃ a, x = .ok a) (fun a => x = .ok a ∧ right a) x := by
  cases h with
  | gave ha => exact .passed ⟨_, rfl⟩ ⟨rfl, ha⟩
  | refused hd => exact .refused (fun ⟨_, h⟩ => (nomatch h)) hd

end Tells

namespace Checks

theorem damaged {d : Damage} (hg : ¬good) (hd : w → d.isWritable = true) :
    Checks w good right (Environment.damaged d) := .refused hg hd

theorem mono {right' : α → Prop} {x : Except Fault α} (h : Checks w good right x) (hg : good ↔ goal)
    (hr : ∀ a, right a → right' a) : Checks w goal right' x := by
  cases h with
  | passed hgood ha => exact .passed (hg.1 hgood) (hr _ ha)
  | refused hgood hd => exact .refused (fun h => hgood (hg.2 h)) hd

/-- What is given is what was given. -/
theorem and_eq {x : Except Fault α} (h : Checks w good right x) : Checks w good (fun a => right a ∧ x = .ok a) x := by
  cases h with
  | passed hg ha => exact .passed hg ⟨ha, rfl⟩
  | refused hg hd => exact .refused hg hd

/-- A check on the way to a goal: the goal needs what it asks for, and the rest decides it. -/
theorem bind {right' : β → Prop} {x : Except Fault α} {f : α → Except Fault β} (h : Checks w good right x)
    (hgoal : goal → good) (hf : ∀ a, right a → Checks w goal right' (f a)) :
    Checks w goal right' (x >>= f) := by
  cases h with
  | passed _ ha => exact hf _ ha
  | refused hg hd => exact .refused (fun h => hg (hgoal h)) hd

/-- A test on the way, which what is good does not fail. -/
theorem guarded {failed : Prop} [Decidable failed] {d : Damage} {f : Unit → Except Fault α} {x : Except Fault α}
    (hg : failed → ¬good) (hd : w → d.isWritable = true) (hx : ¬failed → Checks w good right x) :
    Checks w good right (if failed then Environment.damaged d >>= f else x) := by
  split
  · next h => exact .refused (hg h) hd
  · next h => exact hx h

theorem ok_iff {x : Except Fault α} (h : Checks w good right x) : (∃ a, x = .ok a) ↔ good := by
  cases h with
  | passed hg _ => exact ⟨fun _ => hg, fun _ => ⟨_, rfl⟩⟩
  | refused hg _ => exact ⟨fun ⟨_, h⟩ => (nomatch h), fun h => absurd h hg⟩

theorem right_of_ok {x : Except Fault α} (h : Checks w good right x) {a : α} (hx : x = .ok a) : right a := by
  subst hx
  cases h with
  | passed _ ha => exact ha

/-- A refusal is a damaged snapshot, and can be told if it can be put in words. -/
theorem told {x : Except Fault α} (h : Checks w good right x) {f : Fault} (hx : x = .error f) :
    f.kind = .corruptSnapshot ∧ (w → f.told = f) := by
  subst hx
  cases h with
  | refused _ hd =>
    refine ⟨rfl, fun hw => ?_⟩
    unfold Fault.told Fault.isWritable
    exact if_pos (hd hw)

/-- A refusal is told as such unless it cannot be put in words. -/
theorem told_or_untold {x : Except Fault α} (h : Checks w good right x) {f : Fault} (hx : x = .error f) :
    f.kind = .corruptSnapshot ∧ (f.told = f ∨ (¬w ∧ f.told = .numeral none)) := by
  obtain ⟨hkind, htold⟩ := h.told hx
  refine ⟨hkind, ?_⟩
  by_cases hf : f.isWritable = true
  · exact .inl (if_pos hf)
  · have huntold : f.told = .numeral none := if_neg hf
    refine .inr ⟨fun hw => ?_, huntold⟩
    rw [htold hw] at huntold
    rw [huntold] at hkind
    cases hkind

/-- Rows read in turn, each as the one thing `R` that it says. `I done rest b` is what holds when some
have been read and the rest have not, and `F` what the things read so far have to be together. -/
theorem foldlM {f : β → α → Except Fault β} {R : α → ε → Prop} {F : List ε → Prop}
    {I : List ε → List α → β → Prop} (hR : ∀ {a x y}, R a x → R a y → x = y)
    (hpre : ∀ xs ys, F (xs ++ ys) → F xs) (hF : ∀ {done rest b}, I done rest b → F done)
    (step : ∀ {done a rest b}, I done (a :: rest) b →
      Checks w (∃ x, R a x ∧ F (done ++ [x])) (fun b' => ∃ x, R a x ∧ I (done ++ [x]) rest b') (f b a))
    (rows : List α) : ∀ (done : List ε) {b}, I done rows b →
      Checks w (∃ xs, List.Forall₂ R rows xs ∧ F (done ++ xs))
        (fun b' => ∃ xs, List.Forall₂ R rows xs ∧ I (done ++ xs) [] b') (rows.foldlM f b) := by
  -- the rows become fewer while what has been read becomes more
  induction rows with
  | nil =>
    intro done b hb
    have hdone : done ++ [] = done := List.append_nil done
    exact .passed ⟨[], .nil, hdone.symm ▸ hF hb⟩ ⟨[], .nil, hdone.symm ▸ hb⟩
  | cons a rest ih =>
    intro done b hb
    have hassoc : ∀ (x : ε) (xs : List ε), done ++ [x] ++ xs = done ++ x :: xs :=
      fun x xs => List.append_assoc done [x] xs
    rw [List.foldlM_cons]
    refine (step hb).bind ?_ fun b' ⟨x, hx, hb'⟩ => (ih _ hb').mono ⟨?_, ?_⟩ ?_
    · rintro ⟨_, hall, hxs⟩
      cases hall with
      | cons hx _ => exact ⟨_, hx, hpre _ _ (hassoc _ _ ▸ hxs)⟩
    · rintro ⟨xs, hall, hxs⟩
      exact ⟨x :: xs, .cons hx hall, hassoc x xs ▸ hxs⟩
    · rintro ⟨_, hall, hxs⟩
      cases hall with
      | cons hy hall =>
        cases hR hx hy
        exact ⟨_, hall, (hassoc _ _).symm ▸ hxs⟩
    · rintro b'' ⟨xs, hall, hxs⟩
      exact ⟨x :: xs, .cons hx hall, hassoc x xs ▸ hxs⟩

end Checks

end GraphLisp
