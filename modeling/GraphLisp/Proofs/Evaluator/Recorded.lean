import GraphLisp.Proofs.Evaluator.Steady
/-!
# Everything is recorded

Whatever a step has done to the universe so far is in its journal, if it can be recorded at all:
`Recorded context u p` says that alterations lead from `u` to the store of `p`, that the journal of `p` has
those of them with labels that can be written, and that none of them removed the node of a role. Evaluation
keeps this (`Evaluator.eval_recorded`), whether it ends in a value or fails.
-/

namespace GraphLisp

/-- No node of a role was removed. -/
def Context.Spared (c : Context) (J : Journal Int) : Prop :=
  ∀ entry ∈ J, ∀ n ∈ entry.2.removed?, c.roleOf (.node n) = none

/-- The store of a step is what alterations have made of a universe, and its journal has all of them that can be
recorded. -/
def Recorded (c : Context) (u : Universe) (p : Progress) : Prop :=
  ∃ J, u.Alterations J p.store ∧ c.Spared J ∧ p.journal = J.labelled

variable {c : Context} {u : Universe}

theorem recorded_steady (hu : u.Coherent) : Steady c (fun _ => True) (Recorded c u) where
  coherent := fun ⟨_, h, _⟩ => h.coherent hu
  speaks _ hp := hp
  moves hp _ := hp
  alters := by
    rintro p J v ⟨K, hK, hspared, hjournal⟩ h hs
    refine ⟨J ++ K, hK.append h, fun entry he => ?_, ?_⟩
    · rcases List.mem_append.1 he with he | he
      · exact fun n hn => (hs entry he n hn).1
      · exact hspared entry he
    · rw [Journal.labelled_append, ← hjournal]
  usual := usual_any
  places _ := .inr trivial

/-- Evaluation records what it does to the store, as far as it can, at any depth and however it ends. -/
theorem Evaluator.eval_recorded {setting : Setting} (hu : u.Coherent) (hc : setting.context = c) (depth : Nat)
    (s : Structure) (scope : Scope Structure) : Preserves (Recorded c u) (eval setting depth s scope) :=
  (eval_sustains (recorded_steady hu) hc depth s scope).preserves

end GraphLisp
