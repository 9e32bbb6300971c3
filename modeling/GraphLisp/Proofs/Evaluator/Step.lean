import GraphLisp.Proofs.Evaluator.Recorded
import GraphLisp.Proofs.Universe.Growth
/-!
# Steps

A step keeps all of its alterations or none of them, if it can record them: that is so where every node can be
put in words. One that succeeds has altered the universe and removed no node of a role; one that fails restores
the universe (`step_ends`), and rolling back never fails (`step_of_error`). Where a step cannot record what it
does, it is taken back to what is left of some moment on its way (`step_leads`).
-/

namespace GraphLisp

/-- What a step starts from. -/
def Progress.start (u : Universe) (place : Place) : Progress := ⟨u, place, false, [], []⟩

namespace Evaluator

variable {depth : Nat} {setting : Setting} {place : Place} {scope : Scope Structure} {u : Universe}

theorem start_recorded (u : Universe) (place : Place) : Recorded setting.context u (.start u place) :=
  ⟨[], .none, (fun _ h => nomatch h), rfl⟩

theorem step_of_ok {value : Structure} {p : Progress}
    (h : eval setting depth setting.top scope (.start u place) = .ok value p) :
    step depth setting place scope u = .ok ⟨value, p.place, p.moved, p.effects⟩ p.store := by
  unfold Progress.start at h
  simp only [step, h]

/-- A step that fails ends in the universe that rolling back leads to, which restores the one that
the step started from. -/
theorem step_of_error (hu : Universe.CoherentClosedWith Universe.Writable u) {fault : Fault} {p : Progress}
    (h : eval setting depth setting.top scope (.start u place) = .error fault p) :
    ∃ v, p.journal.rollback undo p.store = .ok () ([], v) ∧ u.Restored v ∧
      step depth setting place scope u = .error fault v := by
  obtain ⟨J, hJ, -, hjournal⟩ : Recorded setting.context u p :=
    (eval_recorded hu.coherent rfl depth _ scope _ (start_recorded u place)).of_error h
  rw [hJ.labelled hu] at hjournal
  obtain ⟨v, hv, hr⟩ := hJ.undone hu.toCoherentClosed (hJ.coherentClosed hu.toCoherentClosed).coherent.restored
  rw [← hjournal] at hv
  unfold Progress.start at h
  exact ⟨v, hv, hr, by simp only [step, h, hv]⟩

theorem step_ends (hu : Universe.CoherentClosedWith Universe.Writable u) :
    Ends (step depth setting place scope) u
      (fun _ v => ∃ J, u.Alterations J v ∧ setting.context.Spared J) (fun _ v => u.Restored v) := by
  have hrec : Ends (eval setting depth setting.top scope) (.start u place)
      (fun _ => Recorded setting.context u) fun _ => Recorded setting.context u :=
    eval_recorded hu.coherent rfl depth _ scope _ (start_recorded u place)
  unfold Ends
  cases h : eval setting depth setting.top scope (.start u place) with
  | ok value p =>
    obtain ⟨J, hJ, hspared, -⟩ := hrec.of_ok h
    rw [step_of_ok h]
    exact ⟨J, hJ, hspared⟩
  | error fault p =>
    obtain ⟨v, -, hr, hstep⟩ := step_of_error hu h
    rw [hstep]
    exact hr

/-- What a step has come to when evaluating ends, before anything is taken back. -/
def reached (depth : Nat) (setting : Setting) (place : Place) (scope : Scope Structure) (u : Universe) : Progress :=
  after (eval setting depth setting.top scope) (.start u place)

section
variable (depth setting place scope)

theorem reached_recorded (hu : u.Coherent) : Recorded setting.context u (reached depth setting place scope u) :=
  (eval_recorded hu rfl depth _ scope _ (start_recorded u place)).after

/-- A step that fails is taken back to what is left of some moment between its alterations, if not to its start, and
handles that were given out stay given out. -/
theorem step_leads (hu : u.Coherent) : ∃ J K u₁, (reached depth setting place scope u).journal = J.labelled ∧
    u.Alterations J (reached depth setting place scope u).store ∧ K <:+ J ∧ u.Alterations K u₁ ∧
    u₁.Leaves (after (step depth setting place scope) u) ∧
    ∀ id, (after (step depth setting place scope) u).counter id =
      (reached depth setting place scope u).store.counter id := by
  obtain ⟨J, hJ, -, hjournal⟩ := reached_recorded depth setting place scope hu
  refine ⟨J, ?_⟩
  unfold reached after at *
  cases h : eval setting depth setting.top scope (.start u place) with
  | ok value p =>
    rw [h] at hJ hjournal
    rw [step_of_ok h]
    exact ⟨J, _, hjournal, hJ, List.suffix_refl _, hJ, (hJ.coherent hu).restored.leaves, fun _ => rfl⟩
  | error fault p =>
    rw [h] at hJ hjournal
    have hjournal : p.journal = J.labelled := hjournal
    obtain ⟨K, u₁, w, hsuffix, h₁, hr, hcounter, hend⟩ := hJ.rollback_leads hu (hJ.coherent hu).restored.leaves
    refine ⟨K, u₁, hjournal, hJ, hsuffix, h₁, ?_⟩
    rw [← hjournal] at hend
    unfold Progress.start at h
    rcases hend with hw | ⟨_, K, hw⟩ <;> simp only [step, h, hw] <;> exact ⟨hr, hcounter⟩

end

theorem step_preserves {P : Universe → Prop} (hP : Universe.Lasting P) (hw : ∀ {u}, P u → u.Writable) :
    Preserves (Universe.CoherentClosedWith P) (step depth setting place scope) := fun _ hu =>
  (step_ends ⟨hu.toCoherentClosed, hw hu.prop⟩).mono (fun _ _ ⟨_, h, _⟩ => hP.alterations hu h)
    fun _ _ h => hP.undone hu h

end Evaluator

end GraphLisp
