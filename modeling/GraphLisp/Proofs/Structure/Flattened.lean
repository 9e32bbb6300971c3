import GraphLisp.Proofs.Structure
import GraphLisp.Structure.Nesting
/-!
# Flattened structures

A snapshot keeps of each procedure the bindings that are visible in its scope, in one level.
`Structure.flattened` is the structure that comes back. Flattening changes neither what a structure
mentions nor how it prints, compares and nests, and it is done once and for all.
-/

namespace GraphLisp.Structure

mutual

/-- The structure with the scope of every procedure in it collapsed to one level at most. -/
def flattened : Structure → Structure
  | .pair a d => .pair (flattened a) (flattened d)
  | .proc params body scope => .proc params (flattened body) (Scope.collapse (flattenedScope scope))
  | s => s

/-- The values of a scope flattened. -/
def flattenedScope : List (List (String × Structure)) → Scope Structure
  | [] => []
  | level :: outer => flattenedLevel level :: flattenedScope outer

/-- The values of a level flattened. -/
def flattenedLevel : List (String × Structure) → Level Structure
  | [] => []
  | (name, s) :: rest => (name, flattened s) :: flattenedLevel rest

end

theorem flattenedScope_eq (scope : Scope Structure) : flattenedScope scope = scope.mapValues flattened :=
  eq_mapValues rfl (fun _ _ _ => rfl) rfl (fun _ _ => rfl) scope

theorem flattened_proc (params : List String) (body : Structure) (scope : Scope Structure) :
    flattened (.proc params body scope) =
      .proc params body.flattened (scope.mapValues flattened).collapse := by
  rw [flattened, flattenedScope_eq]

/-- What the scope of a flattened procedure shows. -/
theorem flatten_flattened (scope : Scope Structure) :
    (scope.mapValues flattened).collapse.flatten = scope.flatten.mapValues flattened := by
  rw [Scope.flatten_collapse, Scope.flatten_mapValues]

/-- A function that flattening the values of a scope does not change is not changed on what is
visible either. -/
theorem visible_congr {β : Type} {f : Structure → β} {scope : Scope Structure}
    (h : ∀ level ∈ scope, ∀ b ∈ level, f b.2.flattened = f b.2) :
    (scope.flatten.mapValues flattened).mapValues f = scope.flatten.mapValues f := by
  rw [Level.mapValues_mapValues]
  refine Level.mapValues_congr fun b hb => ?_
  obtain ⟨level, hl, hb⟩ := Scope.mem_flatten hb
  exact h level hl b hb

@[simp] theorem flattened_flattened (s : Structure) : s.flattened.flattened = s.flattened := by
  induction s using induct with
  | pair car cdr ihcar ihcdr => rw [flattened, flattened, ihcar, ihcdr]
  | proc params body scope ihbody ihscope =>
    have hscope : ((scope.mapValues flattened).collapse.mapValues flattened).collapse =
        (scope.mapValues flattened).collapse := by
      rw [Scope.collapse, Scope.flatten_mapValues, flatten_flattened, visible_congr ihscope,
        Scope.collapse, Scope.flatten_mapValues]
    rw [flattened_proc, flattened_proc, ihbody, hscope]
  | _ => rfl

/-! ## What flattening leaves as it is -/

@[simp] theorem mentions_flattened (s : Structure) : s.flattened.mentions = s.mentions := by
  induction s using induct with
  | pair car cdr ihcar ihcdr => rw [flattened, mentions, mentions, ihcar, ihcdr]
  | proc params body scope ihbody ihscope =>
    have hscope : (scope.flatten.mapValues flattened).mapValues mentions =
        scope.flatten.mapValues mentions := visible_congr ihscope
    rw [flattened_proc, mentions, mentions, mentionsScope_eq, mentionsScope_eq, Scope.flatten_mapValues,
      Scope.flatten_mapValues, flatten_flattened, hscope, ihbody]
  | _ => rfl

@[simp] theorem isWhole_flattened (s : Structure) : s.flattened.isWhole = s.isWhole := by
  induction s using induct with
  | pair car cdr ihcar ihcdr => rw [flattened, isWhole, isWhole, ihcar, ihcdr]
  | proc params body scope ihbody ihscope =>
    have hscope : (scope.flatten.mapValues flattened).mapValues isWhole =
        scope.flatten.mapValues isWhole := visible_congr ihscope
    rw [flattened_proc, isWhole, isWhole, wholeScope_eq, wholeScope_eq, Scope.flatten_mapValues,
      Scope.flatten_mapValues, flatten_flattened, hscope, ihbody]
  | _ => rfl

@[simp] theorem isPrintable_flattened (names : Names) (s : Structure) :
    s.flattened.isPrintable names = s.isPrintable names := by
  induction s using induct with
  | pair car cdr ihcar ihcdr => rw [flattened, isPrintable, isPrintable, ihcar, ihcdr]
  | proc params body scope ihbody _ => rw [flattened_proc, isPrintable, isPrintable, ihbody]
  | _ => rfl

@[simp] theorem isWritable_flattened (s : Structure) : s.flattened.isWritable = s.isWritable :=
  isPrintable_flattened .none s

@[simp] theorem height_flattened (s : Structure) : s.flattened.height = s.height := by
  induction s using induct with
  | pair car cdr ihcar ihcdr => rw [flattened, height, height, ihcar, ihcdr]
  | proc params body scope ihbody _ => rw [flattened_proc, height, height, ihbody]
  | _ => rfl

theorem same_flattened (a b : Structure) : a.flattened.same b.flattened = a.same b := by
  induction a using induct generalizing b with
  | pair car cdr ihcar ihcdr =>
    cases b with
    | pair car' cdr' => rw [flattened, flattened, same, same, ihcar, ihcdr]
    | _ => rfl
  | proc params body scope ihbody _ =>
    cases b with
    | proc params' body' scope' => rw [flattened_proc, flattened_proc, same, same, ihbody]
    | _ => rfl
  | _ => cases b <;> rfl

theorem same_self (s : Structure) : s.same s = true := by
  induction s using induct with
  | pair car cdr ihcar ihcdr => simp [same, ihcar, ihcdr]
  | proc params body scope ihbody _ => simp [same, ihbody]
  | _ => simp [same]

/-- Flattening a structure gives an equal program. -/
theorem same_own_flattened (s : Structure) : s.same s.flattened = true := by
  rw [← same_flattened, flattened_flattened]
  exact same_self _

theorem print_flattened (names : Names) (s : Structure) :
    s.flattened.print names = s.print names ∧ printRest names s.flattened = printRest names s := by
  induction s using induct with
  | pair car cdr ihcar ihcdr =>
    simp only [flattened, print, printRest, ihcar.1, ihcdr.2, and_self]
  | proc params body scope ihbody _ =>
    simp only [flattened_proc, print, printRest, ihbody.1, and_self]
  | _ => exact ⟨rfl, rfl⟩

@[simp] theorem shown_flattened (s : Structure) : s.flattened.shown = s.shown := by
  cases s with
  | pair car cdr => exact congrArg ("Pair(" ++ · ++ ")") (print_flattened .none (.pair car cdr)).1
  | proc params body scope => exact (print_flattened .none (.proc params body scope)).1
  | _ => rfl

end GraphLisp.Structure
