import GraphLisp.Scope
/-!
# Scopes and what they show

A scope is used only by what names mean in it, and `Scope.flatten` shows just that: a name means in
the flattened scope what it means in the scope (`Scope.find?_flatten`). Flattening comes before or
after a change of all values alike (`Scope.flatten_mapValues`), and flattening twice is flattening once.
All of this is about levels that bind each name once, as levels do that are built by binding.
-/

namespace GraphLisp

variable {α β γ : Type}

namespace Level

/-- The names that a level binds. -/
def names (level : Level α) : List String := List.map (·.1) level

/-- Every name is bound once. -/
def Distinct (level : Level α) : Prop := level.names.Nodup

/-- All values changed. -/
def mapValues (g : α → β) (level : Level α) : Level β := List.map (fun b => (b.1, g b.2)) level

@[simp] theorem names_nil : names ([] : Level α) = [] := rfl

@[simp] theorem names_cons (b : String × α) (level : Level α) : names (b :: level) = b.1 :: level.names :=
  rfl

@[simp] theorem mapValues_nil (g : α → β) : mapValues g [] = [] := rfl

@[simp] theorem mapValues_cons (g : α → β) (b : String × α) (level : Level α) :
    mapValues g (b :: level) = (b.1, g b.2) :: level.mapValues g := rfl

theorem names_mapValues (g : α → β) (level : Level α) : (level.mapValues g).names = level.names := by
  simp [names, mapValues]

theorem Distinct.mapValues {level : Level α} (h : level.Distinct) (g : α → β) :
    (level.mapValues g).Distinct := by
  unfold Distinct
  rwa [names_mapValues]

theorem mapValues_mapValues (g : α → β) (f : β → γ) (level : Level α) :
    (level.mapValues g).mapValues f = level.mapValues fun a => f (g a) := by
  simp [mapValues]

theorem mapValues_congr {f g : α → β} {level : Level α} (h : ∀ b ∈ level, f b.2 = g b.2) :
    level.mapValues f = level.mapValues g :=
  List.map_congr_left fun b hb => by rw [h b hb]

@[simp] theorem find?_nil (name : String) : find? ([] : Level α) name = none := rfl

theorem find?_cons (b : String × α) (level : Level α) (name : String) :
    find? (b :: level) name = if name = b.1 then some b.2 else find? level name := by
  obtain ⟨x, value⟩ := b
  unfold find?
  rw [List.lookup_cons]
  by_cases h : name = x
  · rw [if_pos h, beq_iff_eq.2 h]
  · rw [if_neg h, beq_eq_false_iff_ne.2 h]

theorem find?_mapValues (g : α → β) (level : Level α) (name : String) :
    find? (level.mapValues g) name = (find? level name).map g := by
  induction level with
  | nil => rfl
  | cons b level ih =>
    rw [mapValues_cons, find?_cons, find?_cons, ih]
    split <;> rfl

theorem find?_absent {level : Level α} {name : String} (h : name ∉ level.names) :
    find? level name = none := by
  induction level with
  | nil => rfl
  | cons b level ih =>
    simp only [names_cons, List.mem_cons, not_or] at h
    rw [find?_cons, if_neg h.1, ih h.2]

/-! ## Binding -/

theorem bind_cons (name : String) (value : α) (b : String × α) (level : Level α) :
    bind name value (b :: level) =
      if b.1 = name then (b.1, value) :: level else b :: bind name value level := rfl

theorem mapValues_bind (g : α → β) (name : String) (value : α) (level : Level α) :
    (bind name value level).mapValues g = bind name (g value) (level.mapValues g) := by
  induction level with
  | nil => rfl
  | cons b level ih =>
    rw [bind_cons, mapValues_cons, bind_cons, ← ih]
    split <;> rfl

theorem mem_bind {name : String} {value : α} {level : Level α} {b : String × α}
    (h : b ∈ bind name value level) : b = (name, value) ∨ b ∈ level := by
  induction level with
  | nil => exact .inl (List.mem_singleton.1 h)
  | cons c level ih =>
    rw [bind_cons] at h
    split at h
    · next hc =>
      rcases List.mem_cons.1 h with rfl | h
      · exact .inl (by rw [hc])
      · exact .inr (.tail _ h)
    · rcases List.mem_cons.1 h with rfl | h
      · exact .inr (.head _)
      · exact (ih h).imp_right (.tail _)

theorem mem_names_bind (name x : String) (value : α) (level : Level α) :
    x ∈ (bind name value level).names ↔ x = name ∨ x ∈ level.names := by
  induction level with
  | nil => simp [bind, names]
  | cons c level ih =>
    rw [bind_cons]
    split
    · next hc => simp [hc]
    · simp only [names_cons, List.mem_cons, ih]
      exact or_left_comm

theorem Distinct.bind {level : Level α} (h : level.Distinct) (name : String) (value : α) :
    (level.bind name value).Distinct := by
  induction level with
  | nil => simp [Distinct, Level.bind, names]
  | cons c level ih =>
    have hc := List.nodup_cons.1 h
    rw [bind_cons]
    split
    · exact h
    · next hne =>
      refine List.nodup_cons.2 ⟨fun hm => ?_, ih hc.2⟩
      rcases (mem_names_bind _ _ _ _).1 hm with heq | hm
      · exact hne heq
      · exact hc.1 hm

/-- A new name is bound at the end. -/
theorem bind_of_absent {level : Level α} {name : String} (h : name ∉ level.names) (value : α) :
    bind name value level = level ++ [(name, value)] := by
  induction level with
  | nil => rfl
  | cons c level ih =>
    simp only [names_cons, List.mem_cons, not_or] at h
    rw [bind_cons, if_neg (Ne.symm h.1), ih h.2, List.cons_append]

theorem find?_bind (name x : String) (value : α) (level : Level α) :
    find? (bind name value level) x = if x = name then some value else find? level x := by
  induction level with
  | nil => exact find?_cons _ _ _
  | cons c level ih =>
    rw [bind_cons]
    by_cases hc : c.1 = name
    · rw [if_pos hc, find?_cons, find?_cons, hc]
      split <;> rfl
    · rw [if_neg hc, find?_cons, find?_cons, ih]
      by_cases hx : x = c.1
      · rw [if_pos hx, if_pos hx, if_neg fun h => hc (hx.symm.trans h)]
      · rw [if_neg hx, if_neg hx]

/-! ## Binding more -/

theorem update_cons (level more : Level α) (b : String × α) :
    update level (b :: more) = update (bind b.1 b.2 level) more := rfl

theorem mapValues_update (g : α → β) (level more : Level α) :
    (update level more).mapValues g = update (level.mapValues g) (more.mapValues g) := by
  induction more generalizing level with
  | nil => rfl
  | cons b more ih => rw [update_cons, ih, mapValues_cons, update_cons, mapValues_bind]

theorem mem_update {level more : Level α} {b : String × α} (h : b ∈ update level more) :
    b ∈ level ∨ b ∈ more := by
  induction more generalizing level with
  | nil => exact .inl h
  | cons c more ih =>
    rcases ih h with h | h
    · rcases mem_bind h with rfl | h
      · exact .inr (.head _)
      · exact .inl h
    · exact .inr (.tail _ h)

theorem Distinct.update {level : Level α} (h : level.Distinct) (more : Level α) :
    (level.update more).Distinct := by
  induction more generalizing level with
  | nil => exact h
  | cons b more ih => exact ih (h.bind b.1 b.2)

theorem distinct_nil : Distinct ([] : Level α) := List.nodup_nil

theorem distinct_ofPairs (pairs : List (String × α)) : (ofPairs pairs).Distinct :=
  distinct_nil.update pairs

/-- Names that are new are bound in order. -/
theorem update_of_absent {level more : Level α} (h : more.Distinct)
    (hnew : ∀ name ∈ more.names, name ∉ level.names) : update level more = level ++ more := by
  induction more generalizing level with
  | nil => simp [update]
  | cons b more ih =>
    have hb := List.nodup_cons.1 h
    rw [update_cons, bind_of_absent (hnew b.1 (.head _)), ih hb.2, List.append_assoc, List.singleton_append]
    intro name hname hm
    simp only [names, List.map_append, List.mem_append, List.map_cons, List.map_nil,
      List.mem_singleton] at hm
    rcases hm with hm | rfl
    · exact hnew name (.tail _ hname) hm
    · exact hb.1 hname

theorem ofPairs_of_distinct {level : Level α} (h : level.Distinct) : ofPairs level = level :=
  update_of_absent h fun _ _ => List.not_mem_nil

theorem find?_update {more : Level α} (h : more.Distinct) (level : Level α) (name : String) :
    find? (update level more) name = (find? more name).or (find? level name) := by
  induction more generalizing level with
  | nil => rfl
  | cons b more ih =>
    have hb := List.nodup_cons.1 h
    rw [update_cons, ih hb.2, find?_bind, find?_cons]
    by_cases hname : name = b.1
    · -- the name is bound by `b` and not again
      have hnone : find? more name = none := find?_absent (hname ▸ hb.1)
      rw [hnone, if_pos hname, if_pos hname]
      rfl
    · rw [if_neg hname, if_neg hname]

end Level

namespace Scope

/-- All values changed. -/
def mapValues (g : α → β) (scope : Scope α) : Scope β := List.map (Level.mapValues g) scope

/-- Every level binds each name once. -/
def Distinct (scope : Scope α) : Prop := ∀ level ∈ scope, Level.Distinct level

@[simp] theorem mapValues_nil (g : α → β) : mapValues g [] = [] := rfl

@[simp] theorem mapValues_cons (g : α → β) (level : Level α) (outer : Scope α) :
    mapValues g (level :: outer) = level.mapValues g :: outer.mapValues g := rfl

theorem find?_cons (level : Level α) (outer : Scope α) (name : String) :
    find? (level :: outer) name = (Level.find? level name).or (find? outer name) := by
  simp only [find?, List.findSome?_cons]
  cases Level.find? level name <;> rfl

theorem flatten_cons (level : Level α) (outer : Scope α) :
    flatten (level :: outer) = outer.flatten.update level := rfl

theorem flatten_mapValues (g : α → β) (scope : Scope α) :
    (scope.mapValues g).flatten = scope.flatten.mapValues g := by
  induction scope with
  | nil => rfl
  | cons level outer ih => rw [mapValues_cons, flatten_cons, flatten_cons, ih, Level.mapValues_update]

/-- What is visible is bound in some level. -/
theorem mem_flatten {scope : Scope α} {b : String × α} (h : b ∈ flatten scope) :
    ∃ level ∈ scope, b ∈ level := by
  induction scope with
  | nil => cases h
  | cons level outer ih =>
    rcases Level.mem_update h with h | h
    · obtain ⟨inner, hi, hb⟩ := ih h
      exact ⟨inner, .tail _ hi, hb⟩
    · exact ⟨level, .head _, h⟩

theorem distinct_flatten (scope : Scope α) : (flatten scope).Distinct := by
  induction scope with
  | nil => exact Level.distinct_nil
  | cons level outer ih => exact ih.update level

/-- A name means in a scope what the flattened scope says. -/
theorem find?_flatten {scope : Scope α} (h : scope.Distinct) (name : String) :
    Level.find? scope.flatten name = scope.find? name := by
  induction scope with
  | nil => rfl
  | cons level outer ih =>
    rw [flatten_cons, Level.find?_update (h level (.head _)), ih fun l hl => h l (.tail _ hl), find?_cons]

/-! ## Scopes of one level -/

/-- The scope that shows what a level binds; it has no level if nothing is bound. -/
def single (level : Level α) : Scope α := if level.isEmpty then [] else [level]

/-- The scope of at most one level that shows the same. -/
def collapse (scope : Scope α) : Scope α := single scope.flatten

theorem flatten_single {level : Level α} (h : level.Distinct) : flatten (single level) = level := by
  unfold single
  cases level with
  | nil => rfl
  | cons b level => exact Level.ofPairs_of_distinct h

theorem flatten_collapse (scope : Scope α) : scope.collapse.flatten = scope.flatten :=
  flatten_single (distinct_flatten scope)

theorem single_injective {level level' : Level α} (h : single level = single level') : level = level' := by
  unfold single at h
  cases level <;> cases level' <;> simp_all

theorem mapValues_single (g : α → β) (level : Level α) :
    (single level).mapValues g = single (level.mapValues g) := by
  cases level <;> rfl

end Scope

end GraphLisp
