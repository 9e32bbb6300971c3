import GraphLisp.Plain
/-!
# Plain data part by part

The parts of a list or map are less deep than it is, and the numbers in it can be written if those in
all parts can.
-/

namespace GraphLisp

namespace Plain

theorem depth_le_items {p : Plain} {items : List Plain} (h : p ∈ items) : p.depth ≤ depthOfItems items := by
  induction items with
  | nil => cases h
  | cons q rest ih =>
    rw [depthOfItems]
    rcases List.mem_cons.1 h with rfl | h
    · exact Nat.le_max_left _ _
    · exact Nat.le_trans (ih h) (Nat.le_max_right _ _)

theorem depth_le_entries {e : Plain × Plain} {entries : List (Plain × Plain)} (h : e ∈ entries) :
    e.2.depth ≤ depthOfEntries entries := by
  induction entries with
  | nil => cases h
  | cons f rest ih =>
    obtain ⟨key, value⟩ := f
    rw [depthOfEntries]
    rcases List.mem_cons.1 h with rfl | h
    · exact Nat.le_max_left _ _
    · exact Nat.le_trans (ih h) (Nat.le_max_right _ _)

theorem areWritable_iff {items : List Plain} :
    areWritable items = true ↔ ∀ p ∈ items, p.isWritable = true := by
  induction items with
  | nil => simp [areWritable]
  | cons p rest ih => simp [areWritable, ih]

theorem haveWritable_iff {es : List (Plain × Plain)} :
    haveWritable es = true ↔ ∀ e ∈ es, e.1.isWritable = true ∧ e.2.isWritable = true := by
  induction es with
  | nil => simp [haveWritable]
  | cons e rest ih =>
    obtain ⟨k, p⟩ := e
    simp [haveWritable, ih]

/-- A key that a map does not have is bound at its end. -/
theorem put_absent {key value : Plain} {es : List (Plain × Plain)} (h : ∀ e ∈ es, e.1.equal key = false) :
    put key value es = es ++ [(key, value)] := by
  induction es with
  | nil => rfl
  | cons e rest ih =>
    rw [put, if_neg (by simp [h e List.mem_cons_self]), ih fun d hd => h d (List.mem_cons_of_mem _ hd)]
    rfl

end Plain

end GraphLisp
