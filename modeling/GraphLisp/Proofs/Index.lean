import GraphLisp.Index
/-!
# What an index lists

An index is known by what it lists under each key, as long as no key is kept for nothing: two such
tight indexes that list the same are equal. Filing and withdrawing keep an index tight, and
change what it lists by the one entry.
-/

namespace GraphLisp

open Std

section Tables
variable {κ ν : Type} [Ord κ] [TransOrd κ]

theorem mem_iff_exists_getElem? (m : ExtTreeMap κ ν) (k : κ) : k ∈ m ↔ ∃ v, m[k]? = some v := by
  rw [ExtTreeMap.mem_iff_isSome_getElem?, Option.isSome_iff_exists]

theorem mem_of_getElem? {m : ExtTreeMap κ ν} {k : κ} {v : ν} (h : m[k]? = some v) : k ∈ m :=
  (mem_iff_exists_getElem? m k).2 ⟨v, h⟩

variable [LawfulEqOrd κ]

theorem getElem?_insert_iff (m : ExtTreeMap κ ν) (k a : κ) (v w : ν) :
    (m.insert k v)[a]? = some w ↔ (a = k ∧ w = v) ∨ (a ≠ k ∧ m[a]? = some w) := by
  rw [ExtTreeMap.getElem?_insert]
  by_cases h : a = k
  · subst h; simp [eq_comm]
  · simp [h, Ne.symm h]

theorem getElem?_erase_iff (m : ExtTreeMap κ ν) (k a : κ) (w : ν) :
    (m.erase k)[a]? = some w ↔ a ≠ k ∧ m[a]? = some w := by
  rw [ExtTreeMap.getElem?_erase]
  by_cases h : a = k
  · subst h; simp
  · simp [h, Ne.symm h]

theorem getElem?_insert_of_ne (m : ExtTreeMap κ ν) {k a : κ} (v : ν) (h : a ≠ k) :
    (m.insert k v)[a]? = m[a]? := by
  rw [ExtTreeMap.getElem?_insert, if_neg fun hc => h (Std.compare_eq_iff_eq.1 hc).symm]

theorem getElem?_erase_of_ne (m : ExtTreeMap κ ν) {k a : κ} (h : a ≠ k) : (m.erase k)[a]? = m[a]? := by
  rw [ExtTreeMap.getElem?_erase, if_neg fun hc => h (Std.compare_eq_iff_eq.1 hc).symm]

theorem mem_insert_iff (m : ExtTreeMap κ ν) (k a : κ) (v : ν) : a ∈ m.insert k v ↔ a = k ∨ a ∈ m := by
  rw [ExtTreeMap.mem_insert, Std.compare_eq_iff_eq, eq_comm]

theorem mem_erase_iff (m : ExtTreeMap κ ν) (k a : κ) : a ∈ m.erase k ↔ a ≠ k ∧ a ∈ m := by
  rw [ExtTreeMap.mem_erase, ne_eq, Std.compare_eq_iff_eq, ne_eq, eq_comm]

/-- Tables with the same entries are equal. -/
theorem table_ext {m m' : ExtTreeMap κ ν} (h : ∀ (k : κ) (v : ν), m[k]? = some v ↔ m'[k]? = some v) :
    m = m' :=
  ExtTreeMap.ext_getElem? fun k => Option.ext fun v => h k v

/-! ## Changes that undo each other -/

theorem erase_of_absent {m : ExtTreeMap κ ν} {k : κ} (h : m[k]? = none) : m.erase k = m := by
  refine table_ext fun a w => ?_
  rw [getElem?_erase_iff]
  refine ⟨And.right, fun hw => ⟨?_, hw⟩⟩
  rintro rfl
  rw [h] at hw; cases hw

theorem erase_insert_of_absent {m : ExtTreeMap κ ν} {k : κ} (v : ν) (h : m[k]? = none) :
    (m.insert k v).erase k = m := by
  refine table_ext fun a w => ?_
  rw [getElem?_erase_iff, getElem?_insert_iff]
  constructor
  · rintro ⟨ha, ⟨rfl, -⟩ | ⟨-, hw⟩⟩
    · exact absurd rfl ha
    · exact hw
  · intro hw
    have ha : a ≠ k := by rintro rfl; rw [h] at hw; cases hw
    exact ⟨ha, .inr ⟨ha, hw⟩⟩

theorem insert_of_present {m : ExtTreeMap κ ν} {k : κ} {v : ν} (h : m[k]? = some v) :
    m.insert k v = m := by
  refine table_ext fun a w => ?_
  rw [getElem?_insert_iff]
  constructor
  · rintro (⟨rfl, rfl⟩ | ⟨-, hw⟩)
    · exact h
    · exact hw
  · intro hw
    by_cases ha : a = k
    · subst ha; exact .inl ⟨rfl, Option.some.inj (hw.symm.trans h)⟩
    · exact .inr ⟨ha, hw⟩

theorem insert_insert_table (m : ExtTreeMap κ ν) (k : κ) (v w : ν) :
    (m.insert k v).insert k w = m.insert k w := by
  refine table_ext fun a x => ?_
  simp only [getElem?_insert_iff]
  exact ⟨fun h => h.imp_right fun y => ⟨y.1, (y.2.resolve_left fun z => y.1 z.1).2⟩,
    fun h => h.imp_right fun y => ⟨y.1, .inr y⟩⟩

theorem insert_erase_table (m : ExtTreeMap κ ν) (k : κ) (v : ν) :
    (m.erase k).insert k v = m.insert k v := by
  refine table_ext fun a w => ?_
  rw [getElem?_insert_iff, getElem?_insert_iff, getElem?_erase_iff]
  exact or_congr_right ⟨fun x => ⟨x.1, x.2.2⟩, fun x => ⟨x.1, x.1, x.2⟩⟩

end Tables

namespace Index

variable {κ ν : Type} [Ord κ] [TransOrd κ] [Ord ν]

/-- No key is kept for nothing. -/
def Tight (m : Index κ ν) : Prop := ∀ (k : κ) (held : ExtTreeSet ν), m[k]? = some held → held ≠ ∅

theorem Tight.empty : Tight (∅ : Index κ ν) := by
  intro k held h; simp at h

variable [TransOrd ν]

theorem mem_bucket (m : Index κ ν) (k : κ) (v : ν) :
    v ∈ bucket m k ↔ ∃ held, m[k]? = some held ∧ v ∈ held := by
  unfold bucket
  cases m[k]? <;> simp

theorem bucket_eq_empty_iff [LawfulEqOrd ν] (m : Index κ ν) (k : κ) :
    bucket m k = ∅ ↔ ∀ v, v ∉ bucket m k := by
  constructor
  · intro h v; simp [h]
  · intro h; exact ExtTreeSet.ext_mem fun v => by simp [h v]

/-! ## Filing and withdrawing -/

section
variable [LawfulEqOrd κ]

theorem mem_bucket_refile (m : Index κ ν) (k a : κ) (rest : ExtTreeSet ν) (w : ν) :
    w ∈ bucket (refile m k rest) a ↔ (a = k ∧ w ∈ rest) ∨ (a ≠ k ∧ w ∈ bucket m a) := by
  unfold refile
  split
  · next h =>
    rw [ExtTreeSet.isEmpty_iff] at h
    subst h
    simp [mem_bucket, getElem?_erase_iff, and_assoc]
  · simp only [mem_bucket, getElem?_insert_iff]
    constructor
    · rintro ⟨held, ⟨rfl, rfl⟩ | ⟨ha, h⟩, hw⟩
      · exact .inl ⟨rfl, hw⟩
      · exact .inr ⟨ha, held, h, hw⟩
    · rintro (⟨rfl, hw⟩ | ⟨ha, held, h, hw⟩)
      · exact ⟨rest, .inl ⟨rfl, rfl⟩, hw⟩
      · exact ⟨held, .inr ⟨ha, h⟩, hw⟩

theorem Tight.file {m : Index κ ν} (hm : m.Tight) (k : κ) (v : ν) : (m.file k v).Tight := by
  intro a held h
  rcases (getElem?_insert_iff _ _ _ _ _).1 h with ⟨-, rfl⟩ | ⟨-, h⟩
  · intro he
    have hv : v ∈ (bucket m k).insert v := ExtTreeSet.mem_insert_self
    simp [he] at hv
  · exact hm a held h

theorem Tight.refile {m : Index κ ν} (hm : m.Tight) (k : κ) (rest : ExtTreeSet ν) :
    (m.refile k rest).Tight := by
  intro a held h
  unfold Index.refile at h
  split at h
  · exact hm a held ((getElem?_erase_iff _ _ _ _).1 h).2
  · next hr =>
    rcases (getElem?_insert_iff _ _ _ _ _).1 h with ⟨-, rfl⟩ | ⟨-, h⟩
    · simpa [ExtTreeSet.isEmpty_iff] using hr
    · exact hm a held h

theorem Tight.withdraw {m : Index κ ν} (hm : m.Tight) (k : κ) (v : ν) : (m.withdraw k v).Tight := by
  unfold Index.withdraw
  split
  · exact hm
  · exact hm.refile k _

end

variable [LawfulEqOrd κ] [LawfulEqOrd ν]

theorem mem_bucket_file (m : Index κ ν) (k a : κ) (v w : ν) :
    w ∈ bucket (file m k v) a ↔ (a = k ∧ w = v) ∨ w ∈ bucket m a := by
  simp only [mem_bucket, file, getElem?_insert_iff]
  constructor
  · rintro ⟨held, ⟨rfl, rfl⟩ | ⟨-, h⟩, hw⟩
    · rw [ExtTreeSet.mem_insert, Std.compare_eq_iff_eq, mem_bucket] at hw
      exact hw.imp (fun h => ⟨rfl, h.symm⟩) id
    · exact .inr ⟨held, h, hw⟩
  · rintro (⟨rfl, rfl⟩ | ⟨held, h, hw⟩)
    · exact ⟨_, .inl ⟨rfl, rfl⟩, ExtTreeSet.mem_insert_self⟩
    · by_cases ha : a = k
      · subst ha
        refine ⟨_, .inl ⟨rfl, rfl⟩, ?_⟩
        rw [ExtTreeSet.mem_insert, mem_bucket]
        exact .inr ⟨held, h, hw⟩
      · exact ⟨held, .inr ⟨ha, h⟩, hw⟩

theorem mem_bucket_withdraw (m : Index κ ν) (k a : κ) (v w : ν) :
    w ∈ bucket (withdraw m k v) a ↔ w ∈ bucket m a ∧ ¬(a = k ∧ w = v) := by
  unfold withdraw
  split
  · next h =>
    simp only [mem_bucket]
    constructor
    · rintro ⟨held, ha, hw⟩
      exact ⟨⟨held, ha, hw⟩, by rintro ⟨rfl, -⟩; simp [h] at ha⟩
    · exact fun h => h.1
  · next held h =>
    rw [mem_bucket_refile]
    by_cases ha : a = k
    · subst ha
      simp [mem_bucket, h, ExtTreeSet.mem_erase, @eq_comm _ v w, and_comm]
    · simp [ha]

/-- Tight indexes that list the same are equal. -/
theorem Tight.ext {m m' : Index κ ν} (hm : m.Tight) (hm' : m'.Tight)
    (h : ∀ k v, v ∈ m.bucket k ↔ v ∈ m'.bucket k) : m = m' := by
  refine ExtTreeMap.ext_getElem? fun k => ?_
  have hb : m.bucket k = m'.bucket k := ExtTreeSet.ext_mem fun v => h k v
  unfold bucket at hb
  cases hk : m[k]? with
  | none =>
    cases hk' : m'[k]? with
    | none => rfl
    | some held => exact absurd (by simpa [hk, hk'] using hb.symm) (hm' k held hk')
  | some held =>
    cases hk' : m'[k]? with
    | none => exact absurd (by simpa [hk, hk'] using hb) (hm k held hk)
    | some held' => simpa [hk, hk'] using hb

end Index

end GraphLisp
