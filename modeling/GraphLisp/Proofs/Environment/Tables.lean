import GraphLisp.Environment.Basic
import GraphLisp.Proofs.Index
import GraphLisp.Proofs.Outcome
/-!
# Names and statements

Names can be looked up either way, and so can statements: by handle, by their text, and by each of
their three parts. `NodeTable.Named` and `TripleStore.Coherent` say that the tables of one direction
are those of the other one; binding a name, storing a statement and removing either keep this. What a
query picks out of the tables are the handles of the statements that fit (`TripleStore.mem_select`).
-/

namespace GraphLisp

open Std

/-! ## Names -/

namespace NodeTable

/-- The two tables of names are inverse, and only live handles have a name. -/
structure Named (t : NodeTable) : Prop where
  inverse : ∀ (s : String) (h : Int), t.names[s]? = some h ↔ t.nameOf[h]? = some s
  live : ∀ (h : Int) (s : String), t.nameOf[h]? = some s → h ∈ t.cells

theorem Named.free {t : NodeTable} (ht : t.Named) {s : String} (h : t.names[s]? = none) (k : Int) :
    t.nameOf[k]? ≠ some s := by
  intro hk
  rw [(ht.inverse s k).2 hk] at h
  cases h

/-- A name that is taken away is free, and nothing else changes. -/
theorem unbindName_ok {t : NodeTable} (ht : t.Named) (h : Int) :
    ∃ names, t.unbindName h = .ok { t with names, nameOf := t.nameOf.erase h } ∧
      ({ t with names, nameOf := t.nameOf.erase h } : NodeTable).Named ∧
      ∀ (s : String) (k : Int), names[s]? = some k → t.names[s]? = some k := by
  unfold unbindName
  cases hn : t.nameOf[h]? with
  | none =>
    have he : t.nameOf.erase h = t.nameOf := erase_of_absent hn
    refine ⟨t.names, by rw [he], ?_, fun _ _ x => x⟩
    rw [he]; exact ht
  | some s =>
    have hs := (ht.inverse s h).2 hn
    refine ⟨t.names.erase s, by simp [mem_of_getElem? hs], ⟨fun s' k => ?_, fun k s' hk => ?_⟩,
      fun s' k hk => ((getElem?_erase_iff _ _ _ _).1 hk).2⟩
    · rw [getElem?_erase_iff, getElem?_erase_iff, ht.inverse]
      constructor
      · rintro ⟨hne, hk⟩
        exact ⟨by rintro rfl; rw [hn] at hk; exact hne (Option.some.inj hk).symm, hk⟩
      · rintro ⟨hne, hk⟩
        refine ⟨?_, hk⟩
        rintro rfl
        have := (ht.inverse s' k).2 hk
        rw [hs] at this
        exact hne (Option.some.inj this).symm
    · exact ht.live k s' ((getElem?_erase_iff _ _ _ _).1 hk).2

/-- A name that is free, or the handle's own, can be given to a live handle. -/
theorem bindName_ok {t : NodeTable} (ht : t.Named) {h : Int} (hh : h ∈ t.cells) {s : String}
    (hs : t.names[s]? = none ∨ t.names[s]? = some h) :
    ∃ names, t.bindName h s = .ok { t with names, nameOf := t.nameOf.insert h s } ∧
      ({ t with names, nameOf := t.nameOf.insert h s } : NodeTable).Named := by
  obtain ⟨names, he, hn, hsub⟩ := unbindName_ok ht h
  have hb : t.bindName h s =
      .ok { t with names := names.insert s h, nameOf := t.nameOf.insert h s } := by
    have hr : bindName.rebind t h s =
        .ok { t with names := names.insert s h, nameOf := t.nameOf.insert h s } := by
      simp [bindName.rebind, he, bind, Except.bind, pure, Except.pure, insert_erase_table]
    unfold bindName
    rcases hs with hs | hs <;> simp [hs, hr]
  refine ⟨_, hb, fun s' k => ?_, fun k s' hk => ?_⟩
  · have hi := hn.inverse s' k
    simp only at hi
    rw [getElem?_insert_iff, getElem?_insert_iff, hi, getElem?_erase_iff]
    constructor
    · rintro (⟨rfl, rfl⟩ | ⟨-, hne, hk⟩)
      · exact .inl ⟨rfl, rfl⟩
      · exact .inr ⟨hne, hk⟩
    · rintro (⟨rfl, rfl⟩ | ⟨hne, hk⟩)
      · exact .inl ⟨rfl, rfl⟩
      · refine .inr ⟨?_, hne, hk⟩
        rintro rfl
        have := (ht.inverse s' k).2 hk
        rcases hs with hs | hs <;> rw [hs] at this
        · cases this
        · exact hne (Option.some.inj this).symm
  · rcases (getElem?_insert_iff _ _ _ _ _).1 hk with ⟨rfl, -⟩ | ⟨-, hk⟩
    · exact hh
    · exact ht.live k s' hk

/-- A name of another handle cannot be given away. -/
theorem bindName_taken {t : NodeTable} {h k : Int} {s : String} (hs : t.names[s]? = some k)
    (hk : k ≠ h) : t.bindName h s = .error (.nameTaken s) := by
  simp [bindName, hs, hk]

end NodeTable

/-! ## Statements -/

/-- An index files each handle under one part of its statement. -/
structure Index.Files (m : Index Int Int) (statements : ExtTreeMap Int Statement)
    (part : Statement → Int) : Prop where
  tight : m.Tight
  mem_iff : ∀ k h, h ∈ m.bucket k ↔ ∃ st, statements[h]? = some st ∧ part st = k

namespace Index.Files

variable {m : Index Int Int} {statements : ExtTreeMap Int Statement} {part : Statement → Int}

theorem insert (hm : m.Files statements part) {h : Int} (hh : h ∉ statements) (st : Statement) :
    (m.file (part st) h).Files (statements.insert h st) part where
  tight := hm.tight.file _ _
  mem_iff k x := by
    rw [mem_bucket_file, hm.mem_iff]
    simp only [getElem?_insert_iff]
    constructor
    · rintro (⟨rfl, rfl⟩ | ⟨st', hx, rfl⟩)
      · exact ⟨st, .inl ⟨rfl, rfl⟩, rfl⟩
      · exact ⟨st', .inr ⟨by rintro rfl; exact hh (mem_of_getElem? hx), hx⟩, rfl⟩
    · rintro ⟨st', ⟨rfl, rfl⟩ | ⟨-, hx⟩, rfl⟩
      · exact .inl ⟨rfl, rfl⟩
      · exact .inr ⟨st', hx, rfl⟩

/-- The bucket of a part of a statement is there, and its handle can be taken out of it. -/
theorem remove (hm : m.Files statements part) {h : Int} {st : Statement}
    (hh : statements[h]? = some st) :
    ∃ held, m[part st]? = some held ∧
      (m.refile (part st) (held.erase h)).Files (statements.erase h) part := by
  obtain ⟨held, hk, -⟩ := (mem_bucket m (part st) h).1 ((hm.mem_iff (part st) h).2 ⟨st, hh, rfl⟩)
  refine ⟨held, hk, hm.tight.refile _ _, fun k x => ?_⟩
  rw [mem_bucket_refile, ExtTreeSet.mem_erase, ne_eq, Std.compare_eq_iff_eq]
  simp only [getElem?_erase_iff]
  have hheld : ∀ x, x ∈ held ↔ ∃ st', statements[x]? = some st' ∧ part st' = part st := by
    intro x
    rw [← hm.mem_iff, mem_bucket]
    simp [hk]
  rw [hheld, hm.mem_iff]
  constructor
  · rintro (⟨rfl, hne, st', hx, hp⟩ | ⟨hne, st', hx, rfl⟩)
    · exact ⟨st', ⟨fun e => hne e.symm, hx⟩, hp⟩
    · refine ⟨st', ⟨?_, hx⟩, rfl⟩
      rintro rfl
      rw [hh] at hx
      exact hne (by rw [Option.some.inj hx])
  · rintro ⟨st', ⟨hne, hx⟩, rfl⟩
    by_cases hp : part st' = part st
    · exact .inl ⟨hp, fun e => hne e.symm, st', hx, hp⟩
    · exact .inr ⟨hp, st', hx, rfl⟩

end Index.Files

namespace TripleStore

/-- The tables of a triple store say the same: no statement is stored twice, and every handle is
filed under the parts of its statement. -/
structure Coherent (t : TripleStore) : Prop where
  inverse : ∀ (st : Statement) (h : Int), t.handles[st]? = some h ↔ t.statements[h]? = some st
  subjects : t.bySubject.Files t.statements Statement.subject
  predicates : t.byPredicate.Files t.statements Statement.predicate
  objects : t.byObject.Files t.statements Statement.object

theorem coherent_empty : empty.Coherent where
  inverse st h := by simp [empty]
  subjects := ⟨.empty, fun k h => by simp [empty, Index.mem_bucket]⟩
  predicates := ⟨.empty, fun k h => by simp [empty, Index.mem_bucket]⟩
  objects := ⟨.empty, fun k h => by simp [empty, Index.mem_bucket]⟩

theorem Coherent.insert {t : TripleStore} (ht : t.Coherent) {h : Int} (hh : h ∉ t.statements)
    {st : Statement} (hst : t.handles[st]? = none) : (t.insert h st).Coherent where
  inverse st' k := by
    simp only [TripleStore.insert, getElem?_insert_iff]
    rw [ht.inverse]
    constructor
    · rintro (⟨rfl, rfl⟩ | ⟨-, hk⟩)
      · exact .inl ⟨rfl, rfl⟩
      · exact .inr ⟨by rintro rfl; exact hh (mem_of_getElem? hk), hk⟩
    · rintro (⟨rfl, rfl⟩ | ⟨-, hk⟩)
      · exact .inl ⟨rfl, rfl⟩
      · refine .inr ⟨?_, hk⟩
        rintro rfl
        rw [(ht.inverse st' k).2 hk] at hst
        cases hst
  subjects := ht.subjects.insert hh st
  predicates := ht.predicates.insert hh st
  objects := ht.objects.insert hh st

/-- A stored statement can be removed. -/
theorem remove_ok {t : TripleStore} (ht : t.Coherent) {h : Int} {st : Statement}
    (hh : t.statements[h]? = some st) :
    ∃ t', remove h t = .ok st t' ∧ t'.statements = t.statements.erase h ∧ t'.Coherent := by
  obtain ⟨hs, es, fs⟩ := ht.subjects.remove hh
  obtain ⟨hp, ep, fp⟩ := ht.predicates.remove hh
  obtain ⟨ho, eo, fo⟩ := ht.objects.remove hh
  have hst : st ∈ t.handles := mem_of_getElem? ((ht.inverse st h).2 hh)
  refine ⟨⟨t.statements.erase h, t.handles.erase st, t.bySubject.refile st.subject (hs.erase h),
    t.byPredicate.refile st.predicate (hp.erase h), t.byObject.refile st.object (ho.erase h)⟩,
    ?_, rfl, fun st' k => ?_, fs, fp, fo⟩
  · have hunfile : ∀ (m : Index Int Int) (k : Int) (held : ExtTreeSet Int) (t : TripleStore),
        m[k]? = some held → unfile m k h t = .ok (m.refile k (held.erase h)) t := by
      intro m k held t hm
      simp only [unfile, hm]
      rfl
    unfold remove
    rw [get_bind]
    simp only [hh]
    rw [modify_bind, get_bind, if_neg (not_not_intro hst), modify_bind, get_bind,
      bind_of_ok (hunfile _ _ _ _ es), modify_bind, get_bind, bind_of_ok (hunfile _ _ _ _ ep),
      modify_bind, get_bind, bind_of_ok (hunfile _ _ _ _ eo), modify_bind]
    rfl
  · rw [getElem?_erase_iff, getElem?_erase_iff, ht.inverse]
    constructor
    · rintro ⟨hne, hk⟩
      exact ⟨by rintro rfl; rw [hh] at hk; exact hne (Option.some.inj hk).symm, hk⟩
    · rintro ⟨hne, hk⟩
      refine ⟨?_, hk⟩
      rintro rfl
      have := (ht.inverse st' k).2 hk
      rw [(ht.inverse st' h).2 hh] at this
      exact hne (Option.some.inj this).symm

/-- The handles that use a handle are those of the statements that have it as a part. -/
theorem mem_involving {t : TripleStore} (ht : t.Coherent) (h k : Int) :
    k ∈ t.involving h ↔ ∃ st, t.statements[k]? = some st ∧ (st.subject = h ∨ st.predicate = h ∨ st.object = h) := by
  simp only [involving, ExtTreeSet.mem_toList, ExtTreeSet.mem_union_iff, ht.subjects.mem_iff,
    ht.predicates.mem_iff, ht.objects.mem_iff, or_assoc, ← exists_or, ← and_or_left]

/-- A handle uses another one in no place if the store lists nothing for it. -/
theorem involving_eq_nil_iff {t : TripleStore} (ht : t.Coherent) (k : Int) :
    t.involving k = [] ↔ ∀ (h : Int) (st : Statement), t.statements[h]? = some st →
      st.subject ≠ k ∧ st.predicate ≠ k ∧ st.object ≠ k := by
  simp only [List.eq_nil_iff_forall_not_mem, mem_involving ht, not_exists, not_and, not_or]

end TripleStore

/-! ## What is picked -/

/-- The given parts of a pattern are those of a statement. -/
def Statement.Fits (st : Statement) (s p o : Option Int) : Prop :=
  (∀ h ∈ s, st.subject = h) ∧ (∀ h ∈ p, st.predicate = h) ∧ ∀ h ∈ o, st.object = h

namespace TripleStore

variable {t : TripleStore}

/-- What a whole statement is looked up by fits that statement only. -/
theorem mem_find (ht : t.Coherent) (s p o k : Int) :
    k ∈ (t.find? ⟨s, p, o⟩).toList ↔ ∃ st, t.statements[k]? = some st ∧ st.Fits (some s) (some p) (some o) := by
  rw [Option.mem_toList, find?, ht.inverse]
  constructor
  · exact fun h => ⟨_, h, by simp [Statement.Fits]⟩
  · rintro ⟨⟨s', p', o'⟩, h, hfits⟩
    obtain ⟨rfl, rfl, rfl⟩ : s' = s ∧ p' = p ∧ o' = o := by simpa [Statement.Fits] using hfits
    exact h

/-- A stored handle is in every bucket that a pattern picks if its statement fits. -/
theorem mem_buckets (ht : t.Coherent) (s p o : Option Int) {k : Int} {st : Statement}
    (hk : t.statements[k]? = some st) : (∀ b ∈ t.buckets s p o, k ∈ b) ↔ st.Fits s p o := by
  have hone : ∀ {m : Index Int Int} {part : Statement → Int}, m.Files t.statements part →
      ∀ x : Option Int, (∀ b ∈ (x.map m.bucket).toList, k ∈ b) ↔ ∀ h ∈ x, part st = h := by
    intro m part hm x
    cases x with
    | none => simp
    | some h => simp [hm.mem_iff, hk]
  unfold buckets Statement.Fits
  rw [← hone ht.subjects, ← hone ht.predicates, ← hone ht.objects]
  simp only [List.mem_append, or_imp, forall_and, and_assoc]

/-- Only stored handles are in the buckets. -/
theorem stored_of_bucket (ht : t.Coherent) {s p o : Option Int} {b : ExtTreeSet Int compare} (hb : b ∈ t.buckets s p o)
    {k : Int} (hk : k ∈ b) : ∃ st, t.statements[k]? = some st := by
  have hone : ∀ {m : Index Int Int} {part : Statement → Int}, m.Files t.statements part →
      ∀ x : Option Int, b ∈ (x.map m.bucket).toList → ∃ st, t.statements[k]? = some st := by
    intro m part hm x hx
    cases x with
    | none => cases hx
    | some h =>
      obtain rfl : b = m.bucket h := by simpa using hx
      obtain ⟨st, hst, -⟩ := (hm.mem_iff h k).1 hk
      exact ⟨st, hst⟩
  unfold buckets at hb
  rcases List.mem_append.1 hb with hb | hb
  · rcases List.mem_append.1 hb with hb | hb
    · exact hone ht.subjects s hb
    · exact hone ht.predicates p hb
  · exact hone ht.objects o hb

/-- The handles that are picked are those of the statements that fit. -/
theorem mem_select (ht : t.Coherent) (s p o : Option Int) (k : Int) :
    k ∈ t.select s p o ↔ ∃ st, t.statements[k]? = some st ∧ st.Fits s p o := by
  unfold select
  split
  · exact mem_find ht _ _ _ k
  · split
    · next hnone =>
      rw [ExtTreeMap.mem_keys, mem_iff_exists_getElem?]
      refine exists_congr fun st => ⟨fun hk => ⟨hk, ?_⟩, And.left⟩
      rw [← mem_buckets ht _ _ _ hk, hnone]
      exact fun _ hb => nomatch hb
    · next b others hb =>
      have hall : k ∈ b.toList.filter (fun h => others.all (·.contains h)) ↔ ∀ c ∈ t.buckets s p o, k ∈ c := by
        rw [hb, List.mem_filter, ExtTreeSet.mem_toList, List.all_eq_true, List.forall_mem_cons]
        simp only [ExtTreeSet.contains_iff_mem]
      rw [hall]
      constructor
      · intro hk
        have hfirst : b ∈ t.buckets s p o := hb ▸ List.mem_cons_self
        obtain ⟨st, hst⟩ := stored_of_bucket ht hfirst (hk b hfirst)
        exact ⟨st, hst, (mem_buckets ht _ _ _ hst).1 hk⟩
      · rintro ⟨st, hst, hfits⟩
        exact (mem_buckets ht _ _ _ hst).2 hfits

end TripleStore

end GraphLisp
