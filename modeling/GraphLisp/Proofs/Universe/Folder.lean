import GraphLisp.Proofs.Outcome
import GraphLisp.Proofs.Universe.Load
/-!
# Snapshots in a folder

The name of a snapshot tells its id (`Folder.idOfName?_nameOfId`). Saving leaves a folder with one
snapshot for each environment and no other ones, and touches nothing else; where that stops midway, the
snapshots before the one that could not be written are there (`Universe.saveAs_ends`).
-/

namespace GraphLisp

open Std

namespace Folder

/-! ## Names -/

theorem digit?_of_isDigit {c : Char} (h : c.isDigit = true) : Text.digit? c = some (c.toNat - '0'.toNat) := by
  simp only [Char.isDigit, Bool.and_eq_true, decide_eq_true_eq] at h
  have hbounds : 0x30 ≤ c.toNat ∧ c.toNat ≤ 0x39 := h
  have hfind : (Text.zeros.find? fun start => start ≤ c.toNat && c.toNat < start + 10) = some 0x30 := by
    rw [Text.zeros, List.find?_cons_of_pos]
    simp only [Bool.and_eq_true, decide_eq_true_eq]
    omega
  rw [Text.digit?, hfind]
  rfl

/-- Decimal digits spell the number they are read as. -/
theorem readNat?_toDigits (n : Nat) : Text.readNat? (Nat.toDigits 10 n) = some n := by
  have hfold : ∀ (cs : List Char) (acc : Nat), (∀ c ∈ cs, c.isDigit = true) →
      cs.foldl (fun acc c => do return 10 * (← acc) + (← Text.digit? c)) (some acc) =
        some (Nat.ofDigitChars 10 cs acc) := by
    intro cs
    induction cs with
    | nil => exact fun acc _ => by simp
    | cons c cs ih =>
      intro acc h
      rw [List.foldl_cons, Nat.ofDigitChars_cons, ← ih _ fun d hd => h d (.tail _ hd)]
      rw [digit?_of_isDigit (h c (.head _))]
      rfl
  have hdigits := hfold (Nat.toDigits 10 n) 0 fun c hc => Nat.isDigit_of_mem_toDigits (by decide) (by decide) hc
  rw [Nat.ofDigitChars_ten_toDigits] at hdigits
  unfold Text.readNat?
  split
  · next h => exact absurd h Nat.toDigits_ne_nil
  · exact hdigits

/-- The id in the name of a snapshot is the one that the name was made from. -/
theorem idOfName?_nameOfId {id : Int} (h : 0 ≤ id) : idOfName? (nameOfId id .json) = some id := by
  obtain ⟨n, rfl⟩ := Int.eq_ofNat_of_zero_le h
  have hname : (nameOfId n .json).toList =
      'e' :: 'n' :: 'v' :: '-' :: (Nat.toDigits 10 n ++ ".json".toList) := by
    have hid : toString (n : Int) = n.repr := by
      rw [Int.toString_eq_repr, Int.repr_eq_if, if_pos h, Int.toNat_natCast]
    simp only [nameOfId, Format.word, hid]
    rw [String.toList_append, String.toList_append, String.toList_append, Nat.toList_repr, List.append_assoc,
      List.append_assoc]
    rfl
  have hsome : ∀ c ∈ Nat.toDigits 10 n, (Text.digit? c).isSome = true := by
    intro c hc
    rw [digit?_of_isDigit (Nat.isDigit_of_mem_toDigits (by decide) (by decide) hc)]
    rfl
  have htake : (Nat.toDigits 10 n ++ ".json".toList).takeWhile (fun c => (Text.digit? c).isSome) =
      Nat.toDigits 10 n := by
    rw [List.takeWhile_append_of_pos hsome]
    have hdot : ".json".toList.takeWhile (fun c => (Text.digit? c).isSome) = [] := by decide
    rw [hdot, List.append_nil]
  have hending : ".json".toList ∈ endings := by decide
  unfold idOfName?
  rw [hname]
  simp only [htake, List.drop_left, if_pos hending, readNat?_toDigits]
  rfl

theorem nameOfId_inj {id id' : Int} (h : 0 ≤ id) (h' : 0 ≤ id')
    (heq : nameOfId id .json = nameOfId id' .json) : id = id' := by
  have := idOfName?_nameOfId h
  rw [heq, idOfName?_nameOfId h'] at this
  exact (Option.some.inj this).symm

/-! ## Contents -/

theorem mem_snapshots {f : Folder} {name : String} {id : Int} {content : ByteArray} :
    (name, id, content) ∈ f.snapshots ↔ f[name]? = some (.file content) ∧ idOfName? name = some id := by
  unfold snapshots
  rw [List.mem_filterMap]
  constructor
  · rintro ⟨⟨name', item⟩, hmem, h⟩
    cases item with
    | folder => cases h
    | file content' =>
      obtain ⟨id', hid, h⟩ := Option.map_eq_some_iff.mp h
      cases h
      exact ⟨ExtTreeMap.mem_toList_iff_getElem?_eq_some.mp hmem, hid⟩
  · rintro ⟨hfile, hid⟩
    refine ⟨(name, .file content), ExtTreeMap.mem_toList_iff_getElem?_eq_some.mpr hfile, ?_⟩
    dsimp only
    rw [hid]
    rfl

theorem getElem?_erased (ss : List (String × Int × ByteArray)) (f : Folder) (name : String) :
    (ss.foldl (fun f s => f.erase s.1) f)[name]? = if name ∈ ss.map (·.1) then none else f[name]? := by
  induction ss generalizing f with
  | nil => simp
  | cons s ss ih =>
    rw [List.foldl_cons, ih]
    by_cases hs : name = s.1
    · subst hs
      simp
    · have herase : (f.erase s.1)[name]? = f[name]? := by
        rw [ExtTreeMap.getElem?_erase, if_neg fun h => hs (Std.compare_eq_iff_eq.mp h).symm]
      rw [herase, List.map_cons]
      simp only [List.mem_cons, hs, false_or]

/-- Is a file that holds a snapshot, by its name. -/
def Holds (f : Folder) (name : String) : Prop :=
  ∃ content, f[name]? = some (.file content) ∧ (idOfName? name).isSome = true

/-- What is discarded are the snapshots with other names than those kept. -/
theorem getElem?_discardBut (kept : List String) (f : Folder) (name : String) :
    (f.discardBut kept).2[name]? = none ∧ f.Holds name ∧ name ∉ kept ∨
      (f.discardBut kept).2[name]? = f[name]? ∧ ¬(f.Holds name ∧ name ∉ kept) := by
  have hmem : name ∈ (f.snapshots.filter fun s => s.1 ∉ kept).map (·.1) ↔ f.Holds name ∧ name ∉ kept := by
    simp only [List.mem_map, List.mem_filter, decide_eq_true_eq]
    constructor
    · rintro ⟨⟨name, id, content⟩, ⟨hs, hk⟩, rfl⟩
      obtain ⟨hfile, hid⟩ := mem_snapshots.mp hs
      exact ⟨⟨content, hfile, Option.isSome_iff_exists.mpr ⟨id, hid⟩⟩, hk⟩
    · rintro ⟨⟨content, hfile, hid⟩, hk⟩
      obtain ⟨id, hid⟩ := Option.isSome_iff_exists.mp hid
      exact ⟨(name, id, content), ⟨mem_snapshots.mpr ⟨hfile, hid⟩, hk⟩, rfl⟩
  unfold discardBut
  dsimp only
  rw [getElem?_erased]
  by_cases h : name ∈ (f.snapshots.filter fun s => s.1 ∉ kept).map (·.1)
  · rw [if_pos h]
    exact .inl ⟨rfl, hmem.mp h⟩
  · rw [if_neg h]
    exact .inr ⟨rfl, fun hh => h (hmem.mpr hh)⟩

end Folder

namespace Universe

/-! ## Saving -/

/-- What a member is saved to. -/
def Saved (e : Environment) (g : Folder) : Prop :=
  ∃ b, e.snapshot (some "json") = .ok b ∧ g[Folder.nameOfId e.id .json]? = some (.file b)

/-- A member cannot be saved: it has no snapshot, or a folder is in the way. -/
def Unsaved (e : Environment) (f : Folder) : Prop :=
  (∃ fault, e.snapshot (some "json") = .error fault) ∨ f[Folder.nameOfId e.id .json]? = some .folder

/-- The snapshots of some environments have been written, and nothing else has been touched. -/
structure Wrote (es : List Environment) (f g : Folder) : Prop where
  saved : ∀ e ∈ es, Saved e g
  others : ∀ name, name ∉ es.map (fun e => Folder.nameOfId e.id .json) → g[name]? = f[name]?

/-- Saving has stopped at an environment that cannot be saved, when those before it had been written. -/
def Stopped (es : List Environment) (f g : Folder) : Prop :=
  ∃ done e rest, es = done ++ e :: rest ∧ Unsaved e f ∧ Wrote done f g

theorem saveMember_ends (e : Environment) (f : Folder) :
    Ends (saveMember .json e) f (fun name g => name = Folder.nameOfId e.id .json ∧ Wrote [e] f g)
      fun _ g => g = f ∧ Unsaved e f := by
  unfold saveMember
  rw [ends_bind, ends_get]
  cases hb : e.snapshot (some Format.json.word) with
  | error fault => exact ⟨rfl, .inl ⟨fault, hb⟩⟩
  | ok b =>
    have hwritten : Ends (do
        modify fun f => f.insert (Folder.nameOfId e.id .json) (.file b)
        return Folder.nameOfId e.id .json : InFolder String) f
        (fun name g => name = Folder.nameOfId e.id .json ∧ Wrote [e] f g) fun _ g => g = f ∧ Unsaved e f := by
      rw [ends_bind, ends_modify]
      refine ⟨rfl, List.forall_mem_singleton.2 ⟨b, hb, ExtTreeMap.getElem?_insert_self⟩, fun k hk => ?_⟩
      rw [ExtTreeMap.getElem?_insert, if_neg fun h => hk (List.mem_singleton.2 (Std.compare_eq_iff_eq.mp h).symm)]
    cases hf : f[Folder.nameOfId e.id .json]? with
    | none => exact hwritten
    | some item =>
      cases item with
      | file content => exact hwritten
      | folder => exact ⟨rfl, .inr hf⟩

/-- What is written after other snapshots leaves those alone. -/
theorem Wrote.cons {e : Environment} {es : List Environment} {f g₁ g₂ : Folder} (h : Wrote [e] f g₁)
    (hnew : Folder.nameOfId e.id .json ∉ es.map fun e => Folder.nameOfId e.id .json) (h' : Wrote es g₁ g₂) :
    Wrote (e :: es) f g₂ where
  saved := by
    obtain ⟨b, hb, hfile⟩ := h.saved e (.head _)
    exact List.forall_mem_cons.2 ⟨⟨b, hb, (h'.others _ hnew).trans hfile⟩, h'.saved⟩
  others name hname := by
    obtain ⟨hne, hrest⟩ := not_or.1 (List.mem_cons.not.1 hname)
    exact (h'.others name hrest).trans (h.others name (List.mem_singleton.not.2 hne))

/-- Members with names of their own are saved one after the other. -/
theorem saveMembers_ends {es : List Environment} (hnames : (es.map fun e => Folder.nameOfId e.id .json).Nodup)
    (f : Folder) :
    Ends (es.mapM (saveMember .json)) f
      (fun names g => names = es.map (fun e => Folder.nameOfId e.id .json) ∧ Wrote es f g)
      fun _ g => Stopped es f g := by
  induction es generalizing f with
  | nil => exact ⟨rfl, nofun, fun _ _ => rfl⟩
  | cons e es ih =>
    obtain ⟨hnew, hnames⟩ := List.nodup_cons.mp hnames
    rw [List.mapM_cons]
    refine (saveMember_ends e f).bind ?_ ?_
    · rintro name g₁ ⟨rfl, hwrote⟩
      refine (ih hnames g₁).bind ?_ ?_
      · rintro names g₂ ⟨rfl, hrest⟩
        exact ⟨rfl, hwrote.cons hnew hrest⟩
      · rintro _ g₂ ⟨done, d, rest, rfl, hfail, hrest⟩
        have hmem : d ∈ done ++ d :: rest := List.mem_append_right _ (.head _)
        -- what was written before has another name
        have hne : Folder.nameOfId d.id .json ≠ Folder.nameOfId e.id .json :=
          fun heq => hnew (List.mem_map.2 ⟨d, hmem, heq⟩)
        refine ⟨e :: done, d, rest, rfl, hfail.imp_right fun h => ?_, hwrote.cons (fun h => hnew ?_) hrest⟩
        · exact (hwrote.others _ (List.mem_singleton.not.2 hne)).symm.trans h
        · rw [List.map_append]
          exact List.mem_append_left _ h
    · rintro _ _ ⟨rfl, hfail⟩
      exact ⟨[], e, es, rfl, hfail, nofun, fun _ _ => rfl⟩

theorem CoherentClosed.id_nonneg {u : Universe} (hu : u.CoherentClosed) {id : Int} (h : id ∈ u.members) : 0 ≤ id := by
  obtain ⟨e, he, hid⟩ := hu.closed.roots id h
  exact ((hu.coherent.tabled rootId e he).bounds id hid).1

/-- The names of the snapshots of a universe. -/
def fileNames (u : Universe) : List String := u.environments.map fun e => Folder.nameOfId e.id .json

/-- The folder that saving a universe leaves. -/
structure SavedIn (u : Universe) (f g : Folder) : Prop where
  /-- Every member has its snapshot. -/
  saved : ∀ (id : Int) (e : Environment), u.members[id]? = some e → Saved e g
  /-- Other snapshots are gone. -/
  gone : ∀ name, name ∉ u.fileNames → f.Holds name → g[name]? = none
  /-- What was neither written nor a snapshot is as it was. -/
  others : ∀ name, name ∉ u.fileNames → ¬f.Holds name → g[name]? = f[name]?

/-- The snapshots in a folder are those of some environments. -/
structure HoldsJust (es : List Environment) (g : Folder) : Prop where
  saved : ∀ e ∈ es, Saved e g
  only : ∀ name, g.Holds name → name ∈ es.map fun e => Folder.nameOfId e.id .json

/-- Only members have snapshots. -/
theorem SavedIn.holdsJust {u : Universe} {f g : Folder} (h : u.SavedIn f g) : HoldsJust u.environments g where
  saved e he := by
    obtain ⟨id, he⟩ := (mem_environments e).1 he
    exact h.saved id e he
  only name hname := by
    refine Decidable.byContradiction fun hnot => ?_
    obtain ⟨content, hfile, hid⟩ := hname
    by_cases hf : f.Holds name
    · exact nomatch (h.gone name hnot hf).symm.trans hfile
    · exact hf ⟨content, (h.others name hnot hf).symm.trans hfile, hid⟩

/-- Where there were no snapshots there are only those that have been written. -/
theorem Wrote.holdsJust {es : List Environment} {f g : Folder} (h : Wrote es f g) (hf : ∀ name, ¬f.Holds name) :
    HoldsJust es g where
  saved := h.saved
  only name hname := by
    refine Decidable.byContradiction fun hnot => hf name ?_
    obtain ⟨content, hfile, hid⟩ := hname
    exact ⟨content, (h.others name hnot).symm.trans hfile, hid⟩

theorem nodup_fileNames {u : Universe} (hu : u.Coherent) (hids : ∀ id ∈ u.members, 0 ≤ id) :
    u.fileNames.Nodup := by
  rw [fileNames, environments, List.map_map]
  refine List.pairwise_map.2 (ExtTreeMap.distinct_keys_toList.imp_of_mem fun {a b} ha hb hne heq => hne ?_)
  have ha := ExtTreeMap.mem_toList_iff_getElem?_eq_some.mp ha
  have hb := ExtTreeMap.mem_toList_iff_getElem?_eq_some.mp hb
  rw [Function.comp_apply, Function.comp_apply, hu.ids _ _ ha, hu.ids _ _ hb] at heq
  exact Std.compare_eq_iff_eq.2
    (Folder.nameOfId_inj (hids _ (mem_of_getElem? ha)) (hids _ (mem_of_getElem? hb)) heq)

/-- Saving writes every member, and what it leaves in the folder holds no other snapshot. Where it stops at a member,
the ones before that are written by then, and no snapshot is gone. -/
theorem saveAs_ends {u : Universe} (hu : u.Coherent) (hids : ∀ id ∈ u.members, 0 ≤ id) (f : Folder) :
    Ends (u.saveAs .json) f (fun names g => names = u.fileNames ∧ u.SavedIn f g)
      fun _ g => Stopped u.environments f g := by
  refine (saveMembers_ends (nodup_fileNames hu hids) f).bind ?_ fun _ _ h => h
  rintro names g ⟨rfl, hsaved, hothers⟩
  rw [ends_bind, ends_modify]
  refine ⟨rfl, fun id e he => ?_, fun name hname hf => ?_, fun name hname hf => ?_⟩
  · obtain ⟨b, hb, hfile⟩ := hsaved e ((mem_environments e).2 ⟨id, he⟩)
    refine ⟨b, hb, ?_⟩
    have hname : Folder.nameOfId e.id .json ∈ u.fileNames :=
      List.mem_map_of_mem ((mem_environments e).2 ⟨id, he⟩)
    rcases Folder.getElem?_discardBut u.fileNames g (Folder.nameOfId e.id .json) with ⟨-, -, h⟩ | ⟨h, -⟩
    · exact absurd hname h
    · exact h.trans hfile
  · obtain ⟨content, hfile, hid⟩ := hf
    rcases Folder.getElem?_discardBut u.fileNames g name with ⟨h, -, -⟩ | ⟨-, hkept⟩
    · exact h
    · exact absurd ⟨⟨content, (hothers name hname).trans hfile, hid⟩, hname⟩ hkept
  · have hsame := hothers name hname
    rcases Folder.getElem?_discardBut u.fileNames g name with ⟨-, ⟨content, hfile, hid⟩, -⟩ | ⟨h, -⟩
    · exact absurd ⟨content, hsame ▸ hfile, hid⟩ hf
    · exact h.trans hsame

/-- What is found in such a folder: the snapshots of the environments, under their names. -/
theorem HoldsJust.mem_snapshots {es : List Environment} {g : Folder} (h : HoldsJust es g) (hes : ∀ e ∈ es, 0 ≤ e.id)
    {name : String} {id : Int} {content : ByteArray} :
    (name, id, content) ∈ g.snapshots ↔ name = Folder.nameOfId id .json ∧
      ∃ e ∈ es, e.id = id ∧ e.snapshot (some "json") = .ok content := by
  rw [Folder.mem_snapshots]
  constructor
  · rintro ⟨hfile, hname⟩
    obtain ⟨e, he, rfl⟩ := List.mem_map.1 (h.only name ⟨content, hfile, Option.isSome_iff_exists.mpr ⟨id, hname⟩⟩)
    cases (Folder.idOfName?_nameOfId (hes e he)).symm.trans hname
    obtain ⟨b, hb, hfile'⟩ := h.saved e he
    cases hfile.symm.trans hfile'
    exact ⟨rfl, e, he, rfl, hb⟩
  · rintro ⟨rfl, e, he, rfl, hb⟩
    obtain ⟨b, hb', hfile⟩ := h.saved e he
    cases hb.symm.trans hb'
    exact ⟨hfile, Folder.idOfName?_nameOfId (hes e he)⟩

end Universe

end GraphLisp
