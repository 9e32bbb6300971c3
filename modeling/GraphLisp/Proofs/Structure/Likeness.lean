import Mathlib.Data.List.Forall2
import GraphLisp.Proofs.Structure.Flattened
/-!
# Structures alike

Two structures are alike if flattening makes them equal (`Structure.Like`). Structures alike have
the same shape, with parts alike, and scopes alike show values alike under the same names, and keep
doing so when they are extended alike. Both sides are sound: every level in them binds each name
once, as levels do that are built by binding, and nothing is missing unless it is said that
something may be.
-/

namespace GraphLisp

/-- Every level in a structure binds each name once, and nothing is missing unless `lax` says that
something may be. -/
inductive Structure.Sound (lax : Bool) : Structure → Prop where
  | int (n : Int) : Sound lax (.int n)
  | bool (b : Bool) : Sound lax (.bool b)
  | str (s : String) : Sound lax (.str s)
  | sym (name : String) : Sound lax (.sym name)
  | nil : Sound lax .nil
  | node (n : Node) : Sound lax (.node n)
  | pair {car cdr : Structure} (hcar : Sound lax car) (hcdr : Sound lax cdr) : Sound lax (.pair car cdr)
  | proc {params : List String} {body : Structure} {scope : Scope Structure} (hbody : Sound lax body)
    (distinct : scope.Distinct) (values : ∀ level ∈ scope, ∀ b ∈ level, Sound lax b.2) :
    Sound lax (.proc params body scope)
  | nothing (h : lax = true) : Sound lax .nothing

/-- Every level binds each name once, to a sound value. -/
structure Scope.Sound (lax : Bool) (scope : Scope Structure) : Prop where
  distinct : scope.Distinct
  values : ∀ level ∈ scope, ∀ b ∈ level, b.2.Sound lax

variable {lax : Bool}

theorem Structure.sound_pair_iff {car cdr : Structure} :
    (Structure.pair car cdr).Sound lax ↔ car.Sound lax ∧ cdr.Sound lax :=
  ⟨fun h => by cases h with | pair hcar hcdr => exact ⟨hcar, hcdr⟩, fun h => .pair h.1 h.2⟩

theorem Structure.sound_proc_iff {params : List String} {body : Structure} {scope : Scope Structure} :
    (Structure.proc params body scope).Sound lax ↔ body.Sound lax ∧ Scope.Sound lax scope :=
  ⟨fun h => by cases h with | proc hbody distinct values => exact ⟨hbody, distinct, values⟩,
    fun h => .proc h.1 h.2.distinct h.2.values⟩

theorem Scope.sound_nil : Scope.Sound lax [] := ⟨nofun, nofun⟩

theorem Scope.Sound.visible {scope : Scope Structure} (h : scope.Sound lax) :
    ∀ b ∈ scope.flatten, b.2.Sound lax := fun b hb =>
  have ⟨level, hl, hb⟩ := Scope.mem_flatten hb
  h.values level hl b hb

theorem Scope.Sound.single {level : Level Structure} (hd : level.Distinct)
    (hv : ∀ b ∈ level, b.2.Sound lax) : (Scope.single level).Sound lax := by
  cases level with
  | nil => exact sound_nil
  | cons b level =>
    refine ⟨fun l hl => ?_, fun l hl => ?_⟩ <;> cases List.mem_singleton.1 hl
    · exact hd
    · exact hv

/-- Flattening keeps a structure sound. -/
theorem Structure.Sound.flattened {s : Structure} (h : s.Sound lax) : s.flattened.Sound lax := by
  induction h with
  | pair _ _ ihcar ihcdr => exact .pair ihcar ihcdr
  | @proc params body scope _ distinct _ ihbody ihvalues =>
    rw [flattened_proc, sound_proc_iff]
    refine ⟨ihbody, .single (Scope.distinct_flatten _) fun b hb => ?_⟩
    rw [Scope.flatten_mapValues] at hb
    obtain ⟨c, hc, rfl⟩ := List.mem_map.1 hb
    obtain ⟨level, hl, hc⟩ := Scope.mem_flatten hc
    exact ihvalues level hl c hc
  | int n => exact .int n
  | bool b => exact .bool b
  | str s => exact .str s
  | sym name => exact .sym name
  | nil => exact .nil
  | node n => exact .node n
  | nothing h => exact .nothing h

/-- If nothing may be missing, a sound structure is whole. -/
theorem Structure.Sound.isWhole {s : Structure} (h : s.Sound false) : s.isWhole = true := by
  induction h with
  | pair _ _ ihcar ihcdr => rw [Structure.isWhole, ihcar, ihcdr]; rfl
  | @proc params body scope _ _ _ ihbody ihvalues =>
    rw [isWhole_proc, ihbody, Bool.and_true, List.all_eq_true]
    intro b hb
    obtain ⟨level, hl, hb⟩ := Scope.mem_flatten hb
    exact ihvalues level hl b hb
  | nothing h => cases h
  | _ => rfl

/-! ## Likeness -/

/-- The two structures are equal when flattened, and sound. -/
structure Structure.Like (lax : Bool) (a b : Structure) : Prop where
  same : a.flattened = b.flattened
  left : a.Sound lax
  right : b.Sound lax

/-- The two levels bind the same names in the same order to values alike. -/
structure Level.Like (lax : Bool) (level level' : Level Structure) : Prop where
  same : level.mapValues Structure.flattened = level'.mapValues Structure.flattened
  distinct : level.Distinct
  left : ∀ b ∈ level, b.2.Sound lax
  right : ∀ b ∈ level', b.2.Sound lax

/-- The two scopes show the same names in the same order with values alike. -/
structure Scope.Like (lax : Bool) (scope scope' : Scope Structure) : Prop where
  same : scope.flatten.mapValues Structure.flattened = scope'.flatten.mapValues Structure.flattened
  left : scope.Sound lax
  right : scope'.Sound lax

namespace Structure

variable {a b c d : Structure}

theorem Like.refl (h : a.Sound lax) : Like lax a a := ⟨rfl, h, h⟩

theorem Like.int (n : Int) : Like lax (.int n) (.int n) := .refl (.int n)

theorem Like.bool (b : Bool) : Like lax (.bool b) (.bool b) := .refl (.bool b)

theorem Like.nil : Like lax .nil .nil := .refl .nil

theorem Like.node (n : Node) : Like lax (.node n) (.node n) := .refl (.node n)

theorem Like.pair (ha : Like lax a b) (hc : Like lax c d) : Like lax (.pair a c) (.pair b d) :=
  ⟨congrArg₂ Structure.pair ha.same hc.same, .pair ha.left hc.left, .pair ha.right hc.right⟩

theorem Like.proc (params : List String) (ha : Like lax a b) {scope scope' : Scope Structure}
    (hs : scope.Like lax scope') : Like lax (.proc params a scope) (.proc params b scope') where
  same := by
    have hscope : (scope.mapValues flattened).collapse = (scope'.mapValues flattened).collapse := by
      rw [Scope.collapse, Scope.collapse, Scope.flatten_mapValues, Scope.flatten_mapValues, hs.same]
    rw [flattened_proc, flattened_proc, ha.same, hscope]
  left := sound_proc_iff.2 ⟨ha.left, hs.left⟩
  right := sound_proc_iff.2 ⟨ha.right, hs.right⟩

/-- The shapes that structures alike can have. -/
inductive Shape (lax : Bool) : Structure → Structure → Prop where
  | int (n : Int) : Shape lax (.int n) (.int n)
  | bool (b : Bool) : Shape lax (.bool b) (.bool b)
  | str (s : String) : Shape lax (.str s) (.str s)
  | sym (name : String) : Shape lax (.sym name) (.sym name)
  | nil : Shape lax .nil .nil
  | node (n : Node) : Shape lax (.node n) (.node n)
  | pair {a b c d : Structure} (ha : Like lax a b) (hc : Like lax c d) : Shape lax (.pair a c) (.pair b d)
  | proc (params : List String) {a b : Structure} (ha : Like lax a b) {scope scope' : Scope Structure}
    (hs : scope.Like lax scope') : Shape lax (.proc params a scope) (.proc params b scope')
  | nothing (h : lax = true) : Shape lax .nothing .nothing

theorem Like.shape (h : Like lax a b) : Shape lax a b := by
  obtain ⟨hsame, ha, hb⟩ := h
  cases a with
  | pair car cdr =>
    cases b with
    | pair car' cdr' =>
      injection hsame with hcar hcdr
      rw [sound_pair_iff] at ha hb
      exact .pair ⟨hcar, ha.1, hb.1⟩ ⟨hcdr, ha.2, hb.2⟩
    | _ => cases hsame
  | proc params body scope =>
    cases b with
    | proc params' body' scope' =>
      rw [flattened_proc, flattened_proc] at hsame
      injection hsame with hparams hbody hscope
      have hscope := Scope.single_injective hscope
      rw [Scope.flatten_mapValues, Scope.flatten_mapValues] at hscope
      rw [sound_proc_iff] at ha hb
      rw [hparams]
      exact .proc params' ⟨hbody, ha.1, hb.1⟩ ⟨hscope, ha.2, hb.2⟩
    | _ => cases hsame
  | nothing =>
    cases b with
    | nothing => cases ha with | nothing h => exact .nothing h
    | _ => cases hsame
  | int n => cases b <;> cases hsame; exact .int n
  | bool x => cases b <;> cases hsame; exact .bool x
  | str s => cases b <;> cases hsame; exact .str s
  | sym name => cases b <;> cases hsame; exact .sym name
  | nil => cases b <;> cases hsame; exact .nil
  | node n => cases b <;> cases hsame; exact .node n

/-! ## What is the same of structures alike -/

theorem Like.mentions (h : Like lax a b) : a.mentions = b.mentions := by
  rw [← mentions_flattened a, h.same, mentions_flattened]

theorem Like.isWhole (h : Like lax a b) : a.isWhole = b.isWhole := by
  rw [← isWhole_flattened a, h.same, isWhole_flattened]

theorem Like.isPrintable (h : Like lax a b) (names : Names) : a.isPrintable names = b.isPrintable names := by
  rw [← isPrintable_flattened names a, h.same, isPrintable_flattened]

theorem Like.isTooHigh (h : Like lax a b) : a.isTooHigh = b.isTooHigh := by
  rw [Structure.isTooHigh, Structure.isTooHigh, ← height_flattened a, h.same, height_flattened]

theorem Like.compare (h : Like lax a b) (h' : Like lax c d) : a.same c = b.same d := by
  rw [← same_flattened a, h.same, h'.same, same_flattened]

theorem Like.print (h : Like lax a b) (names : Names) : a.print names = b.print names := by
  rw [← (print_flattened names a).1, h.same, (print_flattened names b).1]

theorem Like.truthy (h : Like lax a b) : a.truthy = b.truthy := by
  cases h.shape with
  | bool b => rfl
  | _ => rfl

theorem Like.given (h : Like lax a b) : Option.Rel (Like lax) a.given? b.given? := by
  cases h.shape with
  | nothing => exact .none
  | _ => exact .some h

/-! ## Lists -/

theorem Like.spine (h : Like lax a b) :
    List.Forall₂ (Like lax) a.spine.1 b.spine.1 ∧ Like lax a.spine.2 b.spine.2 := by
  induction a using induct generalizing b with
  | pair car cdr _ ihcdr =>
    cases h.shape with
    | pair hcar hcdr => exact ⟨.cons hcar (ihcdr hcdr).1, (ihcdr hcdr).2⟩
  | _ =>
    cases h.shape
    exact ⟨.nil, h⟩

theorem Like.isList (h : Like lax a b) : a.isList = b.isList := by
  have hs := h.spine.2
  unfold Structure.isList
  generalize a.spine.2 = s at hs
  generalize b.spine.2 = t at hs
  cases hs.shape <;> rfl

theorem likes_left {xs ys : List Structure} (h : List.Forall₂ (Like lax) xs ys) : ∀ x ∈ xs, x.Sound lax := by
  induction h with
  | nil => exact nofun
  | cons hx _ ih => exact List.forall_mem_cons.2 ⟨hx.left, ih⟩

theorem likes_right {xs ys : List Structure} (h : List.Forall₂ (Like lax) xs ys) : ∀ y ∈ ys, y.Sound lax := by
  induction h with
  | nil => exact nofun
  | cons hy _ ih => exact List.forall_mem_cons.2 ⟨hy.right, ih⟩

theorem Like.list {xs ys : List Structure} (h : List.Forall₂ (Like lax) xs ys) :
    Like lax (.list xs) (.list ys) := by
  induction h with
  | nil => exact .nil
  | cons hx _ ih => exact .pair hx ih

end Structure

/-! ## Levels and scopes alike -/

/-- Options that are equal when flattened are alike. -/
theorem Structure.rel_of_map {o o' : Option Structure} (h : o.map flattened = o'.map flattened)
    (hl : ∀ s, o = some s → s.Sound lax) (hr : ∀ s, o' = some s → s.Sound lax) :
    Option.Rel (Like lax) o o' := by
  cases o <;> cases o' <;> simp only [Option.map_none, Option.map_some, reduceCtorEq, Option.some.injEq] at h
  · exact .none
  · exact .some ⟨h, hl _ rfl, hr _ rfl⟩

namespace Level

variable {level level' : Level Structure}

theorem mem_of_find? {α : Type} {level : Level α} {name : String} {a : α}
    (h : level.find? name = some a) : (name, a) ∈ level := by
  induction level with
  | nil => cases h
  | cons b level ih =>
    rw [find?_cons] at h
    split at h
    · next hname =>
      cases h
      rw [hname]
      exact .head _
    · exact .tail _ (ih h)

theorem Like.names (h : level.Like lax level') : level.names = level'.names := by
  rw [← names_mapValues Structure.flattened, h.same, names_mapValues]

theorem Like.distinct' (h : level.Like lax level') : level'.Distinct := by
  unfold Distinct
  rw [← h.names]
  exact h.distinct

theorem like_nil : Level.Like lax [] [] := ⟨rfl, distinct_nil, nofun, nofun⟩

theorem Like.find? (h : level.Like lax level') (name : String) :
    Option.Rel (Structure.Like lax) (level.find? name) (level'.find? name) := by
  refine Structure.rel_of_map ?_ (fun s hs => h.left _ (mem_of_find? hs)) fun s hs => h.right _ (mem_of_find? hs)
  rw [← find?_mapValues, h.same, find?_mapValues]

/-- Another name bound to values alike. -/
theorem Like.append (h : level.Like lax level') {name : String} (hnew : level.find? name = none)
    {s s' : Structure} (hs : s.Like lax s') :
    Level.Like lax (level ++ [(name, s)]) (level' ++ [(name, s')]) where
  same := by
    have hlast : Level.mapValues Structure.flattened [(name, s)] =
        Level.mapValues Structure.flattened [(name, s')] := by simp [hs.same]
    have hfirst := h.same
    simp only [mapValues, List.map_append] at hlast hfirst ⊢
    rw [hfirst, hlast]
  distinct := by
    have habsent : name ∉ level.names := by
      intro hm
      obtain ⟨b, hb, rfl⟩ := List.mem_map.1 hm
      have := List.lookup_eq_none_iff.1 hnew b hb
      simp at this
    rw [← bind_of_absent habsent]
    exact h.distinct.bind name s
  left b hb := by
    rcases List.mem_append.1 hb with hb | hb
    · exact h.left b hb
    · cases List.mem_singleton.1 hb
      exact hs.left
  right b hb := by
    rcases List.mem_append.1 hb with hb | hb
    · exact h.right b hb
    · cases List.mem_singleton.1 hb
      exact hs.right

/-- Parameters bound to values alike. -/
theorem like_ofPairs (params : List String) {xs ys : List Structure}
    (h : List.Forall₂ (Structure.Like lax) xs ys) :
    Level.Like lax (ofPairs (params.zip xs)) (ofPairs (params.zip ys)) where
  same := by
    have hzip : Level.mapValues Structure.flattened (params.zip xs) =
        Level.mapValues Structure.flattened (params.zip ys) := by
      induction h generalizing params with
      | nil => rfl
      | cons hx _ ih =>
        cases params with
        | nil => rfl
        | cons p params => simp [mapValues_cons, hx.same, ih params]
    rw [ofPairs, mapValues_update, hzip, ← mapValues_update]
    rfl
  distinct := distinct_ofPairs _
  left b hb := by
    rcases mem_update hb with hb | hb
    · cases hb
    · exact Structure.likes_left h _ (List.of_mem_zip hb).2
  right b hb := by
    rcases mem_update hb with hb | hb
    · cases hb
    · exact Structure.likes_right h _ (List.of_mem_zip hb).2

end Level

namespace Scope

variable {scope scope' : Scope Structure}

theorem like_nil : Scope.Like lax [] [] := ⟨rfl, sound_nil, sound_nil⟩

theorem Like.find? (h : scope.Like lax scope') (name : String) :
    Option.Rel (Structure.Like lax) (scope.find? name) (scope'.find? name) := by
  rw [← find?_flatten h.left.distinct, ← find?_flatten h.right.distinct]
  refine Structure.rel_of_map ?_ (fun s hs => h.left.visible _ (Level.mem_of_find? hs))
    fun s hs => h.right.visible _ (Level.mem_of_find? hs)
  rw [← Level.find?_mapValues, h.same, Level.find?_mapValues]

theorem Sound.extend (h : scope.Sound lax) {level : Level Structure} (hd : level.Distinct)
    (hv : ∀ b ∈ level, b.2.Sound lax) : (scope.extend level).Sound lax where
  distinct l hl := by
    rcases List.mem_cons.1 hl with rfl | hl
    · exact hd
    · exact h.distinct l hl
  values l hl := by
    rcases List.mem_cons.1 hl with rfl | hl
    · exact hv
    · exact h.values l hl

theorem Like.extend (h : scope.Like lax scope') {level level' : Level Structure}
    (hl : level.Like lax level') : (scope.extend level).Like lax (scope'.extend level') where
  same := by
    rw [Scope.extend, Scope.extend, flatten_cons, flatten_cons, Level.mapValues_update,
      Level.mapValues_update, h.same, hl.same]
  left := h.left.extend hl.distinct hl.left
  right := h.right.extend hl.distinct' hl.right

end Scope

end GraphLisp
