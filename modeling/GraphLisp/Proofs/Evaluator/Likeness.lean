import GraphLisp.Proofs.Environment.Regions
import GraphLisp.Proofs.Evaluator.Parts
import GraphLisp.Proofs.Universe.Likeness
/-!
# Evaluation does not see how scopes are nested

Evaluating structures alike in scopes alike, on universes alike, ends alike (`eval_agree`): a form
looks at scopes only by what names mean in them, and what it stores, prints, compares or blames is
the same once flattened. The evaluator of the parts is a parameter until the last theorem, which is
an induction on how many evaluations may be inside each other.
-/

namespace GraphLisp

open Std

variable {lax : Bool}

/-- Two steps have come to the same, up to structures alike. -/
structure Progress.Like (lax : Bool) (p p' : Progress) : Prop where
  store : p.store.Like lax p'.store
  place : p.place = p'.place
  sound : p.place.location.Sound lax
  moved : p.moved = p'.moved
  journal : Universe.JournalsLike lax p.journal p'.journal
  effects : p.effects = p'.effects

theorem Progress.Like.env {p p' : Progress} (hp : p.Like lax p') : p.place.env = p'.place.env :=
  congrArg Place.env hp.place

theorem Progress.Like.location {p p' : Progress} (hp : p.Like lax p') :
    p.place.location.Like lax p'.place.location := hp.place ▸ .refl hp.sound

/-- Two steps consult the same context, and overlays alike. -/
structure Setting.Like (lax : Bool) (setting setting' : Setting) : Prop where
  context : setting.context = setting'.context
  players : ∀ r s, setting.context.player? r = some s → s.Sound lax
  overlay : setting.overlay.Like lax setting'.overlay
  top : setting.top.Like lax setting'.top

/-- Lists of structures alike, one by one. -/
abbrev ListsLike (lax : Bool) : List Structure → List Structure → Prop :=
  List.Forall₂ (Structure.Like lax)

/-- Two evaluators agree on structures alike in scopes alike. -/
def EvaluatesAlike (lax : Bool) (ev ev' : Form.Evaluate) : Prop :=
  ∀ (s s' : Structure) (scope scope' : Scope Structure), s.Like lax s' → scope.Like lax scope' →
    Agree (Progress.Like lax) (Structure.Like lax) (ev s scope) (ev' s' scope')

theorem rel_or {α β : Type} {R : α → β → Prop} {o₁ o₂ : Option α} {p₁ p₂ : Option β}
    (h₁ : Option.Rel R o₁ p₁) (h₂ : Option.Rel R o₂ p₂) : Option.Rel R (o₁.or o₂) (p₁.or p₂) := by
  cases h₁ with
  | some h => exact .some h
  | none => exact h₂

theorem toList_likes {s s' : Structure} (h : s.Like lax s') :
    Answers (ListsLike lax) s.toList s'.toList := by
  have hspine := h.spine
  unfold Structure.toList
  generalize s.spine = x at hspine ⊢
  generalize s'.spine = y at hspine ⊢
  obtain ⟨xs, t⟩ := x
  obtain ⟨ys, t'⟩ := y
  cases hspine.2.shape with
  | nil => exact .ok hspine.1
  | _ =>
    have himproper : Fault.flattened (.improperList s) = Fault.flattened (.improperList s') :=
      congrArg Fault.improperList h.same
    have hexpected : Fault.flattened (.expectedList s) = Fault.flattened (.expectedList s') :=
      congrArg Fault.expectedList h.same
    cases h.shape with
    | pair _ _ => exact .error himproper
    | _ => exact .error hexpected

namespace Eval

variable {α β : Type} {Q : α → β → Prop}

theorem answer_agree {x : Except Fault α} {y : Except Fault β} (h : Answers Q x y) :
    Agree (Progress.Like lax) Q (answer x) (answer y) := by
  cases h with
  | ok h => exact agree_pure h
  | error h => exact agree_throw h

theorem change_agree {c : Universe.Change α} {c' : Universe.Change β}
    (h : Agree (Universe.Like lax) Q c c') : Agree (Progress.Like lax) Q (change c) (change c') := by
  intro p p' hp
  have h := h _ _ hp.store
  unfold change
  generalize c p.store = x at h ⊢
  generalize c' p'.store = y at h ⊢
  cases h with
  | ok ha hs => exact .ok ha { hp with store := hs }
  | error hf hs => exact .error hf { hp with store := hs }

theorem within_agree (env : Int) {op : Surroundings → Op α} {op' : Surroundings → Op β}
    (h : ∀ around, Agree (Locale.Like lax) Q (op around) (op' around)) :
    Agree (Progress.Like lax) Q (within env op) (within env op') :=
  change_agree (Universe.within_agree env h)

theorem record_agree (env : Int) {undo undo' : Undo} (h : undo.Like lax undo') :
    Agree (Progress.Like lax) (fun _ _ => True) (record env undo) (record env undo') := by
  have hlabel : undo.isLabelled = undo'.isLabelled := by
    unfold Undo.isLabelled
    rw [h.node]
  unfold record
  rw [hlabel]
  split
  · exact agree_modify fun _ _ hp => { hp with journal := .cons ⟨rfl, h⟩ hp.journal }
  · exact agree_throw rfl

theorem environment_agree (env : Int) :
    Agree (Progress.Like lax) (Environment.Like lax) (environment env) (environment env) :=
  agree_get.bind fun _ _ hp => answer_agree (Universe.environment_likes hp.store env)

theorem here_agree : Agree (Progress.Like lax) (Environment.Like lax) here here :=
  agree_get.bind fun _ _ hp => hp.env ▸ environment_agree _

theorem say_agree (message : String) :
    Agree (Progress.Like lax) Eq (say message) (say message) :=
  (agree_modify fun _ _ hp => { hp with effects := congrArg (· ++ _) hp.effects }).mono fun _ _ _ => rfl

theorem elements_agree {s s' : Structure} (h : s.Like lax s') :
    Agree (Progress.Like lax) (ListsLike lax) (elements s) (elements s') :=
  answer_agree (toList_likes h)

theorem meaning_agree (n : Node) :
    Agree (Progress.Like lax) (Structure.Like lax) (meaning n) (meaning n) :=
  (environment_agree n.env).bind fun _ _ he => answer_agree (Environment.getStructure_likes he (.node n))

/-! ## Symbols -/

section
variable {setting setting' : Setting} {scope scope' : Scope Structure}

/-- What the roles of a context are bound to. -/
theorem player_likes (hset : setting.Like lax setting') (r : Role) :
    Option.Rel (Structure.Like lax) (setting.context.find? r) (setting'.context.find? r) := by
  rw [← hset.context]
  unfold Context.find?
  cases hp : setting.context.player? r with
  | none => exact .none
  | some s => exact (Structure.Like.refl (hset.players r s hp)).given

theorem bound_likes (hset : setting.Like lax setting') (hs : scope.Like lax scope') (name : String) :
    Option.Rel (Structure.Like lax) ((scope.find? name).or (Level.find? setting.overlay name))
      ((scope'.find? name).or (Level.find? setting'.overlay name)) :=
  rel_or (hs.find? name) (hset.overlay.find? name)

theorem resolve_agree (hset : setting.Like lax setting') (hs : scope.Like lax scope') (name : String) :
    Agree (Progress.Like lax) (Structure.Like lax) (resolve setting name scope)
      (resolve setting' name scope') := by
  have hbound := bound_likes hset hs name
  unfold resolve
  generalize (scope.find? name).or (Level.find? setting.overlay name) = o at hbound ⊢
  generalize (scope'.find? name).or (Level.find? setting'.overlay name) = o' at hbound ⊢
  cases hbound with
  | some h => exact agree_pure h
  | none =>
    dsimp only
    refine agree_get.bind fun p p' hp => ?_
    cases literal? name with
    | some digits =>
      obtain ⟨envDigits, idDigits⟩ := digits
      have hnode : ∀ env : Int, Agree (Progress.Like lax) (Structure.Like lax)
          (do
            let n : Node := ⟨env, ← answer (literalNumber idDigits)⟩
            if p.store.resolves n then return Structure.node n else throw (.noSuchNode name n))
          (do
            let n : Node := ⟨env, ← answer (literalNumber idDigits)⟩
            if p'.store.resolves n then return Structure.node n else throw (.noSuchNode name n)) := by
        intro env
        refine (answer_agree (answers_refl (Q := Eq) (fun _ => rfl) _)).bind ?_
        rintro id _ rfl
        refine Agree.ite ?_ (agree_pure (.node _)) (agree_throw rfl)
        rw [Universe.resolves_likes hp.store]
      cases envDigits with
      | some digits =>
        refine (answer_agree (answers_refl (Q := Eq) (fun _ => rfl) _)).bind ?_
        rintro env _ rfl
        exact hnode env
      | none =>
        refine (agree_pure hp.env).bind ?_
        rintro env _ rfl
        exact hnode env
    | none =>
      refine here_agree.bind fun e e' he => ?_
      have hnamed : Option.Rel (Structure.Like lax) ((e.lookupName name).map Structure.node)
          ((e'.lookupName name).map Structure.node) := by
        rw [Environment.lookupName_likes he]
        cases e.lookupName name with
        | none => exact .none
        | some n => exact .some (.node n)
      have hrole : Option.Rel (Structure.Like lax) ((Role.ofWord? name).bind setting.context.find?)
          ((Role.ofWord? name).bind setting'.context.find?) := by
        cases Role.ofWord? name with
        | none => exact .none
        | some r => exact player_likes hset r
      have hfound := rel_or hnamed hrole
      generalize ((e.lookupName name).map Structure.node).or _ = o at hfound ⊢
      generalize ((e'.lookupName name).map Structure.node).or _ = o' at hfound ⊢
      cases hfound with
      | some h => exact agree_pure h
      | none => exact agree_throw rfl

theorem namesNode_likes (hset : setting.Like lax setting') (hs : scope.Like lax scope') (name : String) :
    namesNode setting name scope = namesNode setting' name scope' := by
  have h₁ := hs.find? name
  have h₂ := hset.overlay.find? name
  unfold namesNode
  generalize scope.find? name = o₁ at h₁ ⊢
  generalize scope'.find? name = o₁' at h₁ ⊢
  generalize Level.find? setting.overlay name = o₂ at h₂ ⊢
  generalize Level.find? setting'.overlay name = o₂' at h₂ ⊢
  cases h₁ <;> cases h₂ <;> rfl

theorem lookup_agree (hset : setting.Like lax setting') (hs : scope.Like lax scope') (name : String) :
    Agree (Progress.Like lax) (Structure.Like lax) (lookup setting name scope)
      (lookup setting' name scope') := by
  refine (resolve_agree hset hs name).bind fun s s' h => ?_
  cases h.shape with
  | node n =>
    refine Agree.ite ?_ (meaning_agree n) (agree_pure (.node n))
    rw [namesNode_likes hset hs]
  | _ => exact agree_pure h

end

/-! ## Places -/

theorem tellAll_agree (names : Names) (ts : List Triple) :
    Agree (Progress.Like lax) Eq
      (tellAll names ts) (tellAll names ts) := by
  induction ts with
  | nil => exact agree_pure rfl
  | cons t ts ih =>
    unfold tellAll
    split
    · exact (say_agree _).bind fun _ _ _ => ih
    · exact agree_throw rfl

theorem describe_agree : Agree (Progress.Like lax) (fun _ _ => True) describe describe := by
  unfold describe
  refine agree_get.bind fun p p' hp => ?_
  have hloc := hp.location
  rw [Universe.names_likes hp.store]
  generalize p.place.location = s at hloc ⊢
  generalize p'.place.location = s' at hloc ⊢
  cases hloc.shape with
  | node n =>
    refine (environment_agree n.env).bind fun e e' he => ?_
    refine (answer_agree (Environment.askAny_likes he (.node n))).bind ?_
    rintro ts _ rfl
    exact (tellAll_agree _ ts).mono fun _ _ _ => trivial
  | _ => exact agree_throw rfl

theorem moveTo_agree (n : Node) :
    Agree (Progress.Like lax) (Structure.Like lax) (moveTo n) (moveTo n) := by
  unfold moveTo
  refine agree_get.bind fun p p' hp => (answer_agree (Universe.jump_likes hp.store n)).bind ?_
  rintro place _ ⟨rfl, m, hm⟩
  refine (agree_modify fun p p' hp => ?_).bind fun _ _ _ => describe_agree.bind fun _ _ _ => ?_
  · exact { hp with place := rfl, moved := rfl, sound := hm ▸ .node m }
  · exact agree_pure (hm ▸ .node m)

end Eval

namespace Form

open Eval

section
variable {ev ev' : Evaluate} (hev : EvaluatesAlike lax ev ev')
variable {setting setting' : Setting} (hset : setting.Like lax setting')
variable {args args' : List Structure} (hargs : ListsLike lax args args')
variable {scope scope' : Scope Structure} (hs : scope.Like lax scope')
variable {form form' s s' : Structure} (hform : form.Like lax form')

theorem misfit_agree {α β : Type} {Q : α → β → Prop} {args args' : List Structure}
    (hargs : ListsLike lax args args') {form form' : Structure} (hform : form.Like lax form')
    (f : SpecialForm) (expected : Arity) :
    Agree (Progress.Like lax) Q (misfit f expected args form) (misfit f expected args' form') := by
  refine agree_throw ?_
  rw [hargs.length_eq]
  exact congrArg (Fault.arity f.word expected args'.length) hform.same

include hev hset hs in
theorem referent_agree (h : s.Like lax s') : Agree (Progress.Like lax) (Structure.Like lax)
    (referent setting ev s scope) (referent setting' ev' s' scope') := by
  cases h.shape with
  | sym name => exact resolve_agree hset hs name
  | _ => exact hev _ _ _ _ h hs

theorem designated_agree (h : s.Like lax s') :
    Agree (Progress.Like lax) Eq (designated s) (designated s') := by
  cases h.shape with
  | node n => exact agree_pure rfl
  | _ => exact agree_throw (congrArg Fault.undesignated h.same)

include hev hset hs in
theorem designate_agree (h : s.Like lax s') :
    Agree (Progress.Like lax) Eq (designate setting ev s scope) (designate setting' ev' s' scope') := by
  rw [designate_eq, designate_eq]
  exact (referent_agree hev hset hs h).bind fun _ _ h => designated_agree h

include hev hs in
theorem body_agree (hargs : ListsLike lax args args') :
    Agree (Progress.Like lax) (Structure.Like lax) (body ev scope args) (body ev' scope' args') := by
  induction hargs with
  | nil => exact agree_pure .nil
  | cons h hrest ih =>
    cases hrest with
    | nil => exact hev _ _ _ _ h hs
    | cons h' hrest => exact (hev _ _ _ _ h hs).bind fun _ _ _ => ih

/-! ## Procedures and bindings -/

theorem parameters_likes (hargs : ListsLike lax args args') (seen : List String) :
    Answers Eq (parameters seen args) (parameters seen args') := by
  induction hargs generalizing seen with
  | nil => exact .ok rfl
  | cons h _ ih =>
    cases h.shape with
    | sym name =>
      unfold parameters
      split
      · exact .error rfl
      · refine (ih (name :: seen)).bind ?_
        rintro names _ rfl
        exact .ok rfl
    | _ => exact .error (congrArg Fault.parameter h.same)

include hset hs hargs hform in
theorem lambda_agree : Agree (Progress.Like lax) (Structure.Like lax)
    (lambda setting args scope form) (lambda setting' args' scope' form') := by
  have hmisfit := misfit_agree (Q := Structure.Like lax) hargs hform .lambda (.atLeast 2)
  rcases hargs with _ | ⟨hparams, _ | ⟨hfirst, hmore⟩⟩
  · exact hmisfit
  · exact hmisfit
  refine (elements_agree hparams).bind fun _ _ hlist => ?_
  refine (answer_agree (parameters_likes hlist [])).bind ?_
  rintro names _ rfl
  have hempty := hmore.length_eq
  refine Agree.ite ?_ (agree_pure (.proc names hfirst hs)) ?_
  · rw [List.isEmpty_iff_length_eq_zero, List.isEmpty_iff_length_eq_zero, hempty]
  · have hprogn : Answers (Structure.Like lax) (setting.context.lookup "progn")
        (setting'.context.lookup "progn") := by
      rw [← hset.context]
      unfold Context.lookup
      cases hp : (Role.ofWord? "progn").bind setting.context.player? with
      | none => exact .error rfl
      | some s =>
        obtain ⟨r, -, hr⟩ := Option.bind_eq_some_iff.1 hp
        exact .ok (.refl (hset.players r s hr))
    refine (answer_agree hprogn).bind fun progn progn' h => agree_pure ?_
    exact .proc names (.pair h (.list (.cons hfirst hmore))) hs

include hev hs in
theorem letLevel_agree (hargs : ListsLike lax args args') :
    ∀ level level', Level.Like lax level level' → Agree (Progress.Like lax) (Level.Like lax)
      (letLevel ev scope level args) (letLevel ev' scope' level' args') := by
  induction hargs with
  | nil => exact fun _ _ h => agree_pure h
  | @cons entry entry' rest rest' hentry _ ih =>
    intro level level' hlevel
    have hrefuse : Fault.flattened (.letEntry entry) = Fault.flattened (.letEntry entry') :=
      congrArg Fault.letEntry hentry.same
    cases hentry.shape with
    | pair ha hd =>
      unfold letLevel
      refine (elements_agree hentry).bind fun parts parts' hparts => ?_
      rcases hparts with _ | ⟨hname, _ | ⟨hvalue, _ | _⟩⟩
      · exact agree_throw hrefuse
      · cases hname.shape <;> exact agree_throw hrefuse
      · cases hname.shape with
        | sym name =>
          have hfind := hlevel.find? name
          dsimp only
          cases hl : Level.find? level name with
          | some s =>
            rw [hl] at hfind
            generalize Level.find? level' name = o' at hfind ⊢
            cases hfind
            exact agree_throw rfl
          | none =>
            rw [hl] at hfind
            generalize Level.find? level' name = o' at hfind ⊢
            cases hfind
            exact (hev _ _ _ _ hvalue hs).bind fun v v' hv => ih _ _ (hlevel.append hl hv)
        | _ => exact agree_throw hrefuse
      · cases hname.shape <;> exact agree_throw hrefuse
    | _ => exact agree_throw hrefuse

include hev hs hargs hform in
theorem letIn_agree : Agree (Progress.Like lax) (Structure.Like lax)
    (letIn ev args scope form) (letIn ev' args' scope' form') := by
  have hmisfit := misfit_agree (Q := Structure.Like lax) hargs hform .letIn (.atLeast 2)
  rcases hargs with _ | ⟨hentries, _ | ⟨hfirst, hmore⟩⟩
  · exact hmisfit
  · exact hmisfit
  refine (elements_agree hentries).bind fun _ _ hlist => ?_
  refine (letLevel_agree hev hs hlist _ _ Level.like_nil).bind fun level level' hlevel => ?_
  exact body_agree hev (hs.extend hlevel) (.cons hfirst hmore)

/-! ## The store -/

theorem make_agree (name : Option String) (h : Option.Rel (Structure.Like lax) s.given? s'.given?) :
    Agree (Progress.Like lax) (Structure.Like lax) (make name s) (make name s') := by
  refine agree_get.bind fun p p' hp => ?_
  dsimp only
  rw [hp.env]
  refine (within_agree _ fun around => Locale.createNode_agree around name h).bind ?_
  rintro n _ rfl
  exact (record_agree _ (.created n)).bind fun _ _ _ => agree_pure (.node n)

include hev hs hargs hform in
theorem define_agree : Agree (Progress.Like lax) (Structure.Like lax)
    (define ev args scope form) (define ev' args' scope' form') := by
  have hmisfit := misfit_agree (Q := Structure.Like lax) hargs hform .define (.between 1 2)
  rcases hargs with _ | ⟨hname, _ | ⟨hvalue, _ | _⟩⟩
  · exact hmisfit
  · cases hname.shape with
    | sym name => exact make_agree (some name) .none
    | _ => exact agree_throw (congrArg Fault.defName hname.same)
  · cases hname.shape with
    | sym name => exact (hev _ _ _ _ hvalue hs).bind fun _ _ hv => make_agree (some name) hv.given
    | _ => exact agree_throw (congrArg Fault.defName hname.same)
  · cases hname.shape <;> exact hmisfit

include hev hs hargs hform in
theorem node_agree : Agree (Progress.Like lax) (Structure.Like lax)
    (node ev args scope form) (node ev' args' scope' form') := by
  have hmisfit := misfit_agree (Q := Structure.Like lax) hargs hform .node (.between 0 1)
  rcases hargs with _ | ⟨h, _ | ⟨h', hmore⟩⟩
  · exact make_agree none .none
  · exact (hev _ _ _ _ h hs).bind fun _ _ hv => make_agree none hv.given
  · exact hmisfit

include hev hset hs hargs hform in
theorem set_agree : Agree (Progress.Like lax) (Structure.Like lax)
    (set setting ev args scope form) (set setting' ev' args' scope' form') := by
  have hmisfit := misfit_agree (Q := Structure.Like lax) hargs hform .set (.exactly 2)
  rcases hargs with _ | ⟨ht, _ | ⟨hv, _ | ⟨_, _⟩⟩⟩
  · exact hmisfit
  · exact hmisfit
  · refine (designate_agree hev hset hs ht).bind ?_
    rintro target _ rfl
    refine (hev _ _ _ _ hv hs).bind fun v v' hv => ?_
    refine (within_agree _ fun around =>
      Locale.setStructure_agree around (.node target) hv.given).bind fun o o' ho => ?_
    exact (record_agree _ (.restructured target ho)).bind fun _ _ _ => agree_pure hv
  · exact hmisfit

include hev hset hs hargs hform in
theorem tell_agree : Agree (Progress.Like lax) (Structure.Like lax)
    (tell setting ev args scope form) (tell setting' ev' args' scope' form') := by
  have hmisfit := misfit_agree (Q := Structure.Like lax) hargs hform .tell (.exactly 3)
  rcases hargs with _ | ⟨ha, _ | ⟨hb, _ | ⟨hc, _ | ⟨_, _⟩⟩⟩⟩
  · exact hmisfit
  · exact hmisfit
  · exact hmisfit
  · refine (designate_agree hev hset hs ha).bind ?_
    rintro s _ rfl
    refine (designate_agree hev hset hs hb).bind ?_
    rintro p _ rfl
    refine (designate_agree hev hset hs hc).bind ?_
    rintro o _ rfl
    refine agree_get.bind fun q q' hq => ?_
    dsimp only
    rw [hq.env]
    refine (within_agree _ fun _ => Locale.insertTriple_agree (.node s) (.node p) (.node o)).bind ?_
    rintro ⟨n, new⟩ _ rfl
    dsimp only
    split
    · exact (record_agree _ (.created n)).bind fun _ _ _ => agree_pure (.node n)
    · exact agree_pure (.node n)
  · exact hmisfit

include hev hset hs in
theorem patternPart_agree (h : s.Like lax s') :
    Agree (Progress.Like lax) (Option.Rel (Structure.Like lax)) (patternPart setting ev s scope)
      (patternPart setting' ev' s' scope') := by
  refine (designate_agree hev hset hs h).bind ?_
  rintro n _ rfl
  have hsame : (setting.context.find? .placeholder).any (·.same n) =
      (setting'.context.find? .placeholder).any (·.same n) := by rw [hset.context]
  dsimp only
  rw [hsame]
  split
  · exact agree_pure .none
  · exact agree_pure (.some (.node n))

include hev hset hs hargs hform in
theorem ask_agree : Agree (Progress.Like lax) (Structure.Like lax)
    (ask setting ev args scope form) (ask setting' ev' args' scope' form') := by
  have hmisfit := misfit_agree (Q := Structure.Like lax) hargs hform .ask (.exactly 3)
  rcases hargs with _ | ⟨ha, _ | ⟨hb, _ | ⟨hc, _ | ⟨_, _⟩⟩⟩⟩
  · exact hmisfit
  · exact hmisfit
  · exact hmisfit
  · refine (patternPart_agree hev hset hs ha).bind fun _ _ hs' => ?_
    refine (patternPart_agree hev hset hs hb).bind fun _ _ hp => ?_
    refine (patternPart_agree hev hset hs hc).bind fun _ _ ho => ?_
    refine here_agree.bind fun e e' he => ?_
    refine (answer_agree (Environment.ask_likes he hs' hp ho)).bind ?_
    rintro ts _ rfl
    refine agree_pure (.list ?_)
    induction ts with
    | nil => exact .nil
    | cons t ts ih => exact .cons (.node t.node) ih
  · exact hmisfit

include hev hset hs hargs hform in
theorem delete_agree : Agree (Progress.Like lax) (Structure.Like lax)
    (delete setting ev args scope form) (delete setting' ev' args' scope' form') := by
  have hmisfit := misfit_agree (Q := Structure.Like lax) hargs hform .delete (.exactly 1)
  rcases hargs with _ | ⟨ha, _ | ⟨_, _⟩⟩
  · exact hmisfit
  · refine (designate_agree hev hset hs ha).bind ?_
    rintro target _ rfl
    refine agree_get.bind fun p p' hp => ?_
    dsimp only
    rw [hp.location.compare (.node target), hset.context]
    split
    · exact agree_throw rfl
    split
    · exact agree_throw rfl
    refine (environment_agree target.env).bind fun e e' he => ?_
    refine (answer_agree (Environment.tripleOf_likes he target)).bind ?_
    rintro t _ rfl
    cases t with
    | some t =>
      refine (within_agree _ fun around => Locale.deleteTriple_agree around (.node target)).bind ?_
      rintro ⟨s, p, o⟩ _ rfl
      exact (record_agree _ (.deletedTriple target s p o)).bind fun _ _ _ => agree_pure (.bool true)
    | none =>
      refine (within_agree _ fun around => Locale.deleteNode_agree around (.node target)).bind
        fun was was' hwas => ?_
      exact (record_agree _ (.deletedNode target hwas)).bind fun _ _ _ => agree_pure (.bool true)
  · exact hmisfit

include hev hset hs hargs hform in
theorem importNode_agree : Agree (Progress.Like lax) (Structure.Like lax)
    (importNode setting ev args scope form) (importNode setting' ev' args' scope' form') := by
  have hmisfit := misfit_agree (Q := Structure.Like lax) hargs hform .importNode (.exactly 1)
  rcases hargs with _ | ⟨ha, _ | ⟨_, _⟩⟩
  · exact hmisfit
  · refine (designate_agree hev hset hs ha).bind ?_
    rintro target _ rfl
    refine here_agree.bind fun e e' he => ?_
    have hid : e'.id = e.id := by cases he; rfl
    rw [hid]
    split
    · exact agree_pure (.node target)
    refine agree_get.bind fun p p' hp => ?_
    dsimp only
    rw [hp.env]
    refine (within_agree _ fun around => Locale.importNode_agree around (.node target)).bind ?_
    rintro ⟨n, new⟩ _ rfl
    dsimp only
    split
    · exact (record_agree _ (.created n)).bind fun _ _ _ => agree_pure (.node n)
    · exact agree_pure (.node n)
  · exact hmisfit

/-! ## Places -/

include hev hset hs hargs hform in
theorem jump_agree : Agree (Progress.Like lax) (Structure.Like lax)
    (jump setting ev args scope form) (jump setting' ev' args' scope' form') := by
  have hmisfit := misfit_agree (Q := Structure.Like lax) hargs hform .jump (.exactly 1)
  rcases hargs with _ | ⟨ha, _ | ⟨_, _⟩⟩
  · exact hmisfit
  · refine (designate_agree hev hset hs ha).bind ?_
    rintro n _ rfl
    exact moveTo_agree n
  · exact hmisfit

include hev hset hs hargs hform in
theorem envJump_agree : Agree (Progress.Like lax) (Structure.Like lax)
    (envJump setting ev args scope form) (envJump setting' ev' args' scope' form') := by
  have hmisfit := misfit_agree (Q := Structure.Like lax) hargs hform .envJump (.exactly 1)
  rcases hargs with _ | ⟨ha, _ | ⟨_, _⟩⟩
  · exact hmisfit
  · refine (designate_agree hev hset hs ha).bind ?_
    rintro n _ rfl
    refine agree_get.bind fun p p' hp => ?_
    refine Agree.ite ?_ (agree_throw rfl) (moveTo_agree n)
    rw [Universe.denotes_likes hp.store]
  · exact hmisfit

theorem followFrom_agree (predicate : Option Node) :
    Agree (Progress.Like lax) (Structure.Like lax) (followFrom predicate) (followFrom predicate) := by
  refine agree_get.bind fun p p' hp => ?_
  rw [hp.env]
  refine (answer_agree (Universe.envNode_likes hp.store _)).bind ?_
  rintro source _ rfl
  refine (answer_agree (Universe.wormholes_likes hp.store source predicate)).bind ?_
  rintro ts _ rfl
  cases ts with
  | nil => exact agree_throw rfl
  | cons t ts => exact moveTo_agree t.object

include hev hset hs hargs hform in
theorem follow_agree : Agree (Progress.Like lax) (Structure.Like lax)
    (follow setting ev args scope form) (follow setting' ev' args' scope' form') := by
  have hmisfit := misfit_agree (Q := Structure.Like lax) hargs hform .follow (.between 0 1)
  rcases hargs with _ | ⟨ha, _ | ⟨_, _⟩⟩
  · exact followFrom_agree none
  · refine (designate_agree hev hset hs ha).bind ?_
    rintro n _ rfl
    exact followFrom_agree (some n)
  · exact hmisfit

/-! ## Regions -/

theorem selection_likes (hargs : ListsLike lax args args') : Answers Eq (selection args) (selection args') := by
  induction hargs with
  | nil => exact .ok rfl
  | cons h _ ih =>
    cases h.shape with
    | node n =>
      refine ih.bind ?_
      rintro ns _ rfl
      exact .ok rfl
    | _ => exact .error (congrArg Fault.selection h.same)

include hev hset hs hargs hform in
theorem compile_agree : Agree (Progress.Like lax) (Structure.Like lax)
    (compile setting ev args scope form) (compile setting' ev' args' scope' form') := by
  have hmisfit := misfit_agree (Q := Structure.Like lax) hargs hform .compile (.between 1 2)
  rcases hargs with _ | ⟨ha, _ | ⟨hb, _ | ⟨_, _⟩⟩⟩
  · exact hmisfit
  · refine (designate_agree hev hset hs ha).bind ?_
    rintro target _ rfl
    exact (environment_agree _).bind fun e e' he => answer_agree (Environment.unfold_likes he target none)
  · refine (designate_agree hev hset hs ha).bind ?_
    rintro target _ rfl
    refine (hev _ _ _ _ hb hs).bind fun _ _ hv => (elements_agree hv).bind fun _ _ hlist => ?_
    refine (answer_agree (selection_likes hlist)).bind ?_
    rintro predicates _ rfl
    exact (environment_agree _).bind fun e e' he =>
      answer_agree (Environment.unfold_likes he target (some predicates))
  · exact hmisfit

theorem rebuild_agree (env : Int) (h : s.Like lax s') :
    Agree (Progress.Like lax) (Structure.Like lax) (rebuild env s) (rebuild env s') := by
  refine (within_agree env fun around => Locale.raise_agree around h).bind ?_
  rintro ⟨result, created⟩ ⟨result', _⟩ ⟨hresult, rfl⟩
  refine (agree_modify fun p p' hp => ?_).bind fun _ _ _ => (answer_agree hresult).bind ?_
  · refine { hp with journal := ?_ }
    clear hresult
    induction created with
    | nil => exact hp.journal
    | cons n ns ih => exact .cons ⟨rfl, .created n⟩ ih
  · rintro n _ rfl
    exact agree_pure (.node n)

include hev hs hargs hform in
theorem decompile_agree : Agree (Progress.Like lax) (Structure.Like lax)
    (decompile ev args scope form) (decompile ev' args' scope' form') := by
  have hmisfit := misfit_agree (Q := Structure.Like lax) hargs hform .decompile (.exactly 1)
  rcases hargs with _ | ⟨ha, _ | ⟨_, _⟩⟩
  · exact hmisfit
  · refine (hev _ _ _ _ ha hs).bind fun v v' hv => agree_get.bind fun p p' hp => ?_
    rw [hp.env]
    exact rebuild_agree _ hv
  · exact hmisfit

include hset hargs hform in
theorem reify_agree : Agree (Progress.Like lax) (Structure.Like lax)
    (reify setting args form) (reify setting' args' form') := by
  have hmisfit := misfit_agree (Q := Structure.Like lax) hargs hform .reify (.exactly 0)
  rcases hargs with _ | ⟨_, _⟩
  · exact make_agree none hset.top.given
  · exact hmisfit

end

end Form

/-! ## Builtins -/

namespace Builtin

open Eval

variable {vs vs' : List Structure} {form form' : Structure}

theorem misfit_agree (h : ListsLike lax vs vs') (hform : form.Like lax form') (b : Builtin)
    (expected : Arity) : Agree (Progress.Like lax) (Structure.Like lax) (misfit b expected vs form)
      (misfit b expected vs' form') := by
  refine agree_throw ?_
  rw [h.length_eq]
  exact congrArg (Fault.arity b.word expected vs'.length) hform.same

theorem integers_likes (h : ListsLike lax vs vs') (b : Builtin) :
    Answers Eq (integers b vs) (integers b vs') := by
  induction h with
  | nil => exact .ok rfl
  | cons h _ ih =>
    cases h.shape with
    | int n =>
      refine ih.bind ?_
      rintro ns _ rfl
      exact .ok rfl
    | _ => exact .error (congrArg (Fault.notIntegers b.word) h.same)

theorem quotient_likes (hform : form.Like lax form') (n : Int) (ds : List Int) :
    Answers Eq (quotient form n ds) (quotient form' n ds) := by
  induction ds generalizing n with
  | nil => exact .ok rfl
  | cons d ds ih =>
    unfold quotient
    split
    · exact .error (congrArg Fault.divisionByZero hform.same)
    · exact ih _

theorem printed_likes {s s' : Structure} (h : s.Like lax s') (names : Names) :
    printed names s = printed names s' := by
  have hprint := h.print names
  cases h.shape with
  | str s => rfl
  | _ => exact hprint

theorem println_agree (h : ListsLike lax vs vs') :
    Agree (Progress.Like lax) (Structure.Like lax) (run .println vs form) (run .println vs' form') := by
  have hprinted : ∀ names, vs.map (printed names) = vs'.map (printed names) := by
    intro names
    induction h with
    | nil => rfl
    | cons h _ ih => rw [List.map_cons, List.map_cons, printed_likes h, ih]
  have hprintable : ∀ names, vs.all (·.isPrintable names) = vs'.all (·.isPrintable names) := by
    intro names
    clear hprinted
    induction h with
    | nil => rfl
    | cons h _ ih => rw [List.all_cons, List.all_cons, h.isPrintable, ih]
  unfold run
  refine agree_get.bind fun p p' hp => ?_
  rw [Universe.names_likes hp.store]
  dsimp only
  rw [hprintable, hprinted]
  split
  · exact agree_throw rfl
  · exact (say_agree _).bind fun _ _ _ => agree_pure .nil

/-- A builtin agrees on values alike. -/
theorem run_agree (h : ListsLike lax vs vs') (hform : form.Like lax form') (b : Builtin) :
    Agree (Progress.Like lax) (Structure.Like lax) (run b vs form) (run b vs' form') := by
  have hmisfit := misfit_agree h hform
  have hints := integers_likes h
  cases b with
  | println => exact println_agree h
  | car =>
    rcases h with _ | ⟨h, _ | ⟨_, _⟩⟩
    · exact hmisfit _ _
    · cases h.shape with
      | pair ha _ => exact agree_pure ha
      | _ => exact agree_throw (congrArg (Fault.expectsPair "car") h.same)
    · cases h.shape <;> exact hmisfit _ _
  | cdr =>
    rcases h with _ | ⟨h, _ | ⟨_, _⟩⟩
    · exact hmisfit _ _
    · cases h.shape with
      | pair _ hd => exact agree_pure hd
      | _ => exact agree_throw (congrArg (Fault.expectsPair "cdr") h.same)
    · cases h.shape <;> exact hmisfit _ _
  | cons =>
    rcases h with _ | ⟨ha, _ | ⟨hd, _ | ⟨_, _⟩⟩⟩
    · exact hmisfit _ _
    · exact hmisfit _ _
    · exact agree_pure (.pair ha hd)
    · exact hmisfit _ _
  | eq =>
    rcases h with _ | ⟨ha, _ | ⟨hb, _ | ⟨_, _⟩⟩⟩
    · exact hmisfit _ _
    · exact hmisfit _ _
    · refine agree_pure ?_
      rw [ha.compare hb]
      exact .bool _
    · exact hmisfit _ _
  | add =>
    refine (answer_agree (hints .add)).bind ?_
    rintro ns _ rfl
    exact agree_pure (.int _)
  | mul =>
    refine (answer_agree (hints .mul)).bind ?_
    rintro ns _ rfl
    exact agree_pure (.int _)
  | sub =>
    rcases h with _ | ⟨_, _⟩
    · exact hmisfit _ _
    · refine (answer_agree (hints .sub)).bind ?_
      rintro ns _ rfl
      rcases ns with _ | ⟨n, _ | ⟨m, ns⟩⟩
      · exact agree_pure .nil
      · exact agree_pure (.int _)
      · exact agree_pure (.int _)
  | div =>
    rcases h with _ | ⟨_, _ | ⟨_, _⟩⟩
    · exact hmisfit _ _
    · exact hmisfit _ _
    · refine (answer_agree (hints .div)).bind ?_
      rintro ns _ rfl
      cases ns with
      | nil => exact agree_pure .nil
      | cons n ns =>
        refine (answer_agree (quotient_likes hform n ns)).bind ?_
        rintro m _ rfl
        exact agree_pure (.int _)
  | listLen =>
    rcases h with _ | ⟨h, _ | ⟨_, _⟩⟩
    · exact hmisfit _ _
    · refine Agree.ite ?_ ?_ (agree_throw (congrArg Fault.expectsProperList h.same))
      · rw [h.isList]
      · refine (elements_agree h).bind fun xs ys hxs => agree_pure ?_
        rw [hxs.length_eq]
        exact .int _
    · exact hmisfit _ _
  | curr =>
    rcases h with _ | ⟨_, _⟩
    · exact describe_agree.bind fun _ _ _ => agree_get.bind fun _ _ hp => agree_pure hp.location
    · exact hmisfit _ _
  | currEnv =>
    rcases h with _ | ⟨_, _⟩
    · refine agree_get.bind fun p p' hp => ?_
      rw [hp.env]
      refine (answer_agree (Universe.envNode_likes hp.store _)).bind ?_
      rintro n _ rfl
      exact agree_pure (.node n)
    · exact hmisfit _ _
  | envFind =>
    rcases h with _ | ⟨h, _ | ⟨_, _⟩⟩
    · exact hmisfit _ _
    · have hfind : ∀ name : String, Agree (Progress.Like lax) (Structure.Like lax)
          (run .envFind [.str name] form) (run .envFind [.str name] form') := by
        intro name
        refine agree_get.bind fun p p' hp => ?_
        rw [Universe.findEnvironment_likes hp.store]
        split
        · exact agree_pure (.node _)
        · exact agree_pure .nil
      cases h.shape with
      | str name => exact hfind name
      | sym name => exact hfind name
      | _ => exact agree_throw (congrArg Fault.expectsName h.same)
    · exact hmisfit _ _

end Builtin

/-! ## Evaluation -/

namespace Evaluator

open Eval

section
variable {ev ev' : Form.Evaluate} (hev : EvaluatesAlike lax ev ev')
variable {setting setting' : Setting} (hset : setting.Like lax setting')
variable {args args' : List Structure} {scope scope' : Scope Structure}
variable {form form' s s' f f' : Structure}

include hev in
theorem applyProcedure_agree (params : List String) {body body' : Structure} (hbody : body.Like lax body')
    (hs : scope.Like lax scope') (hargs : ListsLike lax args args') (hform : form.Like lax form') :
    Agree (Progress.Like lax) (Structure.Like lax) (applyProcedure ev params body scope args form)
      (applyProcedure ev' params body' scope' args' form') := by
  unfold applyProcedure
  rw [hargs.length_eq]
  dsimp only
  split
  · exact agree_throw (congrArg (Fault.arity "lambda" (.exactly params.length) args'.length) hform.same)
  · exact hev _ _ _ _ hbody (hs.extend (Level.like_ofPairs params hargs))

theorem operator_agree (h : s.Like lax s') :
    Agree (Progress.Like lax) (Structure.Like lax) (operator s) (operator s') := by
  cases h.shape with
  | node n => exact meaning_agree n
  | _ => exact agree_pure h

theorem roleOf_likes (hset : setting.Like lax setting') (h : s.Like lax s') :
    setting.context.roleOf s = setting'.context.roleOf s' := by
  rw [hset.context]
  cases h.shape <;> rfl

include hev in
theorem evalAll_agree (hargs : ListsLike lax args args') (hs : scope.Like lax scope') :
    Agree (Progress.Like lax) (ListsLike lax) (evalAll ev scope args) (evalAll ev' scope' args') := by
  induction hargs with
  | nil => exact agree_pure .nil
  | cons h _ ih =>
    exact (hev _ _ _ _ h hs).bind fun _ _ hv => ih.bind fun _ _ hvs => agree_pure (.cons hv hvs)

include hev hset in
theorem applyValue_agree (hf : f.Like lax f') (hargs : ListsLike lax args args')
    (hform : form.Like lax form') : Agree (Progress.Like lax) (Structure.Like lax)
      (applyValue setting ev f args form) (applyValue setting' ev' f' args' form') := by
  unfold applyValue
  rw [roleOf_likes hset hf]
  split
  · exact Builtin.run_agree hargs hform _
  · exact agree_throw (congrArg (Fault.formNotApplicable _) hf.same)
  · refine (operator_agree hf).bind fun g g' hg => ?_
    cases hg.shape with
    | proc params hbody hs => exact applyProcedure_agree hev params hbody hs hargs hform
    | _ => exact agree_throw (congrArg Fault.notCallable hg.same)

include hev hset in
theorem runForm_agree (f : SpecialForm) (hargs : ListsLike lax args args') (hs : scope.Like lax scope')
    (hform : form.Like lax form') : Agree (Progress.Like lax) (Structure.Like lax)
      (runForm setting ev f args scope form) (runForm setting' ev' f args' scope' form') := by
  have hmisfit := Form.misfit_agree (Q := Structure.Like lax) hargs hform
  cases f with
  | quote =>
    rcases hargs with _ | ⟨h, _ | ⟨_, _⟩⟩
    · exact hmisfit _ _
    · exact agree_pure h
    · exact hmisfit _ _
  | lambda => exact Form.lambda_agree hset hargs hs hform
  | letIn => exact Form.letIn_agree hev hargs hs hform
  | define => exact Form.define_agree hev hargs hs hform
  | node => exact Form.node_agree hev hargs hs hform
  | set => exact Form.set_agree hev hset hargs hs hform
  | tell => exact Form.tell_agree hev hset hargs hs hform
  | ask => exact Form.ask_agree hev hset hargs hs hform
  | jump => exact Form.jump_agree hev hset hargs hs hform
  | progn => exact Form.body_agree hev hs hargs
  | cond =>
    rcases hargs with _ | ⟨htest, _ | ⟨hyes, _ | ⟨hno, _ | ⟨_, _⟩⟩⟩⟩
    · exact hmisfit _ _
    · exact hmisfit _ _
    · refine (hev _ _ _ _ htest hs).bind fun v v' hv => ?_
      refine Agree.ite ?_ (hev _ _ _ _ hyes hs) (agree_pure .nil)
      rw [hv.truthy]
    · refine (hev _ _ _ _ htest hs).bind fun v v' hv => ?_
      refine Agree.ite ?_ (hev _ _ _ _ hyes hs) (hev _ _ _ _ hno hs)
      rw [hv.truthy]
    · exact hmisfit _ _
  | eval =>
    rcases hargs with _ | ⟨h, _ | ⟨_, _⟩⟩
    · exact hmisfit _ _
    · exact (hev _ _ _ _ h hs).bind fun v v' hv => hev _ _ _ _ hv hs
    · exact hmisfit _ _
  | apply =>
    rcases hargs with _ | ⟨hf, _ | ⟨hl, _ | ⟨_, _⟩⟩⟩
    · exact hmisfit _ _
    · exact hmisfit _ _
    · refine (hev _ _ _ _ hf hs).bind fun g g' hg => (hev _ _ _ _ hl hs).bind fun v v' hv => ?_
      exact (elements_agree hv).bind fun _ _ hvs => applyValue_agree hev hset hg hvs hform
    · exact hmisfit _ _
  | delete => exact Form.delete_agree hev hset hargs hs hform
  | envJump => exact Form.envJump_agree hev hset hargs hs hform
  | follow => exact Form.follow_agree hev hset hargs hs hform
  | compile => exact Form.compile_agree hev hset hargs hs hform
  | decompile => exact Form.decompile_agree hev hargs hs hform
  | reify => exact Form.reify_agree hset hargs hform
  | importNode => exact Form.importNode_agree hev hset hargs hs hform

include hev hset in
theorem runRole_agree (r : Role) (hargs : ListsLike lax args args') (hs : scope.Like lax scope')
    (hform : form.Like lax form') : Agree (Progress.Like lax) (Structure.Like lax)
      (runRole setting ev r args scope form) (runRole setting' ev' r args' scope' form') := by
  cases r with
  | form f => exact runForm_agree hev hset f hargs hs hform
  | builtin b => exact (evalAll_agree hev hargs hs).bind fun _ _ hvs => Builtin.run_agree hvs hform b
  | placeholder => exact agree_throw (congrArg (Fault.roleNotCallable _) hform.same)

include hev hset in
theorem headed_agree {car car' cdr cdr' : Structure} (hcar : car.Like lax car')
    (hcdr : cdr.Like lax cdr') (hs : scope.Like lax scope') {head head' : Structure}
    (hhead : head.Like lax head') : Agree (Progress.Like lax) (Structure.Like lax)
      (headed setting ev car cdr scope head) (headed setting' ev' car' cdr' scope' head') := by
  have hform : (Structure.pair car cdr).Like lax (.pair car' cdr') := .pair hcar hcdr
  unfold headed
  rw [roleOf_likes hset hhead]
  split
  · exact (elements_agree hcdr).bind fun _ _ hargs => runRole_agree hev hset _ hargs hs hform
  · refine (operator_agree hhead).bind fun g g' hg => ?_
    cases hg.shape with
    | proc params hbody hinner =>
      refine (elements_agree hcdr).bind fun _ _ hargs => (evalAll_agree hev hargs hs).bind fun _ _ hvs => ?_
      exact applyProcedure_agree hev params hbody hinner hvs hform
    | _ => exact agree_throw (congrArg Fault.notCallable hcar.same)

include hev hset in
theorem evalForm_agree {car car' cdr cdr' : Structure} (hcar : car.Like lax car')
    (hcdr : cdr.Like lax cdr') (hs : scope.Like lax scope') :
    Agree (Progress.Like lax) (Structure.Like lax) (evalForm setting ev car cdr scope)
      (evalForm setting' ev' car' cdr' scope') := by
  rw [evalForm_eq, evalForm_eq]
  exact (Form.referent_agree hev hset hs hcar).bind fun _ _ h => headed_agree hev hset hcar hcdr hs h

include hev hset in
theorem evalWith_agree (h : s.Like lax s') (hs : scope.Like lax scope') :
    Agree (Progress.Like lax) (Structure.Like lax) (evalWith setting ev s scope)
      (evalWith setting' ev' s' scope') := by
  cases h.shape with
  | sym name => exact lookup_agree hset hs name
  | pair hcar hcdr => exact evalForm_agree hev hset hcar hcdr hs
  | _ => exact agree_pure h

end

/-- Evaluation ends alike on structures alike, at any depth. -/
theorem eval_agree {setting setting' : Setting} (hset : setting.Like lax setting') (depth : Nat) :
    EvaluatesAlike lax (eval setting depth) (eval setting' depth) := by
  induction depth with
  | zero => exact fun _ _ _ _ _ _ => agree_throw (congrArg Fault.depth hset.top.same)
  | succ depth ih => exact fun _ _ _ _ h hs => evalWith_agree ih hset h hs

end Evaluator

end GraphLisp
