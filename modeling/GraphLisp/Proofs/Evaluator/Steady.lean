import GraphLisp.Proofs.Evaluator.Parts
import GraphLisp.Proofs.Universe.Rollback
/-!
# What evaluation keeps

All that evaluating does to a step is to say something, to move, and to alter the universe and record
that, as far as it can be labelled. `Steady context F I` says that the invariant `I` of steps lasts through these, and
that `F` admits the failures that evaluating can end in: those of its own, a number with too many digits, and a place
that is no node, if `I` admits one. Every form keeps such an invariant if evaluating its parts does, so evaluation keeps it at any
depth (`Evaluator.eval_sustains`), whether it ends in a value or fails.
-/

namespace GraphLisp

/-- The node that a change removed, if it removed one. -/
def Undo.removed? : Undo → Option Node
  | .deletedNode n _ => some n
  | .deletedTriple n _ _ _ => some n
  | _ => none

/-- What changes remove plays no role, and is not where the step is. -/
def Progress.Spares (p : Progress) (c : Context) (J : Journal Int) : Prop :=
  ∀ entry ∈ J, ∀ n ∈ entry.2.removed?, c.roleOf (.node n) = none ∧ p.place.location.same n = false

/-- Among these failures are all of the program's own, and numbers with too many digits. -/
structure Usual (F : Fault → Prop) : Prop where
  own : ∀ {f : Fault}, f.IsOwn → F f
  numeral : ∀ digits, F (.numeral digits)

theorem usual_any : Usual fun _ => True := ⟨fun _ => trivial, fun _ => trivial⟩

/-- An invariant of steps that lasts whatever is said, wherever the step goes, and whatever is altered
and recorded. -/
structure Steady (c : Context) (F : Fault → Prop) (I : Progress → Prop) : Prop where
  coherent : ∀ {p}, I p → p.store.Coherent
  speaks : ∀ {p} effects, I p → I { p with effects }
  moves : ∀ {p s place}, I p → p.store.jump s = .ok place → I { p with place, moved := true }
  alters : ∀ {p J v}, I p → p.store.Alterations J v → p.Spares c J →
    I { p with store := v, journal := J.labelled ++ p.journal }
  usual : Usual F
  places : ∀ {p}, I p → (∃ n, p.place.location = .node n) ∨ F (.unreadable .noSuchPart "")

namespace Universe

variable {u : Universe}

theorem environment_answered (u : Universe) (id : Int) : Answered (u.environment id) := by
  unfold environment
  split
  · exact answered_ok _
  · exact answered_error rfl

theorem jump_answered (u : Universe) (s : Structure) : Answered (u.jump s) := by
  unfold jump
  split
  · refine .ite (fun _ => ?_) fun _ => ?_
    · exact (u.environment_answered _).bind fun _ _ => answered_ok _
    · refine (u.environment_answered _).bind fun _ _ => ?_
      exact .ite (fun _ => answered_ok _) fun _ => answered_error rfl
  · exact answered_error rfl

theorem envNode_answered (u : Universe) (id : Int) : Answered (u.envNode id) :=
  (u.environment_answered id).bind fun _ _ => answered_ok _

theorem resolve_answered (u : Universe) (s : Structure) : Answered (u.resolve s) := by
  unfold resolve
  split
  · exact .ite (fun _ => answered_ok _) fun _ => answered_error rfl
  · exact answered_error rfl

theorem Coherent.wormholes_answered (hu : u.Coherent) (source : Structure) (predicate : Option Structure) :
    Answered (u.wormholes source predicate) := by
  obtain ⟨root, hroot⟩ := (mem_iff_exists_getElem? _ _).1 hu.root
  have hask : Answered (u.root.ask (some source) predicate none) := by
    rw [Universe.root, hroot]
    exact (hu.tabled rootId root hroot).ask_answered _ _ _
  exact (u.resolve_answered source).bind fun _ _ => hask.bind fun _ _ => answered_ok _

end Universe

theorem Context.lookup_answered (c : Context) (word : String) : Answered (c.lookup word) := by
  unfold lookup
  split
  · exact answered_ok _
  · exact answered_error rfl

namespace Eval

variable {c : Context} {F : Fault → Prop} {I : Progress → Prop} {α β : Type}

/-! ## Questions -/

theorem answer_keeps (x : Except Fault α) : Preserves I (answer x) := by
  cases x with
  | ok a => exact preserves_pure a
  | error fault => exact preserves_throw fault

theorem environment_keeps (env : Int) : Preserves I (environment env) :=
  preserves_get.bind fun _ => answer_keeps _

theorem meaning_keeps (n : Node) : Preserves I (meaning n) :=
  (environment_keeps _).bind fun _ => answer_keeps _

theorem answer_sustains {x : Except Fault α} (hx : ∀ f, x = .error f → F f) : Sustains I F (answer x) := by
  cases x with
  | ok a => exact sustains_pure a
  | error fault => exact sustains_throw (hx fault rfl)

/-- A question that is answered or fails by itself. -/
theorem answered_sustains (hF : Usual F) {x : Except Fault α} (hx : Answered x) : Sustains I F (answer x) :=
  answer_sustains fun f hf => hF.own (hx f hf)

theorem environment_sustains (hF : Usual F) (env : Int) : Sustains I F (environment env) :=
  sustains_get fun p _ => answered_sustains hF (p.store.environment_answered env)

/-- What goes on with an environment knows that its tables are in order. -/
theorem tabled_sustains (hF : Usual F) (hI : ∀ {p}, I p → p.store.Coherent) {env : Int}
    {f : Environment → Eval β} (hf : ∀ e, e.Tabled → Sustains I F (f e)) :
    Sustains I F (environment env >>= f) := by
  intro p hp
  unfold environment
  rw [bind_assoc, ends_bind, ends_get]
  cases he : p.store.environment env with
  | ok e => exact hf e ((hI hp).tabled env e (Universe.environment_iff.1 he)) p hp
  | error fault => exact ⟨hp, hF.own (p.store.environment_answered env fault he)⟩

/-- An environment is asked a question. -/
theorem asked_sustains (hF : Usual F) (hI : ∀ {p}, I p → p.store.Coherent) {env : Int}
    {f : Environment → Except Fault α} (hf : ∀ e, e.Tabled → Answered (f e)) :
    Sustains I F (environment env >>= fun e => answer (f e)) :=
  tabled_sustains hF hI fun e he => answered_sustains hF (hf e he)

theorem here_sustains (hI : Steady c F I) {f : Environment → Eval β} (hf : ∀ e, e.Tabled → Sustains I F (f e)) :
    Sustains I F (here >>= f) := by
  unfold here
  rw [bind_assoc]
  exact sustains_get fun p _ => tabled_sustains hI.usual hI.coherent hf

theorem say_sustains (hI : Steady c F I) (message : String) : Sustains I F (say message) :=
  sustains_modify fun _ hp => hI.speaks _ hp

theorem elements_sustains (hF : Usual F) (s : Structure) : Sustains I F (elements s) :=
  answered_sustains hF s.toList_answered

theorem meaning_sustains (hI : Steady c F I) (n : Node) : Sustains I F (meaning n) :=
  asked_sustains hI.usual hI.coherent fun _ he => he.getStructure_answered _

theorem literalNumber_sustains (hF : Usual F) (digits : List Char) : Sustains I F (answer (literalNumber digits)) := by
  refine answer_sustains fun f hf => ?_
  unfold literalNumber at hf
  split at hf
  · cases hf
    exact hF.numeral _
  · cases hf

variable (setting : Setting)

/-- A symbol is only looked up, whatever it refers to. -/
theorem resolve_sustains (hF : Usual F) (name : String) (scope : Scope Structure) :
    Sustains I F (resolve setting name scope) := by
  unfold resolve
  split
  · exact sustains_pure _
  refine sustains_get fun p _ => ?_
  split
  · next envDigits idDigits _ =>
    have hnode : ∀ env, Sustains I F (do
        let n : Node := ⟨env, ← answer (literalNumber idDigits)⟩
        if p.store.resolves n then return Structure.node n else throw (.noSuchNode name n)) := fun env =>
      (literalNumber_sustains hF _).bind fun id => .ite (sustains_pure _) (sustains_throw (hF.own rfl))
    cases envDigits with
    | some digits => exact (literalNumber_sustains hF _).bind hnode
    | none => exact (sustains_pure p.place.env).bind hnode
  · have hhere : Sustains I F here := sustains_get fun p _ => environment_sustains hF _
    refine hhere.bind fun e => ?_
    dsimp only
    split
    · exact sustains_pure _
    · exact sustains_throw (hF.own rfl)

theorem resolve_keeps (name : String) (scope : Scope Structure) : Preserves I (resolve setting name scope) :=
  (resolve_sustains setting usual_any name scope).preserves

theorem lookup_sustains (hI : Steady c F I) (name : String) (scope : Scope Structure) :
    Sustains I F (lookup setting name scope) := by
  refine (resolve_sustains setting hI.usual name scope).bind fun s => ?_
  split
  · exact .ite (meaning_sustains hI _) (sustains_pure _)
  · exact sustains_pure _

/-! ## Places -/

theorem tellAll_sustains (hI : Steady c F I) (names : Names) (ts : List Triple) :
    Sustains I F (tellAll names ts) := by
  induction ts with
  | nil => exact sustains_pure _
  | cons t rest ih => exact .ite ((say_sustains hI _).bind fun _ => ih) (sustains_throw (hI.usual.numeral _))

theorem describe_sustains (hI : Steady c F I) : Sustains I F describe := by
  intro p hp
  unfold describe
  rw [ends_bind, ends_get]
  split
  · have hask : ∀ n : Node, Sustains I F (do
        tellAll p.store.names (← answer ((← environment n.env).askAny n))) := fun n =>
      tabled_sustains hI.usual hI.coherent fun e he =>
        (answered_sustains hI.usual (he.askAny_answered _)).bind fun ts => tellAll_sustains hI _ ts
    exact hask _ p hp
  · next hloc =>
    refine ⟨hp, (hI.places hp).resolve_left ?_⟩
    rintro ⟨n, hn⟩
    exact hloc n hn

/-- A move leads where a jump leads, and nothing is said before. -/
theorem moveTo_sustains (hI : Steady c F I) (target : Structure) : Sustains I F (moveTo target) := by
  intro p hp
  unfold moveTo
  rw [ends_bind, ends_get]
  cases hjump : p.store.jump target with
  | error fault => exact ⟨hp, hI.usual.own (p.store.jump_answered target fault hjump)⟩
  | ok place =>
    have hrest : Sustains I F (describe >>= fun _ => pure place.location) :=
      (describe_sustains hI).bind fun _ => sustains_pure _
    exact hrest _ (hI.moves hp hjump)

/-! ## Changes -/

/-- An operation on a member, and recording what it did. Until that is done, only what is going to
be recorded leads to the store. -/
theorem within_sustains (hI : Steady c F I) {env : Int} {op : Surroundings → Op α} (us : α → List Undo)
    {R : α → Prop} {rest : α → Eval β} {p : Progress} (hp : I p)
    (hop : ∀ around l, Locale.Coherent l → Ends (op around) l
      (fun a l' => Locale.Alterations around l (us a) l' ∧ R a) (fun f l' => l' = l ∧ f.IsOwn))
    (hrest : ∀ a v, R a → (p.Spares c ((us a).map (env, ·)) →
        I { p with store := v, journal := Journal.labelled ((us a).map (env, ·)) ++ p.journal }) →
      Ends (rest a) { p with store := v } (fun _ => I) fun f p => I p ∧ F f) :
    Ends (within env op >>= rest) p (fun _ => I) fun f p => I p ∧ F f := by
  have hu := hI.coherent hp
  have halters := Universe.within_alters hu fun l hl =>
    (hop (p.store.surroundings env) l hl).mono (fun _ _ h => h.1) fun _ _ h => h.1
  have hsaid : Ends (Universe.within env op) p.store (fun a _ => R a) fun f _ => f.IsOwn :=
    Universe.within_ends hu (fun e he => (hop _ _ (hu.locale he)).mono (fun _ _ h => h.2) fun _ _ h => h.2)
      fun _ => rfl
  have h := halters.and hsaid
  rw [ends_bind]
  unfold Ends within change at *
  cases hw : Universe.within env op p.store with
  | ok a v =>
    rw [hw] at h
    exact hrest a v h.2 fun hs => hI.alters hp h.1 hs
  | error fault v =>
    rw [hw] at h
    obtain ⟨rfl, hown⟩ := h
    exact ⟨hp, hI.usual.own hown⟩

/-- Making something removes nothing. -/
theorem spares_created (p : Progress) (c : Context) (env : Int) (ns : List Node) :
    p.Spares c ((ns.map Undo.created).map (env, ·)) := by
  rintro entry he n hn
  obtain ⟨undo, hu, rfl⟩ := List.mem_map.1 he
  obtain ⟨m, -, rfl⟩ := List.mem_map.1 hu
  cases hn

/-- Recording a change that has been made keeps what is kept of the two together. -/
theorem record_sustains (hI : Steady c F I) {env : Int} {undo : Undo} {rest : Unit → Eval β} {p : Progress}
    {v : Universe} (h : I { p with store := v, journal := Journal.labelled [(env, undo)] ++ p.journal })
    (hrest : ∀ x, Sustains I F (rest x)) :
    Ends (record env undo >>= rest) { p with store := v } (fun _ => I) fun f p => I p ∧ F f := by
  unfold record
  by_cases hu : undo.isLabelled = true
  · rw [Journal.labelled_cons_of hu] at h
    rw [if_pos hu, ends_bind, ends_modify]
    exact hrest () _ h
  · rw [Journal.labelled_cons_of_not hu] at h
    rw [if_neg hu]
    exact ⟨h, hI.usual.numeral none⟩

/-- An operation that makes one change, which is recorded next. -/
theorem change_sustains (hI : Steady c F I) {env : Int} {op : Surroundings → Op α} (undo : α → Undo)
    {rest : α → Eval β} {p : Progress} (hp : I p)
    (halters : ∀ around l, Locale.Coherent l → Ends (op around) l
      (fun a l' => l.Alters around (undo a) l') (fun _ l' => l' = l))
    (hsettles : ∀ around l, Locale.Coherent l → Settles (op around) l)
    (hspares : ∀ a, ∀ n ∈ (undo a).removed?, c.roleOf (.node n) = none ∧ p.place.location.same n = false)
    (hrest : ∀ a v, I { p with store := v, journal := Journal.labelled [(env, undo a)] ++ p.journal } →
      Ends (rest a) { p with store := v } (fun _ => I) fun f p => I p ∧ F f) :
    Ends (within env op >>= rest) p (fun _ => I) fun f p => I p ∧ F f := by
  refine within_sustains hI (R := fun _ => True) (fun a => [undo a]) hp (fun around l hl => ?_) fun a v _ h => ?_
  · exact ((halters around l hl).owned (hsettles around l hl)).mono (fun _ _ h => ⟨.more .none h, trivial⟩)
      fun _ _ h => h
  · refine hrest a v (h fun entry he => ?_)
    obtain rfl := List.mem_singleton.1 he
    exact hspares a

end Eval

namespace Form

open Eval

variable {c : Context} {F : Fault → Prop} {I : Progress → Prop} {ev : Evaluate} (setting : Setting)

theorem misfit_sustains {α : Type} (hF : Usual F) (f : SpecialForm) (expected : Arity) (args : List Structure)
    (form : Structure) : Sustains I F (misfit f expected args form : Eval α) :=
  sustains_throw (hF.own rfl)

/-! ## Forms that change the store -/

theorem make_sustains (hI : Steady c F I) (name : Option String) (content : Structure) :
    Sustains I F (make name content) := by
  unfold make
  refine sustains_get fun here _ p hp => ?_
  exact change_sustains hI .created hp (fun around l hl => Locale.createNode_alters hl around _ _)
    (fun around l hl => Locale.createNode_settles hl around _ _) (fun _ _ h => nomatch h)
    fun _ _ h => record_sustains hI h fun _ => sustains_pure _

/-- What an operation made is recorded if it is new. -/
theorem record_if_new (hI : Steady c F I) {env : Int} {op : Surroundings → Op (Node × Bool)}
    (hop : ∀ around l, Locale.Coherent l → Ends (op around) l
      (fun r l' => (r.2 = true ∧ l.Alters around (.created r.1) l') ∨ (r.2 = false ∧ l' = l))
      (fun f l' => l' = l ∧ f.IsOwn)) :
    Sustains I F (do
      let (n, new) ← within env op
      if new then record env (.created n)
      return Structure.node n) := by
  intro p hp
  refine within_sustains hI (R := fun _ => True) (fun r => if r.2 then [.created r.1] else []) hp
    (fun around l hl => (hop around l hl).mono ?_ fun _ _ h => h) fun r v _ h => ?_
  · rintro ⟨n, new⟩ l' (⟨rfl, h⟩ | ⟨rfl, rfl⟩)
    · exact ⟨.more .none h, trivial⟩
    · exact ⟨.none, trivial⟩
  · obtain ⟨n, new⟩ := r
    cases new with
    | true => exact record_sustains hI (h (spares_created p c _ [n])) fun _ => sustains_pure _
    | false => exact h (spares_created p c env [])

section
variable (hev : ∀ s scope, Sustains I F (ev s scope))
include hev

theorem referent_sustains (hF : Usual F) (s : Structure) (scope : Scope Structure) :
    Sustains I F (referent setting ev s scope) := by
  unfold referent
  split
  · exact resolve_sustains setting hF _ scope
  · exact hev _ scope

omit hev in
theorem designated_sustains (hF : Usual F) (found : Structure) : Sustains I F (designated found) := by
  unfold designated
  split
  · exact sustains_pure _
  · exact sustains_throw (hF.own rfl)

theorem designate_sustains (hF : Usual F) (s : Structure) (scope : Scope Structure) :
    Sustains I F (designate setting ev s scope) := by
  rw [designate_eq]
  exact (referent_sustains setting hev hF s scope).bind (designated_sustains hF)

theorem body_sustains (scope : Scope Structure) (ss : List Structure) :
    Sustains I F (body ev scope ss) := by
  induction ss with
  | nil => exact sustains_pure _
  | cons s rest ih =>
    cases rest with
    | nil => exact hev s scope
    | cons s' rest => exact (hev s scope).bind fun _ => ih

omit hev in
theorem parameters_answered (items : List Structure) : ∀ seen, Answered (parameters seen items) := by
  induction items with
  | nil => exact fun _ => answered_ok _
  | cons s rest ih =>
    intro seen
    cases s with
    | sym name =>
      exact .ite (fun _ => answered_error rfl) fun _ => (ih _).bind fun _ _ => answered_ok _
    | _ => exact answered_error rfl

omit hev in
theorem lambda_sustains (hF : Usual F) (args : List Structure) (scope : Scope Structure) (form : Structure) :
    Sustains I F (lambda setting args scope form) := by
  unfold lambda
  split
  · refine (elements_sustains hF _).bind fun params => ?_
    refine (answered_sustains hF (parameters_answered params [])).bind fun names => ?_
    refine .ite (sustains_pure _) ?_
    exact (answered_sustains hF (setting.context.lookup_answered _)).bind fun _ => sustains_pure _
  · exact misfit_sustains hF _ _ _ _

theorem letLevel_sustains (hF : Usual F) (scope : Scope Structure) (entries : List Structure) :
    ∀ level, Sustains I F (letLevel ev scope level entries) := by
  induction entries with
  | nil => exact fun level => sustains_pure level
  | cons entry rest ih =>
    intro level
    cases entry with
    | pair a d =>
      unfold letLevel
      refine (elements_sustains hF _).bind fun parts => ?_
      split
      · exact .ite (sustains_throw (hF.own rfl)) ((hev _ scope).bind fun value => ih _)
      · exact sustains_throw (hF.own rfl)
    | _ => exact sustains_throw (hF.own rfl)

theorem letIn_sustains (hF : Usual F) (args : List Structure) (scope : Scope Structure) (form : Structure) :
    Sustains I F (letIn ev args scope form) := by
  unfold letIn
  split
  · refine (elements_sustains hF _).bind fun entries => ?_
    exact (letLevel_sustains hev hF scope entries []).bind fun level => body_sustains hev _ _
  · exact misfit_sustains hF _ _ _ _

theorem define_sustains (hI : Steady c F I) (args : List Structure) (scope : Scope Structure)
    (form : Structure) : Sustains I F (define ev args scope form) := by
  unfold define
  split
  · exact make_sustains hI _ _
  · exact (hev _ scope).bind fun _ => make_sustains hI _ _
  · exact sustains_throw (hI.usual.own rfl)
  · exact sustains_throw (hI.usual.own rfl)
  · exact misfit_sustains hI.usual _ _ _ _

theorem node_sustains (hI : Steady c F I) (args : List Structure) (scope : Scope Structure)
    (form : Structure) : Sustains I F (node ev args scope form) := by
  unfold node
  split
  · exact make_sustains hI _ _
  · exact (hev _ scope).bind fun _ => make_sustains hI _ _
  · exact misfit_sustains hI.usual _ _ _ _

theorem set_sustains (hI : Steady c F I) (args : List Structure) (scope : Scope Structure)
    (form : Structure) : Sustains I F (set setting ev args scope form) := by
  unfold set
  split
  · refine (designate_sustains setting hev hI.usual _ scope).bind fun target => ?_
    refine (hev _ scope).bind fun value p hp => ?_
    exact change_sustains hI (.restructured target) hp (fun around l hl => Locale.setStructure_alters hl around _ _)
      (fun around l _ => Locale.setStructure_settles l around _ _) (fun _ _ h => nomatch h)
      fun _ _ h => record_sustains hI h fun _ => sustains_pure _
  · exact misfit_sustains hI.usual _ _ _ _

theorem tell_sustains (hI : Steady c F I) (args : List Structure) (scope : Scope Structure)
    (form : Structure) : Sustains I F (tell setting ev args scope form) := by
  unfold tell
  split
  · refine (designate_sustains setting hev hI.usual _ scope).bind fun s => ?_
    refine (designate_sustains setting hev hI.usual _ scope).bind fun p => ?_
    refine (designate_sustains setting hev hI.usual _ scope).bind fun o => sustains_get fun _ _ => ?_
    exact record_if_new hI fun around l hl =>
      (Locale.insertTriple_alters hl around s p o).owned (Locale.insertTriple_settles l s p o)
  · exact misfit_sustains hI.usual _ _ _ _

theorem importNode_sustains (hI : Steady c F I) (args : List Structure) (scope : Scope Structure)
    (form : Structure) : Sustains I F (importNode setting ev args scope form) := by
  unfold importNode
  split
  · refine (designate_sustains setting hev hI.usual _ scope).bind fun target => here_sustains hI fun e _ => ?_
    refine .ite (sustains_pure _) (sustains_get fun _ _ => ?_)
    exact record_if_new hI fun around l hl =>
      (Locale.importNode_alters hl around target).owned (Locale.importNode_settles l around target)
  · exact misfit_sustains hI.usual _ _ _ _

/-- What is deleted plays no role, and is not where the step is when it is deleted. -/
theorem delete_sustains (hI : Steady c F I) (hc : setting.context = c) (args : List Structure)
    (scope : Scope Structure) (form : Structure) :
    Sustains I F (delete setting ev args scope form) := by
  unfold delete
  split
  · refine (designate_sustains setting hev hI.usual _ scope).bind fun target p hp => ?_
    rw [ends_bind, ends_get, ends_ite]
    refine ⟨fun _ => ⟨hp, hI.usual.own rfl⟩, fun haway => ?_⟩
    have haway := Bool.eq_false_iff.2 haway
    split
    · exact ⟨hp, hI.usual.own rfl⟩
    next hrole =>
    have hfree : c.roleOf (.node target) = none := by
      rw [← hc]
      exact Option.eq_none_iff_forall_ne_some.2 hrole
    -- looking at the target does not move the step away from where it was compared
    have hlook : Sustains (· = p) F (environment target.env >>= fun e => answer (e.tripleOf target)) :=
      asked_sustains hI.usual (by rintro _ rfl; exact hI.coherent hp) fun _ he => he.tripleOf_answered _
    rw [← bind_assoc]
    refine (hlook p rfl).bind ?_ fun _ _ h => ⟨h.1 ▸ hp, h.2⟩
    rintro triple _ rfl
    split
    · refine change_sustains hI (fun r : Node × Node × Node => .deletedTriple target r.1 r.2.1 r.2.2) hp
        (fun around l hl => Locale.deleteTriple_alters hl around target)
        (fun around l hl => Locale.deleteTriple_settles hl around target) (fun _ n hn => ?_)
        fun ⟨_, _, _⟩ _ h => record_sustains hI h fun _ => sustains_pure _
      cases hn
      exact ⟨hfree, haway⟩
    · refine change_sustains hI (.deletedNode target) hp
        (fun around l hl => Locale.deleteNode_alters hl around target)
        (fun around l hl => Locale.deleteNode_settles hl around target) (fun _ n hn => ?_)
        fun _ _ h => record_sustains hI h fun _ => sustains_pure _
      cases hn
      exact ⟨hfree, haway⟩
  · exact misfit_sustains hI.usual _ _ _ _

end

theorem rebuild_sustains (hI : Steady c F I) (env : Int) (s : Structure) : Sustains I F (rebuild env s) := by
  intro p hp
  unfold rebuild
  refine within_sustains hI (R := fun r => Answered r.1 ∧ ∀ undo ∈ r.2.map Undo.created, undo.isLabelled)
    (fun r => r.2.map .created) hp
    (fun around l hl => (Locale.raise_ends hl around s).mono
      (fun _ _ h => ⟨h.1, h.2, h.1.created_labelled hl⟩) fun _ _ h => h.elim)
    fun r v hr h => ?_
  obtain ⟨result, created⟩ := r
  have hp := h (spares_created p c env created)
  rw [Journal.labelled_map env hr.2, List.map_map] at hp
  exact (answered_sustains hI.usual hr.1).bind (fun _ => sustains_pure _) _ hp

section
variable (hev : ∀ s scope, Sustains I F (ev s scope))
include hev

theorem decompile_sustains (hI : Steady c F I) (args : List Structure) (scope : Scope Structure)
    (form : Structure) : Sustains I F (decompile ev args scope form) := by
  unfold decompile
  split
  · exact (hev _ scope).bind fun s => sustains_get fun p _ => rebuild_sustains hI _ s
  · exact misfit_sustains hI.usual _ _ _ _

omit hev in
theorem reify_sustains (hI : Steady c F I) (args : List Structure) (form : Structure) :
    Sustains I F (reify setting args form) := by
  unfold reify
  split
  · exact make_sustains hI _ _
  · exact misfit_sustains hI.usual _ _ _ _

/-! ## Forms that look and move -/

theorem patternPart_sustains (hF : Usual F) (s : Structure) (scope : Scope Structure) :
    Sustains I F (patternPart setting ev s scope) :=
  (designate_sustains setting hev hF s scope).bind fun _ => sustains_pure _

theorem ask_sustains (hI : Steady c F I) (args : List Structure) (scope : Scope Structure) (form : Structure) :
    Sustains I F (ask setting ev args scope form) := by
  unfold ask
  split
  · refine (patternPart_sustains setting hev hI.usual _ scope).bind fun s => ?_
    refine (patternPart_sustains setting hev hI.usual _ scope).bind fun p => ?_
    refine (patternPart_sustains setting hev hI.usual _ scope).bind fun o => ?_
    exact here_sustains hI fun e he =>
      (answered_sustains hI.usual (he.ask_answered _ _ _)).bind fun ts => sustains_pure _
  · exact misfit_sustains hI.usual _ _ _ _

theorem jump_sustains (hI : Steady c F I) (args : List Structure) (scope : Scope Structure) (form : Structure) :
    Sustains I F (jump setting ev args scope form) := by
  unfold jump
  split
  · exact (designate_sustains setting hev hI.usual _ scope).bind fun target => moveTo_sustains hI _
  · exact misfit_sustains hI.usual _ _ _ _

theorem envJump_sustains (hI : Steady c F I) (args : List Structure) (scope : Scope Structure) (form : Structure) :
    Sustains I F (envJump setting ev args scope form) := by
  unfold envJump
  split
  · refine (designate_sustains setting hev hI.usual _ scope).bind fun target => sustains_get fun p _ => ?_
    exact .ite (sustains_throw (hI.usual.own rfl)) (moveTo_sustains hI _)
  · exact misfit_sustains hI.usual _ _ _ _

omit hev in
theorem followFrom_sustains (hI : Steady c F I) (predicate : Option Node) :
    Sustains I F (followFrom predicate) := by
  unfold followFrom
  refine sustains_get fun p hp => ?_
  refine (answered_sustains hI.usual (p.store.envNode_answered _)).bind fun source => ?_
  refine (answered_sustains hI.usual ((hI.coherent hp).wormholes_answered _ _)).bind fun ts => ?_
  split
  · exact sustains_throw (hI.usual.own rfl)
  · exact moveTo_sustains hI _

theorem follow_sustains (hI : Steady c F I) (args : List Structure) (scope : Scope Structure) (form : Structure) :
    Sustains I F (follow setting ev args scope form) := by
  unfold follow
  split
  · exact followFrom_sustains hI _
  · exact (designate_sustains setting hev hI.usual _ scope).bind fun _ => followFrom_sustains hI _
  · exact misfit_sustains hI.usual _ _ _ _

omit hev in
theorem selection_answered (items : List Structure) : Answered (selection items) := by
  induction items with
  | nil => exact answered_ok _
  | cons s rest ih =>
    cases s with
    | node n => exact ih.bind fun _ _ => answered_ok _
    | _ => exact answered_error rfl

theorem compile_sustains (hI : Steady c F I) (args : List Structure) (scope : Scope Structure) (form : Structure) :
    Sustains I F (compile setting ev args scope form) := by
  unfold compile
  split
  · refine (designate_sustains setting hev hI.usual _ scope).bind fun target => ?_
    exact asked_sustains hI.usual hI.coherent fun e he => he.unfoldFrom_answered _ _ _ _
  · refine (designate_sustains setting hev hI.usual _ scope).bind fun target => (hev _ scope).bind fun s => ?_
    refine (elements_sustains hI.usual s).bind fun items => ?_
    refine (answered_sustains hI.usual (selection_answered items)).bind fun predicates => ?_
    exact asked_sustains hI.usual hI.coherent fun e he => he.unfoldFrom_answered _ _ _ _
  · exact misfit_sustains hI.usual _ _ _ _

end

end Form

namespace Builtin

open Eval

theorem integers_answered (b : Builtin) (values : List Structure) : Answered (integers b values) := by
  induction values with
  | nil => exact answered_ok _
  | cons s rest ih =>
    cases s with
    | int n => exact ih.bind fun _ _ => answered_ok _
    | _ => exact answered_error rfl

theorem quotient_answered (form : Structure) (ds : List Int) : ∀ n, Answered (quotient form n ds) := by
  induction ds with
  | nil => exact fun _ => answered_ok _
  | cons d rest ih => exact fun n => .ite (fun _ => answered_error rfl) fun _ => ih _

theorem run_sustains {c : Context} {F : Fault → Prop} {I : Progress → Prop} (hI : Steady c F I) (b : Builtin)
    (values : List Structure) (form : Structure) : Sustains I F (b.run values form) := by
  have hF := hI.usual
  have hfind : ∀ name, Sustains I F (run .envFind [.str name] form) := by
    refine fun name => sustains_get fun p _ => ?_
    split <;> exact sustains_pure _
  unfold run
  split
  -- the builtins that look at nothing but their values
  all_goals try first | exact sustains_pure _ | exact sustains_throw (hF.own rfl)
  · refine sustains_get fun p _ => .ite (sustains_throw (hF.numeral _)) ?_
    exact (say_sustains hI _).bind fun _ => sustains_pure _
  · exact (answered_sustains hF (integers_answered _ _)).bind fun ns => sustains_pure _
  · split
    · exact sustains_throw (hF.own rfl)
    · refine (answered_sustains hF (integers_answered _ _)).bind fun ns => ?_
      split <;> exact sustains_pure _
  · exact (answered_sustains hF (integers_answered _ _)).bind fun ns => sustains_pure _
  · split
    · exact sustains_throw (hF.own rfl)
    · exact sustains_throw (hF.own rfl)
    · refine (answered_sustains hF (integers_answered _ _)).bind fun ns => ?_
      split
      · exact (answered_sustains hF (quotient_answered _ _ _)).bind fun _ => sustains_pure _
      · exact sustains_pure _
  · exact .ite ((elements_sustains hF _).bind fun _ => sustains_pure _) (sustains_throw (hF.own rfl))
  · exact (describe_sustains hI).bind fun _ => sustains_get fun _ _ => sustains_pure _
  · refine sustains_get fun p _ => ?_
    exact (answered_sustains hF (p.store.envNode_answered _)).bind fun _ => sustains_pure _
  · split
    · exact hfind _
    · exact hfind _
    · exact sustains_throw (hF.own rfl)

end Builtin

namespace Evaluator

open Eval

variable {c : Context} {F : Fault → Prop} {I : Progress → Prop} {ev : Form.Evaluate} {setting : Setting}
  (hev : ∀ s scope, Sustains I F (ev s scope))

section
include hev

theorem applyProcedure_sustains (hF : Usual F) (params : List String) (body : Structure) (scope : Scope Structure)
    (values : List Structure) (form : Structure) :
    Sustains I F (applyProcedure ev params body scope values form) :=
  .ite (sustains_throw (hF.own rfl)) (hev _ _)

omit hev in
theorem operator_sustains (hI : Steady c F I) (s : Structure) : Sustains I F (operator s) := by
  unfold operator
  split
  · exact meaning_sustains hI _
  · exact sustains_pure _

theorem applyValue_sustains (hI : Steady c F I) (f : Structure) (values : List Structure) (form : Structure) :
    Sustains I F (applyValue setting ev f values form) := by
  unfold applyValue
  split
  · exact Builtin.run_sustains hI _ _ _
  · exact sustains_throw (hI.usual.own rfl)
  · refine (operator_sustains hI f).bind fun s => ?_
    split
    · exact applyProcedure_sustains hev hI.usual _ _ _ _ _
    · exact sustains_throw (hI.usual.own rfl)

theorem evalAll_sustains (scope : Scope Structure) (ss : List Structure) :
    Sustains I F (evalAll ev scope ss) := by
  induction ss with
  | nil => exact sustains_pure _
  | cons s rest ih => exact (hev s scope).bind fun _ => ih.bind fun _ => sustains_pure _

theorem runForm_sustains (hI : Steady c F I) (hc : setting.context = c) (f : SpecialForm)
    (args : List Structure) (scope : Scope Structure) (form : Structure) :
    Sustains I F (runForm setting ev f args scope form) := by
  cases f with
  | quote =>
    unfold runForm
    dsimp only
    split
    · exact sustains_pure _
    · exact Form.misfit_sustains hI.usual _ _ _ _
  | lambda => exact Form.lambda_sustains setting hI.usual args scope form
  | letIn => exact Form.letIn_sustains hev hI.usual args scope form
  | define => exact Form.define_sustains hev hI args scope form
  | node => exact Form.node_sustains hev hI args scope form
  | set => exact Form.set_sustains setting hev hI args scope form
  | tell => exact Form.tell_sustains setting hev hI args scope form
  | ask => exact Form.ask_sustains setting hev hI args scope form
  | jump => exact Form.jump_sustains setting hev hI args scope form
  | progn => exact Form.body_sustains hev scope args
  | cond =>
    unfold runForm
    dsimp only
    split
    · exact (hev _ scope).bind fun _ => .ite (hev _ scope) (sustains_pure _)
    · exact (hev _ scope).bind fun _ => .ite (hev _ scope) (hev _ scope)
    · exact Form.misfit_sustains hI.usual _ _ _ _
  | eval =>
    unfold runForm
    dsimp only
    split
    · exact (hev _ scope).bind fun s => hev s scope
    · exact Form.misfit_sustains hI.usual _ _ _ _
  | apply =>
    unfold runForm
    dsimp only
    split
    · refine (hev _ scope).bind fun f => (hev _ scope).bind fun s => ?_
      exact (elements_sustains hI.usual s).bind fun values => applyValue_sustains hev hI f values form
    · exact Form.misfit_sustains hI.usual _ _ _ _
  | delete => exact Form.delete_sustains setting hev hI hc args scope form
  | envJump => exact Form.envJump_sustains setting hev hI args scope form
  | follow => exact Form.follow_sustains setting hev hI args scope form
  | compile => exact Form.compile_sustains setting hev hI args scope form
  | decompile => exact Form.decompile_sustains hev hI args scope form
  | reify => exact Form.reify_sustains setting hI args form
  | importNode => exact Form.importNode_sustains setting hev hI args scope form

theorem runRole_sustains (hI : Steady c F I) (hc : setting.context = c) (r : Role) (args : List Structure)
    (scope : Scope Structure) (form : Structure) :
    Sustains I F (runRole setting ev r args scope form) := by
  cases r with
  | form f => exact runForm_sustains hev hI hc f args scope form
  | builtin b => exact (evalAll_sustains hev scope args).bind fun vs => Builtin.run_sustains hI b vs form
  | placeholder => exact sustains_throw (hI.usual.own rfl)

theorem headed_sustains (hI : Steady c F I) (hc : setting.context = c) (car cdr : Structure)
    (scope : Scope Structure) (head : Structure) :
    Sustains I F (headed setting ev car cdr scope head) := by
  unfold headed
  split
  · exact (elements_sustains hI.usual cdr).bind fun args => runRole_sustains hev hI hc _ args scope _
  · refine (operator_sustains hI head).bind fun s => ?_
    split
    · refine (elements_sustains hI.usual cdr).bind fun args => (evalAll_sustains hev scope args).bind fun vs => ?_
      exact applyProcedure_sustains hev hI.usual _ _ _ vs _
    · exact sustains_throw (hI.usual.own rfl)

theorem evalForm_sustains (hI : Steady c F I) (hc : setting.context = c) (car cdr : Structure)
    (scope : Scope Structure) : Sustains I F (evalForm setting ev car cdr scope) := by
  rw [evalForm_eq]
  exact (Form.referent_sustains setting hev hI.usual car scope).bind (headed_sustains hev hI hc car cdr scope)

theorem evalWith_sustains (hI : Steady c F I) (hc : setting.context = c) (s : Structure)
    (scope : Scope Structure) : Sustains I F (evalWith setting ev s scope) := by
  unfold evalWith
  split
  · exact lookup_sustains setting hI _ scope
  · exact evalForm_sustains hev hI hc _ _ scope
  · exact sustains_pure _

end

/-- Evaluation keeps what is steady, at any depth and however it ends, and it fails in the admitted ways only. -/
theorem eval_sustains (hI : Steady c F I) (hc : setting.context = c) (depth : Nat) :
    ∀ s scope, Sustains I F (eval setting depth s scope) := by
  induction depth with
  | zero => exact fun _ _ => sustains_throw (hI.usual.own rfl)
  | succ depth ih => exact fun s scope => evalWith_sustains ih hI hc s scope

end Evaluator

end GraphLisp
