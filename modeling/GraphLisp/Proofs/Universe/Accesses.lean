import GraphLisp.Proofs.Environment.OnRecord
import GraphLisp.Proofs.Evaluator.Standing
import GraphLisp.Proofs.Universe.Histories
/-!
# Nothing is missing

Whatever has come of an environment, what it is asked and what is done to it comes to an end without an entry that is
missing from a table, in what it looks up for itself as in what evaluation and taking back look up for it
(`Universe.arises_settles`). What fails does so by a test of its own, then, but for a few exceptions that are no
matter of tables: a number may be too long to be read or written, an agent may be told to describe what is no node,
and a structure may be too high to be compared or not whole enough to be recorded.
-/

namespace GraphLisp

open Std

/-! ## Operations -/

/-- In a coherent state an operation finds what it looks up. -/
theorem Operation.perform_settles {l : Locale} (hl : l.Coherent) (around : Surroundings) (op : Operation) :
    Settles (op.perform around) l := by
  have hthen : ∀ {α : Type} {m : Op α}, Settles m l → Settles (do let _ ← m) l := fun h =>
    h.bind (R := fun _ _ => True) (.always (fun _ _ => trivial) fun _ _ => trivial) fun _ _ _ => trivial
  cases op with
  | createNode name content => exact hthen (Locale.createNode_settles hl around name content)
  | setStructure node content => exact hthen (Locale.setStructure_settles l around node content)
  | rename node name => exact hthen (Locale.rename_settles hl node name)
  | deleteNode node => exact hthen (Locale.deleteNode_settles hl around node)
  | importNode original => exact hthen (Locale.importNode_settles l around original)
  | insertTriple s p o => exact hthen (Locale.insertTriple_settles l s p o)
  | deleteTriple node => exact hthen (Locale.deleteTriple_settles hl around node)
  | rebuild region => exact hthen (Locale.rebuild_settles hl around region)
  | raise region => exact hthen (Locale.raise_ends hl around region).settles

/-- Failures that are equal when flattened are of the same kind. -/
theorem Fault.IsOwn.of_flattened {f g : Fault} (hg : g.IsOwn) (h : f.flattened = g.flattened) : f.IsOwn := by
  have hkind : f.flattened.kind = g.flattened.kind := congrArg Fault.kind h
  unfold Fault.kind at hkind
  rw [Fault.report_flattened, Fault.report_flattened] at hkind
  unfold Fault.IsOwn Fault.kind at *
  rwa [hkind]

/-- What ends like a computation that settles does so, too. -/
theorem Agree.settles {σ α β : Type} {R : σ → σ → Prop} {Q : α → β → Prop} {m : EStateM Fault σ α}
    {n : EStateM Fault σ β} (h : Agree R Q m n) {s t : σ} (hs : R s t) (hn : Settles n t) : Settles m s := by
  have h := h s t hs
  unfold Settles Ends at hn ⊢
  generalize m s = x at h ⊢
  generalize n t = y at h hn
  cases h with
  | ok _ _ => trivial
  | error hf _ => exact hn.of_flattened hf

namespace Environment

variable {e : Environment}

/-- An environment on its own settles like one that is coherent with what refers to it. -/
theorem Coherent.perform_settles (he : e.Coherent) (around : Surroundings) (op : Operation) :
    Settles (op.perform around) ⟨e, ∅⟩ :=
  (op.perform_twin around).settles e.locale_twin (op.perform_settles he.locale around)

theorem Coherent.raise_answered (he : e.Coherent) (around : Surroundings) (region : Structure) :
    Ends (Locale.raise around region) ⟨e, ∅⟩ (fun r _ => Answered r.1) fun _ _ => False := by
  have htwin := Locale.raise_twin around region _ _ e.locale_twin
  obtain ⟨r', l', hr', -, hanswered⟩ := (Locale.raise_ends he.locale around region).exists_ok
  rw [hr'] at htwin
  obtain ⟨r, l, hr, ⟨hresult, -⟩, -⟩ := htwin.exists_ok
  unfold Ends
  rw [hr]
  -- the two runs return failures that may blame different scopes, but for the same reason
  intro f hf
  rw [hf] at hresult
  generalize hx : r'.1 = x at hresult
  cases hresult with
  | error h => exact (hanswered _ hx).of_flattened h

end Environment

/-! ## Questions -/

namespace Environment

variable {e : Environment}

/-- Every triple that is stored has its statement. -/
theorem tripleList_ok (e : Environment) : ∃ ts, e.tripleList = .ok ts :=
  ⟨_, mapM_triple fun _ hk => ExtTreeMap.mem_keys.1 hk⟩

/-- A region is written, or it has a circle; what is no node can be too high to be looked for. -/
theorem Tabled.unfold_answered (he : e.Tabled) (root : Structure) (selected : Option (List Node)) (f : Fault)
    (hf : e.unfold root selected = .error f) : f.IsOwn ∨ (f = .endless ∧ root.isTooHigh = true) := by
  unfold unfold at hf
  split at hf
  · exact .inl (he.unfoldFrom_answered selected _ _ _ f hf)
  · have hall : Answered (e.unfoldAll selected) := by
      obtain ⟨ts, hts⟩ := e.tripleList_ok
      unfold unfoldAll
      rw [hts]
      refine answered_mapM fun t _ => ?_
      exact (he.unfoldFrom_answered selected _ _ _).bind fun _ _ => answered_ok _
    exact .inl (hall.bind (fun _ _ => answered_ok _) f hf)
  · next s _ _ =>
    cases hf
    split
    · next h => exact .inr ⟨rfl, h⟩
    · exact .inl rfl

end Environment

/-! ## Taking back -/

/-- Rolling back fails at an entry, when those before it have been undone. -/
theorem Journal.exists_of_rollback_error {κ σ : Type} {perform : κ → Undo → EStateM Fault σ Unit}
    {J K : Journal κ} {s t : σ} {f : Fault} (h : J.rollback perform s = .error f (K, t)) :
    ∃ done entry s', J = done ++ entry :: K ∧ done.rollback perform s = .ok () ([], s') ∧
      perform entry.1 entry.2 s' = .error f t := by
  induction J generalizing s with
  | nil => cases h
  | cons entry J ih =>
    obtain ⟨place, undo⟩ := entry
    cases hundo : perform place undo s with
    | ok a s₁ =>
      simp only [rollback, hundo] at h
      obtain ⟨done, entry, s', rfl, hdone, hentry⟩ := ih h
      refine ⟨(place, undo) :: done, entry, s', rfl, ?_, hentry⟩
      simp only [rollback, hundo]
      exact hdone
    | error fault s₁ =>
      simp only [rollback, hundo] at h
      cases h
      exact ⟨[], (place, undo), s, rfl, rfl, hundo⟩

namespace Universe

variable {u v : Universe}

/-- What a member settles, it settles in the universe; there may be no such member. -/
theorem within_settles (hu : u.Coherent) {α : Type} {id : Int} {op : Surroundings → Op α}
    (h : ∀ e, u.members[id]? = some e → Settles (op (u.surroundings id)) ⟨e, u.references⟩) :
    Settles (within id op) u :=
  within_ends hu (fun e he => h e he) fun _ => rfl

/-- An alteration of a member is undone from what is left of its result, or there is a reason why it cannot be. -/
theorem Alters.undo_settles (hu : u.Coherent) {c : Int × Undo} {u₁ : Universe} (h : u.Alters c u₁)
    (hv : u₁.Leaves v) : Settles (Evaluator.undo c.1 c.2) v := by
  obtain ⟨e, l₁, he, h, rfl⟩ := h
  refine within_settles hv.coherent fun e₂ he₂ => ?_
  have hput : (u.putBack c.1 l₁).members[c.1]? = some l₁.env :=
    (getElem?_insert_iff _ _ _ _ _).2 (.inl ⟨rfl, rfl⟩)
  exact h.undo_settles (hu.locale he) (hv.each c.1 l₁.env e₂ hput he₂) _

/-- Each entry of a journal finds what it undoes when it is its turn, whatever could not be recorded. -/
theorem Alterations.entry_settles (hu : u.Coherent) {J done rest : Journal Int} {entry : Int × Undo} {u' w : Universe}
    (h : u.Alterations J u') (hJ : J.labelled = done ++ entry :: rest) (hv : u'.Leaves v)
    (hdone : done.rollback Evaluator.undo v = .ok () ([], w)) : Settles (Evaluator.undo entry.1 entry.2) w := by
  induction h generalizing done v with
  | none => simp [Journal.labelled] at hJ
  | @more J c u₁ u₂ h h' ih =>
    by_cases hc : c.2.isLabelled = true
    · rw [Journal.labelled_cons_of hc] at hJ
      cases done with
      | nil =>
        cases hdone
        cases hJ
        exact h'.undo_settles (h.coherent hu) hv
      | cons d done =>
        obtain ⟨rfl, hrest⟩ := List.cons.inj hJ
        -- undoing the newest entry leaves what the older ones led to, or else rolling back would stop there
        have hends := h'.undone_or_stays (h.coherent hu) hv
        obtain ⟨place, undo⟩ := c
        cases hundo : Evaluator.undo place undo v with
        | ok a v₁ =>
          simp only [Journal.rollback, hundo] at hdone
          exact ih hrest (hends.of_ok hundo).1 hdone
        | error fault v₁ =>
          simp only [Journal.rollback, hundo] at hdone
          cases hdone
    · rw [Journal.labelled_cons_of_not hc] at hJ
      exact ih hJ (h'.leaves_of_unlabelled (h.coherent hu) (Bool.eq_false_iff.2 hc) hv) hdone

end Universe

/-! ## Steps -/

/-- What a step from a place may fail with: a failure of its own, a number that is too long to be read or written,
or that it was to tell what is where there is no node. -/
def Place.Admits (place : Place) (f : Fault) : Prop :=
  f.IsOwn ∨ (∃ digits, f = .numeral digits) ∨ (f = .unreadable .noSuchPart "" ∧ ∀ n, place.location ≠ .node n)

theorem Place.admits_usual (place : Place) : Usual place.Admits := ⟨.inl, fun digits => .inr (.inl ⟨digits, rfl⟩)⟩

/-- Where a step is at a node, it stays at nodes. -/
structure Sited (place : Place) (p : Progress) : Prop where
  coherent : p.store.Coherent
  sited : (∃ n, place.location = .node n) → ∃ n, p.place.location = .node n

theorem sited_steady (c : Context) (place : Place) : Steady c place.Admits (Sited place) where
  coherent hp := hp.coherent
  speaks _ hp := ⟨hp.coherent, hp.sited⟩
  moves hp h := by
    refine ⟨hp.coherent, fun _ => ?_⟩
    obtain ⟨n, hn, -⟩ := Universe.jump_stands hp.coherent h
    exact ⟨n, hn⟩
  alters hp h _ := ⟨h.coherent hp.coherent, hp.sited⟩
  usual := place.admits_usual
  places {p} hp := by
    by_cases hplace : ∃ n, place.location = .node n
    · exact .inl (hp.sited hplace)
    · exact .inr (.inr (.inr ⟨rfl, not_exists.1 hplace⟩))

namespace Evaluator

variable {u : Universe} (depth : Nat) (setting : Setting) (place : Place) (scope : Scope Structure)

/-- Every entry of the journal of a step finds what it undoes. -/
theorem reached_settles (hu : u.Coherent) {done rest : Journal Int} {entry : Int × Undo} {v : Universe}
    (hJ : (reached depth setting place scope u).journal = done ++ entry :: rest)
    (hdone : done.rollback undo (reached depth setting place scope u).store = .ok () ([], v)) :
    Settles (undo entry.1 entry.2) v := by
  obtain ⟨J, hrec, -, hjournal⟩ := reached_recorded depth setting place scope hu
  exact hrec.entry_settles hu (hjournal.symm.trans hJ) (hrec.coherent hu).restored.leaves hdone

/-- A step, with all that is taken back when it fails, fails in the admitted ways only. -/
theorem step_admits (hu : u.Coherent) :
    Ends (step depth setting place scope) u (fun _ _ => True) fun f _ => place.Admits f := by
  have heval : Ends (eval setting depth setting.top scope) (.start u place) (fun _ => Sited place)
      fun f p => Sited place p ∧ place.Admits f :=
    eval_sustains (sited_steady setting.context place) rfl depth _ scope _ ⟨hu, id⟩
  unfold Ends
  cases h : eval setting depth setting.top scope (.start u place) with
  | ok value p =>
    rw [step_of_ok h]
    trivial
  | error fault p =>
    have hreached : reached depth setting place scope u = p := by
      unfold reached after
      rw [h]
    -- what is told is how evaluating failed, or else how the entry failed at which rolling back stopped
    cases hback : p.journal.rollback undo p.store with
    | ok _ r =>
      unfold Progress.start at h
      simp only [step, h, hback]
      exact (heval.of_error h).2
    | error fault' r =>
      obtain ⟨done, entry, w, hJ, hdone, hentry⟩ := Journal.exists_of_rollback_error hback
      have hsettles := reached_settles depth setting place scope hu (hreached ▸ hJ) (hreached ▸ hdone)
      unfold Progress.start at h
      simp only [step, h, hback]
      exact .inl (hsettles.of_error hentry)

end Evaluator

/-! ## Whatever arises -/

/-- Every question to an environment has an answer, or is refused for a reason of its own. Its triples can always be
listed, and its record lacks nothing but what a structure that is not whole lacks. -/
structure Environment.Forthcoming (e : Environment) : Prop where
  meaning : ∀ s, Answered (e.getStructure s)
  held : ∀ s, Answered (e.hasStructure s)
  standIn : ∀ s, Answered (e.isImport s)
  relation : ∀ s, Answered (e.tripleOf s)
  relations : ∃ ts, e.tripleList = .ok ts
  pattern : ∀ s p o, Answered (e.ask s p o)
  touching : ∀ s, Answered (e.askAny s)
  region : ∀ root selected f, e.unfold root selected = .error f →
    f.IsOwn ∨ (f = .endless ∧ root.isTooHigh = true)
  record : ∀ f, e.toRecord = .error f → f = .unreadable .wrongSort "" ∧ ¬e.HoldsWhole

theorem Environment.Tabled.forthcoming {e : Environment} (he : e.Tabled) : e.Forthcoming where
  meaning := he.getStructure_answered
  held := hasStructure_answered
  standIn := isImport_answered
  relation := he.tripleOf_answered
  relations := e.tripleList_ok
  pattern := he.ask_answered
  touching := he.askAny_answered
  region := he.unfold_answered
  record _ := he.toRecord_error

/-- A missing entry is no failure of the store's own, and what is one is told as one, unless there is a number in its
wording that is too long. -/
structure Fault.OwnTold : Prop where
  missing : ¬missingKey.IsOwn
  told : ∀ f : Fault, f.IsOwn → f.told.IsOwn ∨ (f.isWritable = false ∧ f.told = .numeral none)

theorem Fault.ownTold : OwnTold where
  missing := Bool.false_ne_true
  told _ := IsOwn.told

/-- An environment on its own answers questions, and its operations settle. Making a region returns how it ended. -/
structure Environment.LacksNothing (e : Environment) : Prop where
  questions : e.Forthcoming
  operations : ∀ around (op : Operation), Settles (op.perform around) ⟨e, ∅⟩
  regions : ∀ around region,
    Ends (Locale.raise around region) ⟨e, ∅⟩ (fun r _ => Answered r.1) fun _ _ => False

theorem Environment.Coherent.lacksNothing {e : Environment} (he : e.Coherent) : e.LacksNothing where
  questions := he.tabled.forthcoming
  operations := he.perform_settles
  regions := he.raise_answered

namespace Universe

/-- What is done in a universe settles: operations on an environment, which may not be there, and whole steps of
evaluation. What a step did is undone entry by entry, and each entry settles when it is its turn. -/
structure LacksNothing (u : Universe) : Prop where
  operations : ∀ id (op : Operation), Settles (within id fun around => op.perform around) u
  regions : ∀ id region, Ends (within id fun around => Locale.raise around region) u (fun r _ => Answered r.1)
    fun f _ => f = .noEnvironment id
  steps : ∀ depth setting place scope f v, Evaluator.step depth setting place scope u = .error f v → place.Admits f
  entries : ∀ depth setting place scope (done : Journal Int) entry rest v,
    (Evaluator.reached depth setting place scope u).journal = done ++ entry :: rest →
    done.rollback Evaluator.undo (Evaluator.reached depth setting place scope u).store = .ok () ([], v) →
    Settles (Evaluator.undo entry.1 entry.2) v

variable {u : Universe}

theorem Coherent.lacksNothing (hu : u.Coherent) : u.LacksNothing where
  operations _ op := within_settles hu fun _ he => op.perform_settles (hu.locale he) _
  regions _ region := by
    refine within_ends hu (fun e he => ?_) fun _ => rfl
    exact (Locale.raise_ends (hu.locale he) _ region).mono (fun _ _ h => h.2) fun _ _ h => h.elim
  steps depth setting place scope _ _ hf := (Evaluator.step_admits depth setting place scope hu).of_error hf
  entries depth setting place scope _ _ _ _ := Evaluator.reached_settles depth setting place scope hu

/-- Nothing that can come about has an entry missing: the questions to an environment are answered and its operations
settle, whatever they are given, on its own or in a universe, and so do steps of evaluation and what takes them back.
What fails by itself is told as such. -/
theorem arises_settles {e : Environment} (he : e.Arises) (hu : u.Arises) :
    Fault.OwnTold ∧ e.LacksNothing ∧ u.LacksNothing :=
  ⟨Fault.ownTold, he.coherent.lacksNothing, hu.coherent.lacksNothing⟩

/-- A root with the nodes of four roles, and a triple of three of them. -/
def retraced : Environment := (Environment.fresh rootId).evolved <|
  [.createNode (some "then") none, .createNode (some "delete") none, .createNode (some "tell") none,
    .createNode (some "first") none, .insertTriple (.node ⟨0, 1⟩) (.node ⟨0, 2⟩) (.node ⟨0, 3⟩)].map
  fun op => (.alone, op)

/-- Deleting the triple, making it again, and failing then. -/
def retracing : Setting where
  context :=
    { env := some rootId
      bindings := []
      roles := [(.node ⟨0, 1⟩, .form .progn), (.node ⟨0, 2⟩, .form .delete), (.node ⟨0, 3⟩, .form .tell),
        (.node ⟨0, 4⟩, .builtin .car)]
      isSealed := true }
  overlay := []
  top := .list [.node ⟨0, 1⟩, .list [.node ⟨0, 2⟩, .node ⟨0, 5⟩],
    .list [.node ⟨0, 3⟩, .node ⟨0, 1⟩, .node ⟨0, 2⟩, .node ⟨0, 3⟩], .list [.node ⟨0, 4⟩, .int 5]]

/-- The self node of the root. -/
def atRoot : Place := ⟨rootId, .node ⟨0, 0⟩⟩

/-- When the step is taken back, the triple that is still there is removed for the second time, and then the one that
was removed comes back. -/
theorem retraced_settles : retraced.Forthcoming ∧
    Settles ((Operation.deleteTriple (.node ⟨0, 5⟩)).perform .alone) ⟨retraced, ∅⟩ ∧
    ∃ u, ofRoot retraced = .ok u ∧
      Settles (within rootId fun around => (Operation.deleteTriple (.node ⟨0, 5⟩)).perform around) u ∧
      (∃ f v, Evaluator.step 3 retracing atRoot [] u = .error f v ∧ f.kind = .notAPair ∧ atRoot.Admits f) ∧
      ∃ p made deleted v, Evaluator.reached 3 retracing atRoot [] u = p ∧ p.journal = [made, deleted] ∧
        Evaluator.undo made.1 made.2 p.store = .ok () v ∧
        Settles (Evaluator.undo made.1 made.2) p.store ∧ Settles (Evaluator.undo deleted.1 deleted.2) v := by
  have harises : retraced.Arises := (Environment.Arises.fresh rootId).evolved _
  have hrun : ((ofRoot retraced).toOption.any fun u =>
      let p := Evaluator.reached 3 retracing atRoot [] u
      fails (Evaluator.step 3 retracing atRoot []) u (fun f => f.kind == .notAPair) &&
        (p.journal.length == 2 &&
          p.journal.head?.any fun made => passes (Evaluator.undo made.1 made.2) p.store fun _ _ => true)) = true := by
    decide +kernel
  cases hu : ofRoot retraced with
  | error f =>
    rw [hu] at hrun
    cases hrun
  | ok u =>
  rw [hu] at hrun
  obtain ⟨-, he, hsettled⟩ := arises_settles harises (.ofRoot harises hu)
  have hadmits := hsettled.steps 3 retracing atRoot []
  have hentries := hsettled.entries 3 retracing atRoot []
  obtain ⟨hfails, hrun⟩ := Bool.and_eq_true_iff.1 hrun
  obtain ⟨f, v, hf, hkind⟩ := exists_of_fails hfails
  generalize hp : Evaluator.reached 3 retracing atRoot [] u = p at hrun hentries
  obtain ⟨hlength, hundo⟩ := Bool.and_eq_true_iff.1 hrun
  obtain ⟨made, deleted, hJ⟩ := List.length_eq_two.1 (eq_of_beq hlength)
  rw [hJ] at hundo
  obtain ⟨⟨⟩, w, hw, -⟩ := exists_of_passes hundo
  refine ⟨he.questions, he.operations .alone _, u, rfl, hsettled.operations rootId _,
    ⟨f, v, hf, eq_of_beq hkind, hadmits f v hf⟩, p, made, deleted, w, hp, hJ, hw, ?_, ?_⟩
  · exact hentries [] made [deleted] _ hJ rfl
  · refine hentries [made] deleted [] w hJ ?_
    simp only [Journal.rollback, hw]

/-! ## Numbers that are too long -/

/-- The name of a node of the root, with so many digits besides the first one in its handle. -/
def farName (n : Nat) : String := "$0:" ++ String.ofList (List.replicate (n + 1) '1')

theorem literal_farName (n : Nat) : Eval.literal? (farName n) = some (some ['0'], List.replicate (n + 1) '1') := by
  have hzero : (Text.digit? '0').isSome = true := by decide
  have hcolon : (Text.digit? ':').isSome = false := by decide
  have hone : (Text.digit? '1').isSome = true := by decide
  have hname : (farName n).toList = '$' :: '0' :: ':' :: List.replicate (n + 1) '1' := by
    simp [farName]
  have hlast : ('0' :: ':' :: List.replicate (n + 1) '1').getLast? = some '1' := by
    simp [List.getLast?_cons, List.getLast?_replicate]
  simp [Eval.literal?, hname, hlast, hzero, hcolon, hone, Eval.areDigits]

/-- A handle with too many digits is not read, whether or not there is such a node. -/
theorem step_farName {n : Nat} (hn : Decimal.maxDigits ≤ n) (c : Context) (u : Universe) :
    Evaluator.step 1 ⟨c, [], .sym (farName n)⟩ atRoot [] u = .error (.numeral (some (n + 1))) u := by
  have hzero : Eval.literalNumber ['0'] = .ok 0 := by rfl
  have hlong : Eval.literalNumber (List.replicate (n + 1) '1') = .error (.numeral (some (n + 1))) := by
    unfold Eval.literalNumber
    rw [List.length_replicate, if_pos (Nat.lt_succ_of_le hn)]
  have heval : Evaluator.eval ⟨c, [], .sym (farName n)⟩ 1 (.sym (farName n)) [] (.start u atRoot) =
      .error (.numeral (some (n + 1))) (.start u atRoot) := by
    refine bind_of_error ?_
    unfold Eval.resolve
    simp only [Scope.find?, List.findSome?_nil, Level.find?, List.lookup_nil, Option.or_none]
    rw [get_bind, literal_farName]
    simp only [Eval.answer, hzero, hlong, pure_bind]
    exact bind_of_error rfl
  unfold Progress.start at heval
  simp only [Evaluator.step, heval, Journal.rollback]

/-- The record of an environment whose id no decimal is long enough for. -/
def vast : Plain := .object [("format", .text Environment.recordFormat), ("version", .int 1),
  ("id", .int Decimal.firstTooLong), ("next", .int 1), ("nodes", .list [.object [("id", .int 0)]])]

/-- There is no such node, but that is not found out, since the handle cannot be read; and a node that is not of such
an environment is refused, but that cannot be told, since the id is in the wording. -/
theorem far_and_vast_untold :
    (∃ f v, Evaluator.step 1 ⟨.empty none, [], .sym (farName Decimal.maxDigits)⟩ atRoot [] .empty = .error f v ∧
      f.kind = .misuse ∧ ¬f.IsOwn) ∧
    ∃ e f, Environment.fromRecord vast = .ok e ∧ e.getStructure (.node ⟨0, 0⟩) = .error f ∧
      f.kind = .foreignNode ∧ ¬f.told.IsOwn := by
  refine ⟨⟨_, _, step_farName (Nat.le_refl _) _ _, rfl, Bool.false_ne_true⟩, ?_⟩
  have hrun : (match Environment.fromRecord vast with
      | .ok e =>
        match e.getStructure (.node ⟨0, 0⟩) with
        | .ok _ => false
        | .error f => f.kind == .foreignNode && !f.told.kind.isDomain
      | .error _ => false) = true := by decide +kernel
  cases hread : Environment.fromRecord vast with
  | error f =>
    rw [hread] at hrun
    cases hrun
  | ok e =>
    rw [hread] at hrun
    dsimp only at hrun
    cases hf : e.getStructure (.node ⟨0, 0⟩) with
    | ok s =>
      rw [hf] at hrun
      cases hrun
    | error f =>
      rw [hf] at hrun
      obtain ⟨hkind, htold⟩ := Bool.and_eq_true_iff.1 hrun
      refine ⟨e, f, rfl, hf, eq_of_beq hkind, ?_⟩
      unfold Fault.IsOwn
      simpa using htold

end Universe

end GraphLisp
