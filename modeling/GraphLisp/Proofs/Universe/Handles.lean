import GraphLisp.Proofs.Environment.Handles
import GraphLisp.Proofs.Universe.Counters
/-!
# Handles in the course of things

An environment goes through operations, turns of agents that succeed or are taken back, and records that it is read
back from, on its own and in universes. Along every such course its handles go up (`Stage.handles_ascend`): what
was given out in a turn that failed is not given out again, and neither is what a record no longer tells of.
-/

namespace GraphLisp

open Std

/-! ## Members of a universe -/

/-- The handles that a journal says were given out in an environment, in order. -/
def Journal.issued (J : Journal Int) (id : Int) : List Int :=
  J.reverse.filterMap fun c => if c.1 = id then c.2.issued? else none

namespace Universe

variable {u v : Universe} {id : Int} {e : Environment}

/-- The universe has what the environment has become, and the handles were given out on the way. -/
def Continues (e : Environment) (id : Int) (issued : List Int) (v : Universe) : Prop :=
  ∃ e', v.members[id]? = some e' ∧ e.Follows issued e'

/-- The handles that an operation gives out in a member. -/
def issuedIn (u : Universe) (id : Int) (op : Operation) : List Int :=
  match u.members[id]? with
  | some e => op.issued (u.surroundings id) ⟨e, u.references⟩
  | none => []

theorem issued_cons (c : Int × Undo) (J : Journal Int) (id : Int) :
    Journal.issued (c :: J) id = Journal.issued J id ++ (if c.1 = id then c.2.issued? else none).toList := by
  unfold Journal.issued
  rw [List.reverse_cons, List.filterMap_append]
  congr 1

theorem Alters.follows {c : Int × Undo} (h : u.Alters c v) (he : u.members[id]? = some e) :
    Continues e id (if c.1 = id then c.2.issued? else none).toList v := by
  obtain ⟨e₁, l, he₁, h, rfl⟩ := h
  by_cases hid : id = c.1
  · subst hid
    cases he.symm.trans he₁
    rw [if_pos rfl]
    exact ⟨l.env, ExtTreeMap.getElem?_insert_self, h.follows⟩
  · rw [if_neg fun hc => hid hc.symm]
    exact ⟨e, (getElem?_insert_iff _ _ _ _ _).2 (.inr ⟨hid, he⟩), .refl e⟩

theorem Alterations.follows {J : Journal Int} (h : u.Alterations J v) (he : u.members[id]? = some e) :
    Continues e id (Journal.issued J id) v := by
  induction h with
  | none => exact ⟨e, he, .refl e⟩
  | more _ h' ih =>
    obtain ⟨e₁, he₁, h₁⟩ := ih
    obtain ⟨e₂, he₂, h₂⟩ := h'.follows he₁
    rw [issued_cons]
    exact ⟨e₂, he₂, h₁.trans h₂⟩

/-- Changes that cannot be recorded give no handles out. -/
theorem Alterations.issued_labelled (hu : u.Coherent) {J : Journal Int} (h : u.Alterations J v) (id : Int) :
    Journal.issued J.labelled id = Journal.issued J id := by
  induction h with
  | none => rfl
  | @more J c u₁ u₂ h h' ih =>
    by_cases hc : c.2.isLabelled = true
    · rw [Journal.labelled_cons_of hc, issued_cons, issued_cons, ih]
    · obtain ⟨e, l, he, h', -⟩ := h'
      have hnone : c.2.issued? = Option.none := by
        generalize c.2 = undo at h' hc ⊢
        cases undo with
        | created n => exact absurd (h'.created_labelled ((h.coherent hu).locale he)) hc
        | _ => rfl
      rw [Journal.labelled_cons_of_not hc, issued_cons, ih, hnone]
      simp

theorem issued_suffix {J K : Journal Int} (h : J <:+ K) (id k : Int) (hk : k ∈ Journal.issued J id) :
    k ∈ Journal.issued K id := by
  obtain ⟨x, hx, hkx⟩ := List.mem_filterMap.1 hk
  exact List.mem_filterMap.2 ⟨x, List.mem_reverse.2 (h.subset (List.mem_reverse.1 hx)), hkx⟩

/-- The handles that a member gives out are no others than those that its locale gives out. -/
theorem within_follows (hu : u.Coherent) (he : u.members[id]? = some e) (env : Int) {α : Type}
    {m : Surroundings → Op α} (op : Operation) (h : ∀ l : Locale, l.Coherent → Ends (m (u.surroundings env)) l
      (fun _ l' => l.env.Follows (op.issued (u.surroundings env) l) l'.env)
      fun _ l' => l.env.Follows (op.issued (u.surroundings env) l) l'.env) :
    Ends (within env m) u (fun _ => Continues e id (if id = env then u.issuedIn env op else []))
      fun _ => Continues e id (if id = env then u.issuedIn env op else []) := by
  refine within_ends hu (fun e₁ he₁ => ?_) fun hnone => ?_
  · by_cases hid : id = env
    · subst hid
      cases he.symm.trans he₁
      have hissued : u.issuedIn id op = op.issued (u.surroundings id) ⟨e, u.references⟩ := by
        rw [issuedIn, he]
      rw [if_pos rfl, hissued]
      exact (h _ (hu.locale he)).mono (fun _ l h => ⟨l.env, ExtTreeMap.getElem?_insert_self, h⟩)
        fun _ l h => ⟨l.env, ExtTreeMap.getElem?_insert_self, h⟩
    · rw [if_neg hid]
      have hsame : ∀ l, (u.putBack env l).members[id]? = some e := fun l =>
        (getElem?_insert_iff _ _ _ _ _).2 (.inr ⟨hid, he⟩)
      exact .always (fun _ l => ⟨e, hsame l, .refl e⟩) fun _ l => ⟨e, hsame l, .refl e⟩
  · have hid : id ≠ env := by
      rintro rfl
      cases he.symm.trans hnone
    rw [if_neg hid]
    exact ⟨e, he, .refl e⟩

end Universe

/-! ## Actions -/

/-- The handles that an action gives out in an environment, in order. -/
def Action.issued (u : Universe) (id : Int) : Action → List Int
  | .createEnvironment name => if id = rootId then u.issuedIn rootId (.createNode name none) else []
  | .link source predicate target =>
    if id = rootId ∧ (u.resolve source).toBool ∧ (u.resolve target).toBool then
      u.issuedIn rootId (.insertTriple source predicate target)
    else []
  | .operate env op => if id = env then u.issuedIn env op else []
  | .turn context t => Journal.issued (t.reached context u).journal id

namespace Universe

variable {u : Universe} {id : Int} {e : Environment}

/-- Whatever a turn comes to, the counter stays where its evaluation has left it. -/
theorem turn_follows (hu : u.Coherent) (he : u.members[id]? = some e) (context : Context) (t : Turn) :
    Continues e id (Journal.issued (t.reached context u).journal id) (t.play context u) := by
  obtain ⟨J, K, u₁, hjournal, hJ, hsuffix, h, hr, hcounter⟩ := t.play_leads context hu
  rw [hjournal, hJ.issued_labelled hu]
  obtain ⟨e₁, he₁, h₁⟩ := h.follows he
  obtain ⟨e₂, he₂⟩ := hr.exists_member he₁
  obtain ⟨e₃, he₃, h₃⟩ := hJ.follows he
  -- the cells are left of some moment of the turn, but the counter is that of its end
  have hlive : ∀ k ∈ e₂.nodes.cells, k ∈ e₁.nodes.cells := fun k hk => (hr.each id e₁ e₂ he₁ he₂).mem_cells hk
  have hnext : e₂.nodes.next = e₃.nodes.next := by
    have hsame := hcounter id
    unfold counter at hsame
    rw [he₂, he₃] at hsame
    exact Option.some.inj hsame
  refine ⟨e₂, he₂, hnext ▸ h₃.advances, hnext ▸ h₃.between, h₃.ascending, fun k hk => ?_⟩
  exact (h₁.live k (hlive k hk)).imp_right (issued_suffix hsuffix id k)

theorem createEnvironment_follows (hu : u.Coherent) (he : u.members[id]? = some e) (name : Option String) :
    Continues e id (Action.issued u id (.createEnvironment name)) (after (createEnvironment name) u) := by
  refine Ends.after (P := Continues e id _) ?_
  have hplant := within_follows hu he rootId (m := fun around => Locale.createNode around name none)
    (.createNode name none) fun l hl => Locale.createNode_follows hl (u.surroundings rootId) name none
  have hcoherent := coherent_abiding.growing.createNode rootId name u hu
  refine (hplant.and hcoherent).bind ?_ fun _ _ h => h.1
  rintro n w ⟨⟨e₁, he₁, h₁⟩, hw⟩
  refine Ends.bind (attach_ends hw (.fresh n.id)) ?_ ?_
  · rintro - _ ⟨hfree, -, rfl⟩
    -- the new environment takes no other one's place
    have hne : id ≠ n.id := by
      rintro rfl
      exact hfree (mem_of_getElem? he₁)
    exact ⟨e₁, (getElem?_insert_iff _ _ _ _ _).2 (.inr ⟨hne, he₁⟩), h₁⟩
  · rintro _ _ rfl
    exact ⟨e₁, he₁, h₁⟩

theorem link_follows (hu : u.Coherent) (he : u.members[id]? = some e) (source predicate target : Structure) :
    Continues e id (Action.issued u id (.link source predicate target)) (after (link source predicate target) u) := by
  have hidle : Continues e id [] u := ⟨e, he, .refl e⟩
  refine Ends.after (P := Continues e id _) ?_
  refine (query_ends _ u).test (fun i hi => ?_) ?_
  · refine (query_ends _ u).test (fun j hj => ?_) ?_
    · have htell := within_follows hu he rootId (m := fun _ => Locale.tell source predicate target)
        (.insertTriple source predicate target) fun l hl =>
          (Locale.insertTriple_follows hl (u.surroundings rootId) source predicate target).bind (fun _ _ h => h)
            fun _ _ h => h
      simpa [Action.issued, hi, hj, Except.toBool] using htell
    · rintro f _ ⟨rfl, hj⟩
      simpa [Action.issued, hj, Except.toBool] using hidle
  · rintro f _ ⟨rfl, hi⟩
    simpa [Action.issued, hi, Except.toBool] using hidle

/-- Whatever is done to a universe, what is made in an environment is given handles in order. -/
theorem play_follows (hu : u.Coherent) (he : u.members[id]? = some e) (a : Action) :
    Continues e id (a.issued u id) (a.play u) := by
  cases a with
  | createEnvironment name => exact createEnvironment_follows hu he name
  | link source predicate target => exact link_follows hu he source predicate target
  | operate env op =>
    exact Ends.after (P := Continues e id _)
      (within_follows hu he env op fun l hl => Locale.perform_follows hl _ op)
  | turn context t => exact turn_follows hu he context t

end Universe

/-! ## Courses -/

/-- Where an environment is: on its own in some surroundings, or a member of a universe. -/
inductive Stage where
  | alone (around : Surroundings) (e : Environment)
  | member (u : Universe) (id : Int)

namespace Stage

/-- What the environment sees beyond itself. -/
def around : Stage → Surroundings
  | .alone around _ => around
  | .member u id => u.surroundings id

/-- The environment with the references that go with it. -/
def locale? : Stage → Option Locale
  | .alone _ e => some ⟨e, ∅⟩
  | .member u id => u.members[id]?.map fun e => ⟨e, u.references⟩

/-- The stage can come about. -/
def Arises : Stage → Prop
  | .alone _ e => e.Arises
  | .member u id => u.Arises ∧ id ∈ u.members

/-- What can happen to an environment from one stage to the next one, and the handles that are given out then. -/
inductive Moves : Stage → List Int → Stage → Prop where
  | operated (around : Surroundings) (e : Environment) (op : Operation) :
    Moves (.alone around e) (op.issued around ⟨e, ∅⟩) (.alone around (e.operated around op))
  /-- Something is done to the universe, be it to this environment or to another one, or an agent has its turn. -/
  | played (u : Universe) (id : Int) (a : Action) : Moves (.member u id) (a.issued u id) (.member (a.play u) id)
  /-- The environment is one of a universe now, as its root or from a file. -/
  | joined {around : Surroundings} {e : Environment} {u : Universe} {id : Int} (hu : u.Arises)
      (he : u.members[id]? = some { e with id, pins := [] }) : Moves (.alone around e) [] (.member u id)
  /-- The environment is read back from its own record. -/
  | restored {s : Stage} {l : Locale} {p : Plain} {e : Environment} (around : Surroundings) (hl : s.locale? = some l)
      (hp : l.env.toRecord = .ok p) (he : Environment.fromRecord p = .ok e) : Moves s [] (.alone around e)

/-- What has happened to an environment, and the handles that were given out, in order. -/
inductive Runs (s : Stage) : List Int → Stage → Prop where
  | none : Runs s [] s
  | more {issued more : List Int} {s' s'' : Stage} (h : Runs s issued s') (h' : Moves s' more s'') :
    Runs s (issued ++ more) s''

theorem locale_member {u : Universe} {id : Int} {l : Locale} (h : (Stage.member u id).locale? = some l) :
    u.members[id]? = some l.env ∧ l = ⟨l.env, u.references⟩ := by
  obtain ⟨e, he, rfl⟩ := Option.map_eq_some_iff.1 h
  exact ⟨he, rfl⟩

theorem Arises.exists_locale {s : Stage} (h : s.Arises) : ∃ l, s.locale? = some l := by
  cases s with
  | alone around e => exact ⟨_, rfl⟩
  | member u id =>
    obtain ⟨e, he⟩ := (mem_iff_exists_getElem? _ _).1 h.2
    exact ⟨⟨e, u.references⟩, by rw [locale?, he]; rfl⟩

theorem Arises.locale_arises {s : Stage} (h : s.Arises) {l : Locale} (hl : s.locale? = some l) : l.env.Arises := by
  cases s with
  | alone around e =>
    cases hl
    exact h
  | member u id => exact .member h.1 (locale_member hl).1

theorem Moves.root {e : Environment} {u : Universe} (he : e.Arises) (h : Universe.ofRoot e = .ok u)
    (around : Surroundings) : Moves (.alone around e) [] (.member u rootId) := by
  refine .joined (.ofRoot he h) ?_
  unfold Universe.ofRoot at h
  split at h
  · cases h
  · next hid =>
    cases h
    rw [← Decidable.of_not_not hid]
    exact ExtTreeMap.getElem?_insert_self

/-- From a stage that can come about, one step leads to another one, and the handles go up. -/
theorem Moves.follows {s s' : Stage} {issued : List Int} (h : s.Moves issued s') (hs : s.Arises) :
    s'.Arises ∧ ∀ l, s.locale? = some l → ∃ l', s'.locale? = some l' ∧ l.env.Follows issued l'.env := by
  cases h with
  | operated around e op =>
    have he : e.Arises := hs
    refine ⟨he.operated around op, fun l hl => ?_⟩
    cases hl
    exact ⟨_, rfl, he.coherent.operated_follows around op⟩
  | played u id a =>
    obtain ⟨hu, hid⟩ := hs
    obtain ⟨e, he⟩ := (mem_iff_exists_getElem? _ _).1 hid
    obtain ⟨e', he', hfollows⟩ := Universe.play_follows hu.coherent he a
    refine ⟨⟨hu.played a, mem_of_getElem? he'⟩, fun l hl => ?_⟩
    cases he.symm.trans (locale_member hl).1
    exact ⟨⟨e', _⟩, by rw [locale?, he']; rfl, hfollows⟩
  | @joined around e u id hu he =>
    refine ⟨⟨hu, mem_of_getElem? he⟩, fun l hl => ?_⟩
    cases hl
    exact ⟨⟨{ e with id, pins := [] }, u.references⟩, by rw [locale?, he]; rfl, .idle (Int.le_refl _) fun _ h => h⟩
  | restored around hl hp he =>
    refine ⟨.read he, fun l' hl' => ?_⟩
    cases hl.symm.trans hl'
    have harises := hs.locale_arises hl
    exact ⟨_, rfl, harises.coherent.restored_follows hp he⟩

theorem Runs.follows {s s' : Stage} {issued : List Int} (h : s.Runs issued s') (hs : s.Arises) {l : Locale}
    (hl : s.locale? = some l) : s'.Arises ∧ ∃ l', s'.locale? = some l' ∧ l.env.Follows issued l'.env := by
  -- that the stage before a move can come about is what the move needs
  induction h with
  | none => exact ⟨hs, l, hl, .refl _⟩
  | more _ h' ih =>
    obtain ⟨hs', l', hl', hfollows⟩ := ih
    obtain ⟨hs'', hmove⟩ := h'.follows hs'
    obtain ⟨l'', hl'', hfollows'⟩ := hmove l' hl'
    exact ⟨hs'', l'', hl'', hfollows.trans hfollows'⟩

/-! ## What comes of an operation -/

/-- The result of something that changes nothing. -/
def leaving {σ α : Type} (s : σ) : Except Fault α → EStateM.Result Fault σ α
  | .ok a => .ok a s
  | .error f => .error f s

/-- An operation in the environment comes to a result, and nothing changes. -/
def Answers {α : Type} (s : Stage) (op : Surroundings → Op α) (r : Except Fault α) : Prop :=
  match s with
  | .alone around e => op around ⟨e, ∅⟩ = leaving ⟨e, ∅⟩ r
  | .member u id => Universe.within id op u = leaving u r

/-- What changes nothing in its locale changes nothing at all. -/
theorem Arises.answers {α : Type} {s : Stage} (hs : s.Arises) {l : Locale} (hl : s.locale? = some l)
    {op : Surroundings → Op α} {r : Except Fault α} (h : op s.around l = leaving l r) : s.Answers op r := by
  cases s with
  | alone around e =>
    cases hl
    exact h
  | member u id =>
    obtain ⟨he, heq⟩ := locale_member hl
    have hu := hs.1.coherent
    have hback : u.putBack id l = u := by
      rw [heq]
      exact Universe.putBack_self hu he
    have hnone : u.members[id]? ≠ none := by
      rw [he]
      exact Option.some_ne_none _
    have hrun : ∀ e, u.members[id]? = some e → op (u.surroundings id) ⟨e, u.references⟩ = leaving l r := by
      intro e he'
      cases he.symm.trans he'
      rw [← heq]
      exact h
    cases r with
    | ok a =>
      refine Ends.eq_ok (Universe.within_ends hu (fun e he' => ?_) fun h => absurd h hnone)
      rw [Ends, hrun e he']
      exact ⟨rfl, hback⟩
    | error f =>
      refine Ends.eq_error (Universe.within_ends hu (fun e he' => ?_) fun h => absurd h hnone)
      rw [Ends, hrun e he']
      exact ⟨rfl, hback⟩

/-- No handle is left: what would need a new one is refused and nothing changes, but what is there already is
found. -/
structure Spent (s : Stage) (l : Locale) : Prop where
  /-- A name that is free and a structure that mentions nothing unknown are no reason to refuse a node. -/
  createNode : ∀ (name : Option String) (content : Option Structure), (∀ n, name = some n → n ∉ l.env.nodes.names) →
    (∀ m ∈ (Cell.plain content).mentions, l.Knows s.around m) →
    s.Answers (Locale.createNode · name content) (.error .handlesExhausted)
  importNode : ∀ t : Node, t.env ≠ l.env.id → s.around.resolves t = true →
    (∀ h : Int, l.env.nodes.cells[h]? ≠ some (.proxy t)) →
    s.Answers (Locale.importNode · (.node t)) (.error .handlesExhausted)
  imported : ∀ (t : Node) (h : Int), s.around.resolves t = true → l.env.nodes.cells[h]? = some (.proxy t) →
    s.Answers (Locale.importNode · (.node t)) (.ok (l.env.node h, false))
  insertTriple : ∀ (x y z : Structure) (s' p o : Node), l.Resident x s' → l.Resident y p → l.Resident z o →
    (∀ h : Int, l.env.triples.statements[h]? ≠ some (Statement.mk s'.id p.id o.id)) →
    s.Answers (fun _ => Locale.insertTriple x y z) (.error .handlesExhausted)
  /-- A triple is found again where its parts are. -/
  told : ∀ (h : Int) (st : Statement), l.env.triples.statements[h]? = some st → st.subject ∈ l.env.nodes.cells →
    st.predicate ∈ l.env.nodes.cells → st.object ∈ l.env.nodes.cells →
    s.Answers (fun _ => Locale.insertTriple (.node (l.env.node st.subject)) (.node (l.env.node st.predicate))
      (.node (l.env.node st.object))) (.ok (l.env.node h, false))
  /-- They are there, unless the counter is too long to be written. -/
  whole : Decimal.isWritable l.env.nodes.next = true → l.env.Whole

theorem Arises.spent {s : Stage} (hs : s.Arises) {l : Locale} (hl : s.locale? = some l)
    (hspent : maxHandle < l.env.nodes.next) : s.Spent l := by
  have harises := hs.locale_arises hl
  have ht : l.env.Tabled := harises.coherent.tabled
  refine ⟨fun name content free known => hs.answers hl (Locale.createNode_spent hspent free known),
    fun t hforeign hresolves hnone => hs.answers hl ?_, fun t h hresolves hh => hs.answers hl ?_,
    fun x y z s' p o hx hy hz hnone => hs.answers hl ?_, fun h st hst hsub hpre hobj => hs.answers hl ?_,
    fun hnext => (harises.enclosed hnext).whole⟩
  · have hnone : l.env.nodes.imports[t]? = none :=
      Option.eq_none_iff_forall_not_mem.2 fun h hh => hnone h ((ht.imports t h).1 hh)
    rw [Locale.importNode_spent hspent hforeign hresolves, hnone]
    rfl
  · rw [Locale.importNode_spent hspent (ht.abroad h t hh) hresolves, (ht.imports t h).2 hh]
    rfl
  · have hnone : l.env.triples.find? ⟨s'.id, p.id, o.id⟩ = none :=
      Option.eq_none_iff_forall_not_mem.2 fun h hh => hnone h ((ht.triples.inverse _ h).1 hh)
    rw [Locale.insertTriple_spent hspent hx hy hz, hnone]
    rfl
  · have hsome : l.env.triples.find? st = some h := (ht.triples.inverse st h).2 hst
    rw [Locale.insertTriple_spent hspent (Locale.resident_node hsub) (Locale.resident_node hpre)
      (Locale.resident_node hobj)]
    simp only [Environment.node, hsome]
    rfl

/-- Along every course the handles that are given out go up, above all that was live before, and the last one is
never passed. Once it is given out, nothing new is made, and what there is is still found. -/
theorem handles_ascend {s s' s'' : Stage} {issued later : List Int} (hs : s.Arises) (h : s.Runs issued s')
    (h' : s'.Runs later s'') : ∃ l l' l'', s.locale? = some l ∧ s'.locale? = some l' ∧ s''.locale? = some l'' ∧
      l.env.Follows issued l'.env ∧ l'.env.Follows later l''.env ∧
      (∀ k ∈ later, ∀ j, j ∈ l.env.nodes.cells ∨ j ∈ issued ∨ j ∈ l'.env.nodes.cells → j < k) ∧
      (maxHandle < l''.env.nodes.next → s''.Spent l'') := by
  obtain ⟨l, hl⟩ := hs.exists_locale
  obtain ⟨hs', l', hl', hfollows⟩ := h.follows hs hl
  obtain ⟨hs'', l'', hl'', hfollows'⟩ := h'.follows hs' hl'
  have htabled := (hs.locale_arises hl).coherent.tabled
  have htabled' := (hs'.locale_arises hl').coherent.tabled
  refine ⟨l, l', l'', hl, hl', hl'', hfollows, hfollows', ?_, hs''.spent hl''⟩
  rintro k hk j (hj | hj | hj)
  · exact (hfollows.trans hfollows').above htabled k (List.mem_append_right _ hk) j hj
  · exact Int.lt_of_lt_of_le (hfollows.between j hj).2.1 (hfollows'.between k hk).1
  · exact hfollows'.above htabled' k hk j hj

end Stage

/-! ## The last handles -/

namespace Environment

/-- A root that has two handles left. -/
def waning : Plain := .object [("format", .text recordFormat), ("version", .int 1), ("id", .int 0),
  ("next", .int (maxHandle - 1)),
  ("nodes", .list [.object [("id", .int 0)], .object [("id", .int 1)], .object [("id", .int 2)],
    .object [("id", .int 3)]]), ("triples", .list [])]

/-- A turn that fails takes the last handle but one, and it is not there again after the root is read back. -/
theorem waning_ascends : ∃ (s s' s'' : Stage) (l l'' : Locale), s.locale? = some l ∧ s''.locale? = some l'' ∧
    s.Runs [maxHandle - 1] s' ∧ s'.Runs [maxHandle] s'' ∧ l.env.size = 4 ∧ l''.env.size = 5 ∧ s''.Spent l'' := by
  have hrun : ((fromRecord waning).toOption.bind fun e => (Universe.ofRoot e).toOption.bind fun u =>
      ((forlornTurn.play forlornContext u).members[rootId]?).bind fun e₁ => e₁.toRecord.toOption.bind fun p =>
        (fromRecord p).toOption.map fun e₂ =>
          let e₃ := e₂.operated .alone (.createNode none none)
          (Action.issued u rootId (.turn forlornContext forlornTurn),
            (Operation.createNode none none).issued .alone ⟨e₂, ∅⟩, e.size, e₃.size, e₃.nodes.next)) =
      some ([maxHandle - 1], [maxHandle], 4, 5, maxHandle + 1) := by
    decide +kernel
  obtain ⟨e, he, hrun⟩ := Option.bind_eq_some_iff.1 hrun
  obtain ⟨u, hu, hrun⟩ := Option.bind_eq_some_iff.1 hrun
  obtain ⟨e₁, he₁, hrun⟩ := Option.bind_eq_some_iff.1 hrun
  obtain ⟨p, hp, hrun⟩ := Option.bind_eq_some_iff.1 hrun
  obtain ⟨e₂, he₂, hrun⟩ := Option.map_eq_some_iff.1 hrun
  simp only [Prod.mk.injEq] at hrun
  obtain ⟨hlost, hmade, hsize, hsize', hnext⟩ := hrun
  have harises : e.Arises := .read (ok_of_toOption he)
  have hturn : (Stage.alone .alone e).Runs [maxHandle - 1] (.member (forlornTurn.play forlornContext u) rootId) :=
    (Stage.Runs.none.more (.root harises (ok_of_toOption hu) .alone)).more
      (hlost ▸ .played u rootId (.turn forlornContext forlornTurn))
  have hreload : (Stage.member (forlornTurn.play forlornContext u) rootId).Runs [maxHandle]
      (.alone .alone (e₂.operated .alone (.createNode none none))) :=
    (Stage.Runs.none.more (.restored (l := ⟨e₁, _⟩) .alone (by rw [Stage.locale?, he₁]; rfl) (ok_of_toOption hp)
      (ok_of_toOption he₂))).more (hmade ▸ .operated .alone e₂ (.createNode none none))
  have hs : (Stage.alone .alone e).Arises := harises
  obtain ⟨l, -, l'', hl, -, hl'', -, -, -, hspent⟩ := Stage.handles_ascend hs hturn hreload
  have hlast : l''.env = e₂.operated .alone (.createNode none none) := by
    cases hl''
    rfl
  cases hl
  exact ⟨_, _, _, _, l'', rfl, hl'', hturn, hreload, hsize, hlast ▸ hsize', hspent (by rw [hlast, hnext]; omega)⟩

/-- A turn that fails brings a triple back, but not a node that it leads to. There are no handles left, and the triple
is not found again. -/
theorem lost_part_untold : ∃ e u v f w, fromRecord overfull = .ok e ∧ Universe.ofRoot e = .ok u ∧
    v = u.evolved [.turn .deleting .overreaching] ∧ (Stage.alone .alone e).Runs [] (.member v rootId) ∧
    (∃ e', v.members[rootId]? = some e' ∧ maxHandle < e'.nodes.next ∧
      e'.triples.statements[(4 : Int)]? = some ⟨0, 0, Decimal.firstTooLong⟩) ∧
    Universe.within rootId (fun _ => Locale.insertTriple (.node ⟨0, 0⟩) (.node ⟨0, 0⟩)
      (.node ⟨0, Decimal.firstTooLong⟩)) v = .error f w ∧ f.kind = .unknownNode := by
  have hrun : ((fromRecord overfull).toOption.bind fun e => (Universe.ofRoot e).toOption.bind fun u =>
      ((u.evolved [.turn .deleting .overreaching]).members[rootId]?).bind fun e' =>
        e'.triples.statements[(4 : Int)]?.map fun st =>
          (Action.issued u rootId (.turn .deleting .overreaching), decide (maxHandle < e'.nodes.next), st,
            fails (Universe.within rootId fun _ => Locale.insertTriple (.node ⟨0, 0⟩) (.node ⟨0, 0⟩)
              (.node ⟨0, Decimal.firstTooLong⟩)) (u.evolved [.turn .deleting .overreaching])
              fun f => f.kind == .unknownNode)) =
      some ([], true, ⟨0, 0, Decimal.firstTooLong⟩, true) := by
    decide +kernel
  obtain ⟨e, he, hrun⟩ := Option.bind_eq_some_iff.1 hrun
  obtain ⟨u, hu, hrun⟩ := Option.bind_eq_some_iff.1 hrun
  obtain ⟨e', he', hrun⟩ := Option.bind_eq_some_iff.1 hrun
  obtain ⟨st, hst, hrun⟩ := Option.map_eq_some_iff.1 hrun
  simp only [Prod.mk.injEq, decide_eq_true_eq] at hrun
  obtain ⟨hissued, hspent, rfl, hfails⟩ := hrun
  obtain ⟨f, w, hf, hkind⟩ := exists_of_fails hfails
  have hroot := Stage.Moves.root (.read (ok_of_toOption he)) (ok_of_toOption hu) .alone
  have hturn := Stage.Moves.played u rootId (.turn .deleting .overreaching)
  rw [hissued] at hturn
  exact ⟨e, u, _, f, w, ok_of_toOption he, ok_of_toOption hu, rfl, (Stage.Runs.none.more hroot).more hturn,
    ⟨e', he', hspent, hst⟩, hf, eq_of_beq hkind⟩

end Environment

end GraphLisp
