import GraphLisp.Proofs.Context
/-!
# Contexts bind in both directions

A context keeps two tables, from roles to players and from players to roles, and every change has
to bring both up to date. `Context.Outcome` says once how each call ends and what it does to the
tables. `Context.TwoWay`, that the tables answer each other, holds of a new context and is kept by each
of these outcomes, so it holds after any calls, of which some may have failed.
-/

namespace GraphLisp

theorem Role.ofWord?_eq_some {word : String} {r : Role} : ofWord? word = some r ↔ r.word = word := by
  constructor
  · intro h
    unfold ofWord? at h
    simpa using List.find?_some h
  · rintro rfl
    exact ofWord?_word r

namespace Context

/-- What can be asked of a context that may change it. -/
inductive Call where
  | bind (word : String) (n : Node)
  | rebind (word : String) (n : Node)
  | close

/-- Carries out a call. Only a role that is bound anew has a player to give back. -/
def Call.run : Call → Change Structure
  | .bind word n => do
    Context.bind word (.node n)
    return .nothing
  | .rebind word n => Context.rebind word (.node n)
  | .close => do
    modify Context.close
    return .nothing

/-- The context with a role bound to a node for the first time. -/
def bound (c : Context) (r : Role) (n : Node) : Context :=
  { c with bindings := c.bindings ++ [(r, .node n)], roles := (.node n, r) :: c.roles }

/-- The context with a role bound anew to a node. -/
def rebound (c : Context) (r : Role) (n : Node) : Context :=
  { c with
    bindings := replace r (.node n) c.bindings
    roles := (.node n, r) :: without (.node n) (c.freed r).roles }

/-- How calls end. The checks are made in turn: a failure tells of the first that is not passed. -/
inductive Outcome (c : Context) : Call → EStateM.Result Fault Context Structure → Prop where
  | bind_notARole {word : String} {n : Node} (h : Role.ofWord? word = none) :
    Outcome c (.bind word n) (.error (.notARole word) c)
  | bind_sealed {word : String} {n : Node} {r : Role} (hr : Role.ofWord? word = some r) (h : c.isSealed = true) :
    Outcome c (.bind word n) (.error (.sealed word) c)
  | bind_taken {word : String} {n : Node} {r : Role} {p : Structure} (hr : Role.ofWord? word = some r)
    (hopen : c.isSealed = false) (h : c.player? r = some p) : Outcome c (.bind word n) (.error (.roleBound word) c)
  | bind_playing {word : String} {n : Node} {r q : Role} (hr : Role.ofWord? word = some r) (hopen : c.isSealed = false)
    (hfree : c.player? r = none) (h : c.roleOf (.node n) = some q) :
    Outcome c (.bind word n) (.error (.playsRole (.node n) q.word) c)
  | bound {word : String} {n : Node} {r : Role} (hr : Role.ofWord? word = some r) (hopen : c.isSealed = false)
    (hfree : c.player? r = none) (hidle : c.roleOf (.node n) = none) :
    Outcome c (.bind word n) (.ok .nothing (c.bound r n))
  | rebind_notARole {word : String} {n : Node} (h : Role.ofWord? word = none) :
    Outcome c (.rebind word n) (.error (.notARole word) c)
  | rebind_playing {word : String} {n : Node} {r q : Role} (hr : Role.ofWord? word = some r)
    (h : c.roleOf (.node n) = some q) (hne : q ≠ r) :
    Outcome c (.rebind word n) (.error (.playsRole (.node n) q.word) c)
  | rebound {word : String} {n : Node} {r : Role} (hr : Role.ofWord? word = some r)
    (hidle : ∀ q, c.roleOf (.node n) = some q → q = r) :
    Outcome c (.rebind word n) (.ok ((c.find? r).getD .nothing) (c.rebound r n))
  | closed : Outcome c .close (.ok .nothing c.close)

variable {c c' : Context} {r : Role} {n m : Node} {word : String}

theorem playedBy_node (c : Context) (n : Node) : c.playedBy (.node n) = .ok (c.roleOf (.node n)) := by
  have hlow : (Structure.node n).isTooHigh = false := by
    simp [Structure.isTooHigh, Structure.height]
  simp [playedBy, roleOf, hlow, Structure.nesting]

theorem roleNow_node (c : Context) (n : Node) : roleNow (.node n) c = .ok (c.roleOf (.node n)) c := by
  unfold roleNow
  rw [get_bind, playedBy_node]
  rfl

theorem roleNamed_unknown (h : Role.ofWord? word = none) (c : Context) :
    roleNamed word c = .error (.notARole word) c := by
  unfold roleNamed
  rw [h]
  rfl

theorem roleNamed_known (h : Role.ofWord? word = some r) (c : Context) : roleNamed word c = .ok r c := by
  unfold roleNamed
  rw [h]
  rfl

theorem bind_outcome (c : Context) (word : String) (n : Node) :
    Outcome c (.bind word n) ((Call.bind word n).run c) := by
  change Outcome c _ ((Context.bind word (.node n) >>= fun _ => pure .nothing) c)
  unfold Context.bind
  cases hr : Role.ofWord? word with
  | none =>
    rw [bind_of_error (bind_of_error (roleNamed_unknown hr c))]
    exact .bind_notARole hr
  | some r =>
    rw [bind_assoc, bind_of_ok (roleNamed_known hr c), bind_assoc, get_bind]
    by_cases hsealed : c.isSealed = true
    · rw [if_pos hsealed]
      exact .bind_sealed hr hsealed
    · have hopen : c.isSealed = false := by simpa using hsealed
      rw [if_neg hsealed]
      cases hfree : c.player? r with
      | some p => exact .bind_taken hr hopen hfree
      | none =>
        change Outcome c _ ((roleNow (.node n) >>= _ >>= _) c)
        rw [bind_assoc, bind_of_ok (roleNow_node c n)]
        cases hrole : c.roleOf (.node n) with
        | some q => exact .bind_playing hr hopen hfree hrole
        | none => exact .bound hr hopen hfree hrole

theorem rebind_outcome (c : Context) (word : String) (n : Node) :
    Outcome c (.rebind word n) ((Call.rebind word n).run c) := by
  change Outcome c _ (Context.rebind word (.node n) c)
  unfold Context.rebind
  cases hr : Role.ofWord? word with
  | none =>
    rw [bind_of_error (roleNamed_unknown hr c)]
    exact .rebind_notARole hr
  | some r =>
    rw [bind_of_ok (roleNamed_known hr c), get_bind, bind_of_ok (roleNow_node c n)]
    cases hrole : c.roleOf (.node n) with
    | none =>
      apply Outcome.rebound hr
      rw [hrole]
      exact nofun
    | some q =>
      dsimp only
      by_cases hq : q = r
      · rw [if_neg (not_not_intro hq)]
        apply Outcome.rebound hr
        rw [hrole]
        rintro _ ⟨⟩
        exact hq
      · rw [if_pos hq]
        exact .rebind_playing hr hrole hq

/-- Every call ends in one of these ways. -/
theorem run_outcome (c : Context) (call : Call) : Outcome c call (call.run c) := by
  cases call with
  | bind word n => exact bind_outcome c word n
  | rebind word n => exact rebind_outcome c word n
  | close => exact .closed

/-! ## What a call does to the tables -/

theorem player?_bound (hfree : c.player? r = none) (r' : Role) :
    (c.bound r n).player? r' = if r' = r then some (.node n) else c.player? r' := by
  have happend : (c.bound r n).player? r' = (c.player? r').or (if r' = r then some (.node n) else none) :=
    player?_append rfl r'
  rw [happend]
  by_cases h : r' = r
  · rw [if_pos h, if_pos h, h, hfree, Option.none_or]
  · rw [if_neg h, if_neg h, Option.or_none]

theorem roleOf_bound (c : Context) (r : Role) (n m : Node) :
    (c.bound r n).roleOf (.node m) = if n = m then some r else c.roleOf (.node m) :=
  roleOf_cons rfl m

theorem player?_rebound (c : Context) (r : Role) (n : Node) (r' : Role) :
    (c.rebound r n).player? r' = if r' = r then some (.node n) else c.player? r' :=
  lookup_replace r r' (.node n) c.bindings

/-- A node whose role is taken away plays none. -/
theorem roleOf_without_self (h : c'.roles = without (.node n) c.roles) : c'.roleOf (.node n) = none := by
  simp [roleOf, played?, h, without, List.find?_filter]

/-- The previous player of a role plays none once the role is taken from it. -/
theorem Matched.roleOf_freed_previous (hc : c.Matched) (hp : c.player? r = some (.node m)) :
    (c.freed r).roleOf (.node m) = none := by
  apply roleOf_without_self (c := c)
  unfold freed
  rw [hc.find?_eq, hp]
  rfl

theorem roleOf_rebound (c : Context) (r : Role) (n m : Node) :
    (c.rebound r n).roleOf (.node m) = if n = m then some r else (c.freed r).roleOf (.node m) := by
  let c₁ : Context := { c with roles := without (.node n) (c.freed r).roles }
  have hcons : (c.rebound r n).roleOf (.node m) = if n = m then some r else c₁.roleOf (.node m) := roleOf_cons rfl m
  rw [hcons]
  by_cases h : n = m
  · rw [if_pos h, if_pos h]
  · rw [if_neg h, if_neg h]
    exact roleOf_without h rfl

/-! ## Both tables -/

/-- The players of the roles and the roles of the nodes answer each other. -/
structure TwoWay (c : Context) : Prop where
  matched : c.Matched
  answered : ∀ {m r}, c.roleOf (.node m) = some r → c.player? r = some (.node m)

theorem twoWay_empty (env : Option Int) : (empty env).TwoWay := ⟨matched_empty env, nofun⟩

theorem TwoWay.player?_iff (hc : c.TwoWay) : c.player? r = some (.node n) ↔ c.roleOf (.node n) = some r := by
  constructor
  · intro hp
    obtain ⟨m, hm, hrole⟩ := hc.matched r _ hp
    cases hm
    exact hrole
  · exact hc.answered

theorem TwoWay.bound (hc : c.TwoWay) (hfree : c.player? r = none) (hidle : c.roleOf (.node n) = none) :
    (c.bound r n).TwoWay := by
  constructor
  · exact matched_append hc.matched hidle rfl rfl
  · intro m r' hm
    rw [roleOf_bound] at hm
    rw [player?_bound hfree]
    by_cases h : n = m
    · rw [if_pos h] at hm
      cases hm
      rw [if_pos rfl, h]
    · rw [if_neg h] at hm
      have hp := hc.answered hm
      have hne : r' ≠ r := by
        rintro rfl
        cases hfree.symm.trans hp
      rw [if_neg hne, hp]

theorem TwoWay.rebound (hc : c.TwoWay) (hidle : ∀ q, c.roleOf (.node n) = some q → q = r) :
    (c.rebound r n).TwoWay := by
  constructor
  · exact matched_replace hc.matched hidle rfl rfl
  · intro m r' hm
    rw [roleOf_rebound] at hm
    rw [player?_rebound]
    by_cases h : n = m
    · rw [if_pos h] at hm
      cases hm
      rw [if_pos rfl, h]
    · rw [if_neg h] at hm
      -- the previous player is the one node whose role is gone
      by_cases hprevious : c.player? r = some (.node m)
      · cases (hc.matched.roleOf_freed_previous hprevious).symm.trans hm
      · rw [hc.matched.roleOf_freed hprevious] at hm
        have hp := hc.answered hm
        have hne : r' ≠ r := by
          rintro rfl
          exact hprevious hp
        rw [if_neg hne, hp]

/-! ## Any calls -/

/-- A call that fails changes nothing. -/
theorem run_error {call : Call} {fault : Fault} (h : call.run c = .error fault c') : c' = c := by
  have hout := run_outcome c call
  rw [h] at hout
  cases hout <;> rfl

/-- What holds before a call and after its success holds after it. -/
theorem run_after {P : Context → Prop} {call : Call} (hc : P c)
    (hok : ∀ value c', call.run c = .ok value c' → P c') : P (GraphLisp.after call.run c) := by
  unfold GraphLisp.after
  cases h : call.run c with
  | ok value c' => exact hok value c' h
  | error fault c' =>
    rw [run_error h]
    exact hc

theorem TwoWay.run (hc : c.TwoWay) (call : Call) : (GraphLisp.after call.run c).TwoWay := by
  apply run_after hc
  intro value c' h
  have hout := run_outcome c call
  rw [h] at hout
  cases hout with
  | bound _ _ hfree hidle => exact hc.bound hfree hidle
  | rebound _ hidle => exact hc.rebound hidle
  | closed => exact ⟨hc.matched, hc.answered⟩

theorem isSealed_run (hsealed : c.isSealed = true) (call : Call) :
    (GraphLisp.after call.run c).isSealed = true := by
  apply run_after (P := fun c => c.isSealed = true) hsealed
  intro value c' h
  have hout := run_outcome c call
  rw [h] at hout
  cases hout with
  | bound | rebound => exact hsealed
  | closed => rfl

/-- The context after calls, each of which may fail. -/
def afterCalls (c : Context) (calls : List Call) : Context :=
  calls.foldl (fun c call => GraphLisp.after call.run c) c

theorem TwoWay.afterCalls (hc : c.TwoWay) (calls : List Call) : (c.afterCalls calls).TwoWay := by
  induction calls generalizing c with
  | nil => exact hc
  | cons call rest ih => exact ih (hc.run call)

theorem isSealed_afterCalls (hsealed : c.isSealed = true) (calls : List Call) :
    (c.afterCalls calls).isSealed = true := by
  induction calls generalizing c with
  | nil => exact hsealed
  | cons call rest ih => exact ih (isSealed_run hsealed call)

/-- Closing a context is final. -/
theorem isSealed_of_close {calls : List Call} (h : .close ∈ calls) (c : Context) :
    (c.afterCalls calls).isSealed = true := by
  induction calls generalizing c with
  | nil => cases h
  | cons call rest ih =>
    -- what is called after the closing cannot open the context again
    rcases List.mem_cons.1 h with rfl | h
    · exact isSealed_afterCalls rfl rest
    · exact ih h _

/-! ## The words of roles -/

/-- A word stands for the player of its role. -/
theorem lookup_ok {p : Structure} : c.lookup word = .ok p ↔ ∃ r : Role, r.word = word ∧ c.player? r = some p := by
  unfold lookup
  cases hr : Role.ofWord? word with
  | none =>
    simp only [Option.bind_none, reduceCtorEq, false_iff]
    rintro ⟨r, hword, -⟩
    cases hr.symm.trans (Role.ofWord?_eq_some.2 hword)
  | some r =>
    have hword := Role.ofWord?_eq_some.1 hr
    simp only [Option.bind_some]
    constructor
    · intro h
      cases hp : c.player? r with
      | none => rw [hp] at h; cases h
      | some q => rw [hp] at h; cases h; exact ⟨r, hword, hp⟩
    · rintro ⟨r', rfl, hp⟩
      cases hr.symm.trans (Role.ofWord?_word r')
      rw [hp]

theorem lookup_word (c : Context) (r : Role) :
    c.lookup r.word = (c.player? r).elim (.error (.roleUnbound r.word)) .ok := by
  unfold lookup
  rw [Role.ofWord?_word, Option.bind_some]
  cases c.player? r <;> rfl

theorem lookup_congr (h : ∀ r : Role, r.word = word → c'.player? r = c.player? r) : c'.lookup word = c.lookup word := by
  unfold lookup
  cases hr : Role.ofWord? word with
  | none => rfl
  | some r => rw [Option.bind_some, Option.bind_some, h r (Role.ofWord?_eq_some.1 hr)]

theorem reverseLookup_node (c : Context) (n : Node) :
    c.reverseLookup (.node n) = (c.roleOf (.node n)).elim (.error (.playsNoRole (.node n))) .ok := by
  unfold reverseLookup
  rw [playedBy_node]
  cases c.roleOf (.node n) <;> rfl

theorem reverseLookup_ok : c.reverseLookup (.node n) = .ok r ↔ c.roleOf (.node n) = some r := by
  rw [reverseLookup_node]
  cases c.roleOf (.node n) <;> simp

/-- Looking up a word and looking up a node are inverse. -/
theorem TwoWay.lookup_iff (hc : c.TwoWay) (word : String) (n : Node) :
    c.lookup word = .ok (.node n) ↔ ∃ r, c.reverseLookup (.node n) = .ok r ∧ r.word = word := by
  simp only [lookup_ok, reverseLookup_ok, hc.player?_iff]
  exact exists_congr fun r => And.comm

/-- A word that can be looked up is that of a role. -/
theorem word_mem_of_lookup {p : Structure} (h : c.lookup word = .ok p) : word ∈ Role.all.map Role.word := by
  obtain ⟨r, rfl, -⟩ := lookup_ok.1 h
  exact List.mem_map_of_mem (Role.mem_all r)

theorem TwoWay.word_unique (hc : c.TwoWay) {other : String} (hword : c.lookup word = .ok (.node n))
    (hother : c.lookup other = .ok (.node n)) : word = other := by
  obtain ⟨r, hr, rfl⟩ := (hc.lookup_iff word n).1 hword
  obtain ⟨r', hr', rfl⟩ := (hc.lookup_iff other n).1 hother
  cases hr.symm.trans hr'
  rfl

theorem TwoWay.node_unique (hc : c.TwoWay) (hm : c.reverseLookup (.node m) = .ok r)
    (hn : c.reverseLookup (.node n) = .ok r) : m = n := by
  have hm := hc.answered (reverseLookup_ok.1 hm)
  have hn := hc.answered (reverseLookup_ok.1 hn)
  cases hm.symm.trans hn
  rfl

/-- Once a context is closed, no role is bound for the first time. -/
theorem bind_sealed (hsealed : c.isSealed = true) (word : String) (n : Node) :
    ∃ fault, (Call.bind word n).run c = .error fault c := by
  have hout := run_outcome c (.bind word n)
  cases h : (Call.bind word n).run c with
  | error fault c' =>
    rw [run_error h]
    exact ⟨fault, rfl⟩
  | ok value c' =>
    rw [h] at hout
    cases hout with
    | bound _ hopen => cases hsealed.symm.trans hopen

/-- A word that is no role cannot be bound. -/
theorem run_notARole (h : word ∉ Role.all.map Role.word) (n : Node) (c : Context) :
    (Call.bind word n).run c = .error (.notARole word) c ∧ (Call.rebind word n).run c = .error (.notARole word) c := by
  have hnone : Role.ofWord? word = none := by
    apply Option.eq_none_iff_forall_ne_some.2
    intro r hr
    rw [← Role.ofWord?_eq_some.1 hr] at h
    exact h (List.mem_map_of_mem (Role.mem_all r))
  constructor
  · exact bind_of_error (bind_of_error (roleNamed_unknown hnone c))
  · exact bind_of_error (roleNamed_unknown hnone c)

/-- What binding anew gives back, and what it does to either table. -/
theorem TwoWay.rebind_ok (hc : c.TwoWay) {previous : Structure} (h : (Call.rebind word n).run c = .ok previous c') :
    (c.lookup word = .ok previous ∨ c.lookup word = .error (.roleUnbound word) ∧ previous = .nothing) ∧
      c'.lookup word = .ok (.node n) ∧
      (∀ m, previous = .node m → m ≠ n → c'.reverseLookup (.node m) = .error (.playsNoRole (.node m))) ∧
      (∀ other, other ≠ word → c'.lookup other = c.lookup other) ∧
      ∀ m, m ≠ n → previous ≠ .node m → c'.reverseLookup (.node m) = c.reverseLookup (.node m) := by
  have hout := run_outcome c (.rebind word n)
  rw [h] at hout
  cases hout with
  | @rebound _ _ r hr hidle =>
    obtain rfl := Role.ofWord?_eq_some.1 hr
    have hplayer : c.player? r = some ((c.find? r).getD .nothing) ∨
        c.player? r = none ∧ (c.find? r).getD .nothing = .nothing := by
      rw [hc.matched.find?_eq]
      cases c.player? r with
      | none => exact .inr ⟨rfl, rfl⟩
      | some p => exact .inl rfl
    refine ⟨?_, ?_, ?_, ?_, ?_⟩
    · rw [lookup_word]
      rcases hplayer with hp | ⟨hp, hnothing⟩
      · rw [hp]
        exact .inl rfl
      · rw [hp]
        exact .inr ⟨rfl, hnothing⟩
    · rw [lookup_word, player?_rebound, if_pos rfl]
      rfl
    · intro m hm hne
      rcases hplayer with hp | ⟨-, hnothing⟩
      · rw [hm] at hp
        rw [reverseLookup_node, roleOf_rebound, if_neg hne.symm, hc.matched.roleOf_freed_previous hp]
        rfl
      · cases hm.symm.trans hnothing
    · intro other hother
      apply lookup_congr
      intro r' hr'
      have hne : r' ≠ r := by
        rintro rfl
        exact hother hr'.symm
      rw [player?_rebound, if_neg hne]
    · intro m hne hm
      have hp : c.player? r ≠ some (.node m) := by
        intro hp
        rw [hc.matched.find?_eq, hp] at hm
        exact hm rfl
      rw [reverseLookup_node, roleOf_rebound, if_neg hne.symm, hc.matched.roleOf_freed hp, ← reverseLookup_node]

/-- After any calls on a new context, of which each may have succeeded or failed, a word stands for a
node just if the node plays the role of that word; so no node plays two roles, and no role has two nodes.
Only nodes are bound, to roles of the language. A call that fails changes nothing, and once
the context was closed, no role is bound for the first time. A role that is bound anew gives back
its player, which then plays no role unless it is the new player; every other word and every other
node is answered as before. -/
theorem stays_two_way (env : Option Int) (calls : List Call) :
    let c := (empty env).afterCalls calls
    (∀ word n, c.lookup word = .ok (.node n) ↔ ∃ r, c.reverseLookup (.node n) = .ok r ∧ r.word = word) ∧
      (∀ word other n, c.lookup word = .ok (.node n) → c.lookup other = .ok (.node n) → word = other) ∧
      (∀ m n r, c.reverseLookup (.node m) = .ok r → c.reverseLookup (.node n) = .ok r → m = n) ∧
      (∀ word p, c.lookup word = .ok p → word ∈ Role.all.map Role.word ∧ ∃ n, p = .node n) ∧
      (∀ word n, word ∉ Role.all.map Role.word → (Call.bind word n).run c = .error (.notARole word) c ∧
        (Call.rebind word n).run c = .error (.notARole word) c) ∧
      (∀ call fault c', Call.run call c = .error fault c' → c' = c) ∧
      (.close ∈ calls → ∀ word n, ∃ fault, (Call.bind word n).run c = .error fault c) ∧
      ∀ word n previous c', (Call.rebind word n).run c = .ok previous c' →
        (c.lookup word = .ok previous ∨ c.lookup word = .error (.roleUnbound word) ∧ previous = .nothing) ∧
        c'.lookup word = .ok (.node n) ∧
        (∀ m, previous = .node m → m ≠ n → c'.reverseLookup (.node m) = .error (.playsNoRole (.node m))) ∧
        (∀ other, other ≠ word → c'.lookup other = c.lookup other) ∧
        ∀ m, m ≠ n → previous ≠ .node m → c'.reverseLookup (.node m) = c.reverseLookup (.node m) := by
  intro c
  have hc : c.TwoWay := (twoWay_empty env).afterCalls calls
  refine ⟨hc.lookup_iff, ?_, ?_, ?_, ?_, ?_, ?_, ?_⟩
  · intro word other n hword hother
    exact hc.word_unique hword hother
  · intro m n r hm hn
    exact hc.node_unique hm hn
  · intro word p h
    refine ⟨word_mem_of_lookup h, ?_⟩
    obtain ⟨r, -, hp⟩ := lookup_ok.1 h
    obtain ⟨n, rfl, -⟩ := hc.matched r p hp
    exact ⟨n, rfl⟩
  · intro word n h
    exact run_notARole h n c
  · intro call fault c' h
    exact run_error h
  · intro h word n
    exact bind_sealed (isSealed_of_close h _) word n
  · intro word n previous c' h
    exact hc.rebind_ok h

/-- Calls that bind, refuse to bind what is taken, close, and bind anew. -/
def mixedCalls : List Call :=
  [.bind "quote" ⟨1, 1⟩, .bind "quote" ⟨1, 2⟩, .bind "if" ⟨1, 1⟩, .rebind "lambda" ⟨1, 1⟩, .bind "no-role" ⟨1, 3⟩,
    .bind "if" ⟨1, 4⟩, .close, .bind "lambda" ⟨1, 5⟩]

theorem mixed_calls_two_way :
    ∃ c', (Call.rebind "quote" ⟨1, 2⟩).run ((empty none).afterCalls mixedCalls) = .ok (.node ⟨1, 1⟩) c' ∧
      c'.reverseLookup (.node ⟨1, 1⟩) = .error (.playsNoRole (.node ⟨1, 1⟩)) ∧
      c'.lookup "if" = .ok (.node ⟨1, 4⟩) ∧
      ∃ fault, (Call.bind "lambda" ⟨1, 6⟩).run ((empty none).afterCalls mixedCalls) =
        .error fault ((empty none).afterCalls mixedCalls) := by
  obtain ⟨-, -, -, -, -, -, hclosed, hrebind⟩ := stays_two_way none mixedCalls
  have hrun : (Call.rebind "quote" ⟨1, 2⟩).run ((empty none).afterCalls mixedCalls) = .ok (.node ⟨1, 1⟩)
      (((empty none).afterCalls mixedCalls).rebound (.form .quote) ⟨1, 2⟩) := rfl
  obtain ⟨-, -, hfreed, hothers, -⟩ := hrebind "quote" ⟨1, 2⟩ _ _ hrun
  refine ⟨_, hrun, hfreed ⟨1, 1⟩ rfl (by decide), (hothers "if" (by decide)).trans rfl, hclosed ?_ "lambda" ⟨1, 6⟩⟩
  simp [mixedCalls]

end Context

end GraphLisp
