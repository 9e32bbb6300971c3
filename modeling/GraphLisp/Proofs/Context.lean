import GraphLisp.Proofs.Outcome
import GraphLisp.Session
/-!
# Roles and the nodes that play them

A context that was bootstrapped binds every role to a node, and that node has no other role
(`Context.Bootstrapped.plays`). Binding a role anew, to another node, leaves that so.
-/

namespace GraphLisp

theorem Structure.same_node (s : Structure) (n : Node) : s.same (.node n) = true ↔ s = .node n := by
  cases s <;> simp [same]

theorem Structure.same_int (s : Structure) (n : Int) : s.same (.int n) = true ↔ s = .int n := by
  cases s <;> simp [same]

theorem Structure.alike_node (s : Structure) (n : Node) : s.alike (.node n) = true ↔ s = .node n := by
  cases s <;> simp [alike, same]

/-- A role has a name of its own. -/
theorem Role.ofWord?_word (r : Role) : ofWord? r.word = some r := by
  cases r with
  | form f => cases f <;> decide
  | builtin b => cases b <;> decide
  | placeholder => decide

theorem Role.mem_all (r : Role) : r ∈ all := List.mem_of_find?_eq_some (ofWord?_word r)

namespace Context

variable {c c' : Context} {r : Role} {n m : Node}

theorem roleNamed_ends (word : String) (c : Context) :
    Ends (roleNamed word) c (fun r c' => c' = c ∧ Role.ofWord? word = some r) fun _ _ => True := by
  unfold roleNamed
  split
  · next heq => exact ⟨rfl, heq⟩
  · trivial

theorem roleNow_ends (p : Structure) (c : Context) :
    Ends (roleNow p) c (fun played c' => c' = c ∧ played = c.played? p) fun _ _ => True := by
  unfold roleNow playedBy
  simp only [ends_bind, ends_get]
  split
  · next heq =>
    split at heq
    · cases heq
    · cases heq
      exact ⟨rfl, rfl⟩
  · trivial

/-- Binding a role that is not bound puts its player in both tables, if it plays no role. -/
theorem bind_ends (word : String) (p : Structure) (c : Context) :
    Ends (bind word p) c (fun _ c' => ∃ r, Role.ofWord? word = some r ∧ c.player? r = none ∧ c.played? p = none ∧
        c' = { c with bindings := c.bindings ++ [(r, p)], roles := (p, r) :: c.roles })
      fun _ _ => True := by
  refine (roleNamed_ends word c).test (fun r hr => ?_) fun _ _ h => h
  simp only [ends_bind, ends_get]
  split
  · trivial
  split
  · trivial
  next hfree =>
  refine (roleNow_ends p c).test (fun played hplayed => ?_) fun _ _ h => h
  cases played with
  | some r' => trivial
  | none => exact ⟨r, hr, Option.not_isSome_iff_eq_none.1 hfree, hplayed.symm, rfl⟩

/-! ## Binding roles to nodes -/

/-- Every role that is bound is bound to a node that plays it. -/
def Matched (c : Context) : Prop :=
  ∀ r p, c.player? r = some p → ∃ n, p = .node n ∧ c.roleOf (.node n) = some r

theorem matched_empty (env : Option Int) : (empty env).Matched := nofun

/-- The player of a role among the players that were bound before and one that is bound after them. -/
theorem player?_append {p : Structure} (h : c'.bindings = c.bindings ++ [(r, p)]) (r' : Role) :
    c'.player? r' = (c.player? r').or (if r' = r then some p else none) := by
  unfold player?
  rw [h, List.lookup_append, List.lookup_cons]
  congr 1
  by_cases h : r' = r
  · rw [if_pos h, beq_iff_eq.2 h]
  · rw [if_neg h, beq_eq_false_iff_ne.2 h]
    rfl

/-- The role of a node among the players that had one before and one that gets one. -/
theorem roleOf_cons (h : c'.roles = (.node n, r) :: c.roles) (m : Node) :
    c'.roleOf (.node m) = if n = m then some r else c.roleOf (.node m) := by
  simp only [roleOf, played?, h, List.find?_cons]
  by_cases h : n = m
  · rw [if_pos h, (Structure.alike_node _ m).2 (congrArg _ h)]
    rfl
  · have hdiffer : (Structure.node n).alike (.node m) = false :=
      Bool.eq_false_iff.2 fun ht => h (Structure.node.inj ((Structure.alike_node _ m).1 ht))
    rw [if_neg h, hdiffer]

/-- A role bound to a node that plays none does not upset the others. -/
theorem matched_append (hc : c.Matched) (hn : c.roleOf (.node n) = none)
    (hbindings : c'.bindings = c.bindings ++ [(r, .node n)]) (hroles : c'.roles = (.node n, r) :: c.roles) :
    c'.Matched := by
  have hplayer := player?_append hbindings
  have hrole := roleOf_cons hroles
  intro r' p hp
  rw [hplayer] at hp
  cases hold : c.player? r' with
  | some p' =>
    obtain ⟨m, rfl, hm⟩ := hc r' p' hold
    rw [hold] at hp
    cases hp
    have hne : n ≠ m := by
      rintro rfl
      cases hm.symm.trans hn
    exact ⟨m, rfl, by rw [hrole, if_neg hne, hm]⟩
  | none =>
    rw [hold, Option.none_or] at hp
    by_cases heq : r' = r
    · rw [if_pos heq] at hp
      cases hp
      exact ⟨n, rfl, by rw [hrole, if_pos rfl, heq]⟩
    · rw [if_neg heq] at hp
      cases hp

/-- Binding a role to a node keeps a context matched, and the roles that were bound stay bound. -/
theorem bind_matched (word : String) (n : Node) (hc : c.Matched) :
    Ends (bind word (.node n)) c (fun _ c' => c'.Matched ∧ ∃ r, Role.ofWord? word = some r ∧
      (c'.player? r).isSome ∧ ∀ r', (c.player? r').isSome → (c'.player? r').isSome) fun _ _ => True := by
  refine (bind_ends word (.node n) c).mono ?_ fun _ _ h => h
  rintro _ c' ⟨r, hr, hfree, hnone, hc'⟩
  have hplayer := player?_append (congrArg bindings hc')
  refine ⟨matched_append hc hnone (congrArg bindings hc') (congrArg roles hc'), r, hr, ?_, fun r' h => ?_⟩
  · rw [hplayer, if_pos rfl, hfree]
    rfl
  · rw [hplayer, Option.isSome_or, h, Bool.true_or]

/-- Binding roles in turn binds them all. -/
theorem bindAll_matched (id : Int) (rs : List Role) (u : Universe) (c : Context) (hc : c.Matched) :
    Ends (bindAll id rs c) u (fun c' _ => c'.Matched ∧ (∀ r ∈ rs, (c'.player? r).isSome) ∧
      ∀ r, (c.player? r).isSome → (c'.player? r).isSome) fun _ _ => True := by
  induction rs generalizing u c with
  | nil => exact ⟨hc, nofun, fun _ h => h⟩
  | cons r rest ih =>
    unfold bindAll
    refine (Ends.always (fun _ _ => trivial) fun _ _ => trivial : Ends (roleNode id r) u (fun _ _ => True)
      fun _ _ => True).bind (fun n u _ => ?_) fun _ _ h => h
    split
    · next c₁ hbind =>
      obtain ⟨hc₁, r₁, hr₁, hbound, hkeeps⟩ := (bind_matched r.word n hc).of_ok hbind
      obtain rfl : r = r₁ := Option.some.inj ((Role.ofWord?_word r).symm.trans hr₁)
      refine (ih u c₁ hc₁).mono ?_ fun _ _ h => h
      rintro c' _ ⟨hc', hrest, hkeeps'⟩
      refine ⟨hc', fun r' hr' => ?_, fun r' h => hkeeps' r' (hkeeps r' h)⟩
      rcases List.mem_cons.1 hr' with rfl | hr'
      · exact hkeeps' _ hbound
      · exact hrest r' hr'
    · trivial

theorem bootstrap_matched (name : Option String) (u : Universe) :
    Ends (bootstrap name) u (fun c _ => c.Matched ∧ ∀ r, (c.player? r).isSome) fun _ _ => True := by
  unfold bootstrap
  refine (Ends.always (fun _ _ => trivial) fun _ _ => trivial : Ends (Universe.demandEnvironment name) u
    (fun _ _ => True) fun _ _ => True).bind (fun id u _ => ?_) fun _ _ h => h
  refine (bindAll_matched id Role.all u (empty (some id)) (matched_empty _)).bind ?_ fun _ _ h => h
  rintro c _ ⟨hc, hall, -⟩
  exact ⟨hc, fun r => hall r (Role.mem_all r)⟩

/-! ## Binding anew -/

theorem lookup_replace (r r' : Role) (p : Structure) (bindings : List (Role × Structure)) :
    (replace r p bindings).lookup r' = if r' = r then some p else bindings.lookup r' := by
  induction bindings with
  | nil =>
    unfold replace
    rw [List.lookup_cons]
    by_cases h : r' = r
    · rw [if_pos h, beq_iff_eq.2 h]
    · rw [if_neg h, beq_eq_false_iff_ne.2 h]
  | cons e rest ih =>
    obtain ⟨r₀, p₀⟩ := e
    unfold replace
    by_cases h : r₀ = r
    · subst h
      rw [if_pos rfl, List.lookup_cons, List.lookup_cons]
      by_cases h : r' = r₀
      · rw [if_pos h, beq_iff_eq.2 h]
      · rw [if_neg h, beq_eq_false_iff_ne.2 h]
    · rw [if_neg h, List.lookup_cons, List.lookup_cons, ih]
      by_cases h' : r' = r₀
      · have hne : r' ≠ r := fun heq => h (h'.symm.trans heq)
        rw [beq_iff_eq.2 h', if_neg hne, if_neg hne]
      · rw [beq_eq_false_iff_ne.2 h']

/-- Taking a role from a node leaves other nodes theirs. -/
theorem roleOf_without {m : Node} (hne : n ≠ m) (h : c'.roles = without (.node n) c.roles) :
    c'.roleOf (.node m) = c.roleOf (.node m) := by
  simp only [roleOf, played?, h, without, List.find?_filter]
  congr 2
  funext e
  by_cases h : e.1.alike (.node m) = true
  · have hother : e.1.alike (.node n) = false := by
      refine Bool.eq_false_iff.2 fun hn => hne ?_
      exact Structure.node.inj (((Structure.alike_node _ n).1 hn).symm.trans ((Structure.alike_node _ m).1 h))
    simp only [h, hother, Bool.not_false, and_self, decide_true]
  · simp only [h, and_false, decide_false, Bool.false_eq_true]

/-- What is bound to a role of a matched context is what its word stands for. -/
theorem Matched.find?_eq (hc : c.Matched) (r : Role) : c.find? r = c.player? r := by
  unfold find?
  cases hp : c.player? r with
  | none => rfl
  | some p =>
    obtain ⟨k, rfl, -⟩ := hc r p hp
    rfl

/-- The context with a role taken from its player, to which it is still bound. -/
def freed (c : Context) (r : Role) : Context :=
  { c with roles := ((c.find? r).map fun s => without s c.roles).getD c.roles }

/-- Taking a role from its player leaves other nodes theirs. -/
theorem Matched.roleOf_freed (hc : c.Matched) (hp : c.player? r ≠ some (.node m)) :
    (c.freed r).roleOf (.node m) = c.roleOf (.node m) := by
  unfold freed
  rw [hc.find?_eq]
  cases h : c.player? r with
  | none => rfl
  | some p =>
    obtain ⟨k, rfl, -⟩ := hc r p h
    refine roleOf_without (c := c) (n := k) ?_ rfl
    rintro rfl
    exact hp h

theorem matched_replace (hc : c.Matched) (hn : ∀ r', c.roleOf (.node n) = some r' → r' = r)
    (hbindings : c'.bindings = replace r (.node n) c.bindings)
    (hroles : c'.roles = (.node n, r) :: without (.node n) (c.freed r).roles) : c'.Matched := by
  let c₁ : Context := { c with roles := without (.node n) (c.freed r).roles }
  intro r' p hp
  rw [player?, hbindings, lookup_replace] at hp
  by_cases heq : r' = r
  · rw [if_pos heq] at hp
    cases hp
    exact ⟨n, rfl, (roleOf_cons (c := c₁) hroles n).trans (by rw [if_pos rfl, heq])⟩
  · rw [if_neg heq] at hp
    obtain ⟨m, rfl, hm⟩ := hc r' p hp
    have hnm : n ≠ m := by
      rintro rfl
      exact heq (hn r' hm)
    have hprevious : c.player? r ≠ some (.node m) := by
      intro hr
      obtain ⟨k, hk, hrole⟩ := hc r _ hr
      cases hk
      exact heq (Option.some.inj (hm.symm.trans hrole))
    refine ⟨m, rfl, (roleOf_cons (c := c₁) hroles m).trans ?_⟩
    rw [if_neg hnm, roleOf_without (c := c.freed r) hnm rfl, hc.roleOf_freed hprevious, hm]

/-- Binding a role anew, to a node, keeps a context matched, and the roles that were bound stay bound. -/
theorem rebind_matched (word : String) (n : Node) (hc : c.Matched) :
    Ends (rebind word (.node n)) c (fun _ c' => c'.Matched ∧ ∀ r, (c.player? r).isSome → (c'.player? r).isSome)
      fun _ _ => True := by
  have hkeeps : ∀ r r', (c.player? r').isSome → ((replace r (.node n) c.bindings).lookup r').isSome := by
    intro r r' h
    rw [lookup_replace]
    split
    · rfl
    · exact h
  unfold rebind
  refine (roleNamed_ends word c).test (fun r _ => ?_) fun _ _ h => h
  rw [ends_bind, ends_get]
  refine (roleNow_ends (.node n) c).test (fun played hplayed => ?_) fun _ _ h => h
  cases played with
  | none =>
    exact ⟨matched_replace hc (fun r' hr' => by cases hplayed.trans hr') rfl rfl, hkeeps r⟩
  | some r₀ =>
    dsimp only
    split
    · trivial
    next hr₀ =>
    refine ⟨matched_replace hc (fun r' hr' => ?_) rfl rfl, hkeeps r⟩
    cases hplayed.trans hr'
    exact Decidable.not_not.1 hr₀

/-! ## Bootstrapped -/

/-- A context for which every role was bound, and some perhaps anew since, to nodes. -/
inductive Bootstrapped : Context → Prop where
  | bootstrap {name : Option String} {u v : Universe} {c : Context} (h : bootstrap name u = .ok c v) : Bootstrapped c
  | rebind {c c' : Context} (hc : Bootstrapped c) {word : String} {n : Node} {previous : Structure}
      (h : rebind word (.node n) c = .ok previous c') : Bootstrapped c'

/-- Every role is played by a node. -/
theorem Bootstrapped.plays (hc : c.Bootstrapped) (r : Role) :
    ∃ n, c.player? r = some (.node n) ∧ c.roleOf (.node n) = some r := by
  have hmatched : c.Matched ∧ ∀ r, (c.player? r).isSome := by
    induction hc with
    | bootstrap h => exact (bootstrap_matched _ _).of_ok h
    | rebind hc h ih =>
      obtain ⟨hc', hkeeps⟩ := (rebind_matched _ _ ih.1).of_ok h
      exact ⟨hc', fun r => hkeeps r (ih.2 r)⟩
  obtain ⟨p, hp⟩ := Option.isSome_iff_exists.1 (hmatched.2 r)
  obtain ⟨n, rfl, hn⟩ := hmatched.1 r p hp
  exact ⟨n, hp, hn⟩

/-- A node that is bound to a role plays it. -/
theorem Bootstrapped.roleOf_player (hc : c.Bootstrapped) (h : c.player? r = some (.node n)) :
    c.roleOf (.node n) = some r := by
  obtain ⟨m, hm, hrole⟩ := hc.plays r
  cases h.symm.trans hm
  exact hrole

end Context

/-- Setting up a session bootstraps its context. -/
theorem Session.ofUniverse_bootstrapped {config : Config} {u : Universe} {s : Session}
    (h : ofUniverse config u = .ok s) : s.context.Bootstrapped := by
  unfold ofUniverse setUp at h
  cases hc : Context.bootstrap config.langName u with
  | error fault v =>
    rw [bind_of_error hc] at h
    cases h
  | ok c v =>
    rw [bind_of_ok hc] at h
    cases hhome : Universe.demandEnvironment config.homeName v with
    | error fault w =>
      rw [bind_of_error hhome] at h
      cases h
    | ok home w =>
      rw [bind_of_ok hhome] at h
      cases h
      exact .bootstrap hc

end GraphLisp
