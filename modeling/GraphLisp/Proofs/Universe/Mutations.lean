import GraphLisp.Proofs.Universe.Integrity
/-!
# Mutations taken back

Whatever mutations succeed, on any environments of a universe, rolling their journal back gives the
universe that there was (`Universe.mutations_taken_back`), with one exception: a journal has the name
of a node that was deleted, but not that of a triple, so that deleted triples come back without their
names. The proof follows the name of each handle back through the journal, along with whether an
entry that was undone already forgot it; such a handle is a triple, or was not given out yet.
-/

namespace GraphLisp

open Std

/-! ## Mutations -/

/-- A change of an environment that a step may make. -/
inductive Mutation where
  | createNode (name : Option String) (content : Option Structure)
  | setStructure (n : Node) (content : Option Structure)
  | importNode (original : Node)
  | insertTriple (subject predicate object : Node)
  | deleteNode (n : Node)
  | deleteTriple (n : Node)

/-- Makes a change, and returns what a step records of it. What was there already is not recorded. -/
def Mutation.record (around : Surroundings) : Mutation → Op (List Undo)
  | .createNode name content => do
    let n ← Locale.createNode around name content
    return [.created n]
  | .setStructure n content => do
    let previous ← Locale.setStructure around n content
    return [.restructured n previous]
  | .importNode original => do
    let (n, new) ← Locale.importNode around original
    return if new then [.created n] else []
  | .insertTriple s p o => do
    let (n, new) ← Locale.insertTriple s p o
    return if new then [.created n] else []
  | .deleteNode n => do
    let was ← Locale.deleteNode around n
    return [.deletedNode n was]
  | .deleteTriple n => do
    let (s, p, o) ← Locale.deleteTriple around n
    return [.deletedTriple n s p o]

/-- Makes changes in turn, each in an environment, and returns the journal with all that is recorded. -/
def Universe.mutate (J : Journal Int) : List (Int × Mutation) → Universe.Change (Journal Int)
  | [] => return J
  | (env, m) :: rest => do
    let us ← Universe.within env fun around => m.record around
    Universe.mutate (us.map (env, ·) ++ J) rest

/-- The change removed a triple, whose name is not recorded. -/
def Undo.forgets (n : Node) : Undo → Bool
  | .deletedTriple m _ _ _ => m = n
  | _ => false

/-- Some change removed the triple. -/
def Journal.forgets {κ : Type} (J : Journal κ) (n : Node) : Bool := J.any fun c => c.2.forgets n

/-- What is recorded of a mutation is what it has altered. -/
theorem Mutation.record_alters {around : Surroundings} {l : Locale} (hl : l.Coherent) (m : Mutation) :
    Ends (m.record around) l (fun us l' => l.Alterations around us l') (fun _ l' => l' = l) := by
  -- a stand-in or a triple that was there already is returned without an alteration
  have hif : ∀ {r : Node × Bool} {l' : Locale},
      (r.2 = true ∧ l.Alters around (.created r.1) l') ∨ (r.2 = false ∧ l' = l) →
        l.Alterations around (if r.2 then [.created r.1] else []) l' := by
    rintro ⟨n, new⟩ l' (⟨rfl, h⟩ | ⟨rfl, rfl⟩)
    · exact .more .none h
    · exact .none
  cases m with
  | createNode name content =>
    exact (Locale.createNode_alters hl around name content).bind (fun _ _ h => .more .none h) fun _ _ h => h
  | setStructure n content =>
    exact (Locale.setStructure_alters hl around n content).bind (fun _ _ h => .more .none h) fun _ _ h => h
  | importNode original =>
    exact (Locale.importNode_alters hl around original).bind (fun _ _ h => hif h) fun _ _ h => h
  | insertTriple s p o =>
    exact (Locale.insertTriple_alters hl around s p o).bind (fun _ _ h => hif h) fun _ _ h => h
  | deleteNode n =>
    exact (Locale.deleteNode_alters hl around n).bind (fun _ _ h => .more .none h) fun _ _ h => h
  | deleteTriple n =>
    exact (Locale.deleteTriple_alters hl around n).bind (fun _ _ h => .more .none h) fun _ _ h => h

/-- The journal of mutations has all that they have altered. -/
theorem Universe.mutate_alters {u₀ : Universe} (hu : u₀.Coherent) (ms : List (Int × Mutation)) :
    ∀ {J : Journal Int} {u : Universe}, u₀.Alterations J u →
      Ends (mutate J ms) u (fun K v => u₀.Alterations K v) (fun _ _ => True) := by
  induction ms with
  | nil => exact fun h => h
  | cons m ms ih =>
    intro J u h
    obtain ⟨env, m⟩ := m
    refine (within_alters (h.coherent hu) fun l hl => m.record_alters hl).bind ?_ fun _ _ _ => trivial
    exact fun us v hv => ih (h.append hv)

/-! ## Names -/

/-- The handle stands for a triple, or has not been given out yet. -/
def Environment.Forgettable (e : Environment) (h : Int) : Prop :=
  e.nodes.cells[h]? = some .triple ∨ e.nodes.next ≤ h

/-- The second environment has the name of the handle that the first one has, unless it is lost. The
name of a triple can be lost only. -/
structure Environment.Recalls (e e' : Environment) (h : Int) (lost : Bool) : Prop where
  kept : lost = false → e'.nodes.nameOf[h]? = e.nodes.nameOf[h]?
  missing : lost = true → e'.nodes.nameOf[h]? = none
  forgettable : lost = true → e.Forgettable h

theorem Environment.Recalls.nameOf {e e' : Environment} {h : Int} {lost : Bool} (hr : e.Recalls e' h lost) :
    e'.nodes.nameOf[h]? = if lost then none else e.nodes.nameOf[h]? := by
  cases lost with
  | false => exact hr.kept rfl
  | true => exact hr.missing rfl

theorem Environment.Recalls.same {e e' : Environment} {h : Int}
    (hname : e'.nodes.nameOf[h]? = e.nodes.nameOf[h]?) : e.Recalls e' h false :=
  ⟨fun _ => hname, fun h => absurd h Bool.false_ne_true, fun h => absurd h Bool.false_ne_true⟩

theorem Environment.Recalls.forgotten {e e' : Environment} {h : Int} (hname : e'.nodes.nameOf[h]? = none)
    (hh : e.Forgettable h) : e.Recalls e' h true :=
  ⟨fun h => absurd h.symm Bool.false_ne_true, fun _ => hname, fun _ => hh⟩

/-- Where neither a change nor what undoes it touches the name of a handle, nothing is lost. -/
theorem Environment.Recalls.around {e e₁ e₂ e₃ : Environment} {h : Int} {lost : Bool}
    (hr : e₁.Recalls e₂ h lost) (hchange : e₁.nodes.nameOf[h]? = e.nodes.nameOf[h]?)
    (hundo : e₃.nodes.nameOf[h]? = e₂.nodes.nameOf[h]?) (hp : e₁.Forgettable h → e.Forgettable h) :
    e.Recalls e₃ h lost where
  kept hlost := hundo.trans ((hr.kept hlost).trans hchange)
  missing hlost := hundo.trans (hr.missing hlost)
  forgettable hlost := hp (hr.forgettable hlost)

namespace Locale

variable {around : Surroundings} {l l₁ l₂ l₃ : Locale} {undo : Undo} {k : Int}

/-- A triple comes from a triple, or from a handle that was to come. -/
theorem Alters.forgettable (h : l.Alters around undo l₁) (hk : l₁.env.Forgettable k) : l.env.Forgettable k := by
  unfold Environment.Forgettable at hk ⊢
  cases h with
  | @made _ c name hc _ _ _ h =>
    have hcells : l₁.env.nodes.cells = l.env.nodes.cells.insert l.env.nodes.next c := by
      rw [h.cells]; cases name <;> rfl
    rw [hcells, h.next, getElem?_insert_iff] at hk
    rcases hk with (⟨rfl, -⟩ | ⟨-, hk⟩) | hk
    · exact .inr (Int.le_refl _)
    · exact .inl hk
    · exact .inr (Int.le_trans (Int.le_of_lt (Int.lt_succ _)) hk)
  | related _ _ _ _ h =>
    rw [h.cells, h.next] at hk
    rcases hk with hk | hk
    · rcases (getElem?_insert_iff _ _ _ _ _).1 hk with ⟨rfl, -⟩ | ⟨-, hk⟩
      · exact .inr (Int.le_refl _)
      · exact .inl hk
    · exact .inr (Int.le_trans (Int.le_of_lt (Int.lt_succ _)) hk)
  | replaced _ _ h =>
    rw [h.cells, h.next] at hk
    refine hk.imp_left fun hk => ?_
    rcases (getElem?_insert_iff _ _ _ _ _).1 hk with ⟨-, hk⟩ | ⟨-, hk⟩
    · cases hk
    · exact hk
  | removedNode _ _ _ _ h =>
    rw [h.cells, h.next] at hk
    exact hk.imp_left fun hk => ((getElem?_erase_iff _ _ _ _).1 hk).2
  | removedTriple _ _ _ h =>
    rw [h.cells, h.next] at hk
    exact hk.imp_left fun hk => ((getElem?_erase_iff _ _ _ _).1 hk).2

/-- An alteration forgets nodes of its environment only. -/
theorem Alters.env_of_forgets (h : l.Alters around undo l₁) {n : Node} (hf : undo.forgets n = true) :
    n.env = l.env.id := by
  cases h with
  | removedTriple _ _ _ _ =>
    rw [← of_decide_eq_true hf]
    rfl
  | _ => cases hf

/-- What undoes an alteration recalls all names that the locale had before, but for the name of a
triple that was removed. -/
theorem Alters.recalls (hl : l.Coherent) (h : l.Alters around undo l₁) (h₂ : l₁.Restored l₂) {lost : Bool}
    (hr : l₁.env.Recalls l₂.env k lost) (h₃ : l₃.env.contents = undo.back l₂.env.contents) :
    l.env.Recalls l₃.env k (undo.forgets (l.env.node k) || lost) := by
  have hback : l₁.env.Forgettable k → l.env.Forgettable k := h.forgettable
  have hname : l₃.env.nodes.nameOf = (undo.back l₂.env.contents).nameOf := congrArg Contents.nameOf h₃
  -- a handle that was given out has no name before and no name again
  have hfresh : (k ≠ l.env.nodes.next → l₁.env.nodes.nameOf[k]? = l.env.nodes.nameOf[k]?) →
      l₃.env.nodes.nameOf = l₂.env.nodes.nameOf.erase l.env.nodes.next → l.env.Recalls l₃.env k lost := by
    intro hchange hundo
    by_cases hk : k = l.env.nodes.next
    · have hgone : l₃.env.nodes.nameOf[k]? = none := by
        rw [hundo, hk]
        exact ExtTreeMap.getElem?_erase_self
      have hold : l.env.nodes.nameOf[k]? = none := by
        rw [hk]
        exact (hl.tabled.fresh hl.tabled.fresh_handle).name
      exact ⟨fun _ => hgone.trans hold.symm, fun _ => hgone, fun _ => .inr (Int.le_of_eq hk.symm)⟩
    · refine hr.around (hchange hk) ?_ hback
      rw [hundo]
      exact getElem?_erase_of_ne _ hk
  cases h with
  | @made _ c name _ _ _ _ h =>
    refine hfresh (fun hk => ?_) hname
    rw [h.nameOf, Contents.called_nameOf, if_neg hk]
    rfl
  | related _ _ _ _ h =>
    refine hfresh (fun _ => ?_) hname
    rw [h.nameOf]
    rfl
  | replaced _ _ h =>
    refine hr.around ?_ (by rw [hname]; rfl) hback
    rw [h.nameOf]
    rfl
  | @removedNode _ x was cell hc name _ h =>
    have hundo : l₃.env.nodes.nameOf[k]? =
        if k = x then was.name.or l₂.env.nodes.nameOf[x]? else l₂.env.nodes.nameOf[k]? := by
      rw [hname]
      exact Contents.called_nameOf _ _ _ _
    by_cases hk : k = x
    · -- the handle is not forgotten: it is no triple, and it is not to come
      have hnot : ¬l₁.env.Forgettable k := by
        rintro (hcell | hnext)
        · rw [h.cells, hk, Contents.without, ExtTreeMap.getElem?_erase_self] at hcell
          cases hcell
        · rw [h.next, hk] at hnext
          exact Int.not_le.2 (hl.tabled.bounds x (mem_of_getElem? cell)).2 hnext
      obtain rfl : lost = false := Bool.eq_false_iff.2 fun hlost => hnot (hr.forgettable hlost)
      have hgone : l₂.env.nodes.nameOf[x]? = none := by
        rw [← hk, hr.kept rfl, h.nameOf, hk]
        exact ExtTreeMap.getElem?_erase_self
      apply Environment.Recalls.same
      rw [hundo, if_pos hk, hgone, Option.or_none, name, hk]
    · refine hr.around ?_ (by rw [hundo, if_neg hk]) hback
      rw [h.nameOf]
      exact getElem?_erase_of_ne _ hk
  | @removedTriple _ x st cell _ _ h =>
    have hundo : l₃.env.nodes.nameOf = l₂.env.nodes.nameOf := hname
    by_cases hk : k = x
    · have hgone : l₃.env.nodes.nameOf[k]? = none := by
        rw [hundo, hk]
        refine Option.eq_none_iff_forall_ne_some.2 fun s hs => ?_
        have hs := h₂.contents.names x s hs
        rw [h.contents] at hs
        exact ((getElem?_erase_iff _ _ _ _).1 hs).1 rfl
      have hforgets : Undo.forgets (l.env.node k) (.deletedTriple (l.env.node x) (l.env.node st.subject)
          (l.env.node st.predicate) (l.env.node st.object)) = true := by
        rw [hk]
        exact decide_eq_true rfl
      rw [hforgets, Bool.true_or]
      exact .forgotten hgone (.inl (hk ▸ cell))
    · have hforgets : Undo.forgets (l.env.node k) (.deletedTriple (l.env.node x) (l.env.node st.subject)
          (l.env.node st.predicate) (l.env.node st.object)) = false :=
        decide_eq_false fun h => hk ((node_eq_iff l.env x k).1 h).symm
      rw [hforgets, Bool.false_or]
      refine hr.around ?_ (by rw [hundo]) hback
      rw [h.nameOf]
      exact getElem?_erase_of_ne _ hk

end Locale

/-! ## Universes -/

namespace Universe

variable {u u' v w : Universe}

/-- Every environment has the names that it has in the first universe, but for what is lost. -/
def Recalls (u v : Universe) (lost : Node → Bool) : Prop :=
  ∀ (id : Int) (e e' : Environment), u.members[id]? = some e → v.members[id]? = some e' →
    ∀ h, e.Recalls e' h (lost ⟨id, h⟩)

/-- An environment that is not the one of a change is not in the way. -/
theorem Alters.recalls (hu : u.Coherent) {c : Int × Undo} (h : u.Alters c u') (hv : u'.Restored v)
    {lost : Node → Bool} (hr : u'.Recalls v lost) (hw : v.Reverts c w) :
    u.Recalls w fun n => c.2.forgets n || lost n := by
  obtain ⟨id, undo⟩ := c
  obtain ⟨e₀, l₁, he₀, h, rfl⟩ := h
  obtain ⟨e₂, l₃, he₂, hback, -, rfl⟩ := hw
  have hput : (u.putBack id l₁).members[id]? = some l₁.env := ExtTreeMap.getElem?_insert_self
  intro i e e' he he' k
  by_cases hi : i = id
  · subst hi
    obtain rfl : e₀ = e := Option.some.inj (he₀.symm.trans he)
    have hl₃ : (v.putBack i l₃).members[i]? = some l₃.env := ExtTreeMap.getElem?_insert_self
    obtain rfl : l₃.env = e' := Option.some.inj (hl₃.symm.trans he')
    have hnode : e₀.node k = ⟨i, k⟩ := by rw [Environment.node, hu.ids i e₀ he]
    have hlocal := h.recalls (hu.locale he) (hv.each i _ _ hput he₂) (hr i _ _ hput he₂ k) hback
    rwa [hnode] at hlocal
  · -- the nodes of another environment are not forgotten
    have hforgets : undo.forgets ⟨i, k⟩ = false :=
      Bool.eq_false_iff.2 fun hf => hi ((h.env_of_forgets hf).trans (hu.ids id e₀ he₀))
    have heu : (u.putBack id l₁).members[i]? = some e := (getElem?_insert_of_ne _ _ hi).trans he
    have hev : v.members[i]? = some e' := (getElem?_insert_of_ne _ _ hi).symm.trans he'
    have hrec := hr i e e' heu hev k
    rwa [← Bool.false_or (lost ⟨i, k⟩), ← hforgets] at hrec

/-- Rolling a journal back restores the universe, and forgets the names of triples that it has
removed. -/
theorem Alterations.recalled (hu : u.CoherentClosed) {J : Journal Int} (h : u.Alterations J u') :
    ∀ {v : Universe} {lost : Node → Bool}, u'.Restored v → u'.Recalls v lost →
      ∃ w, J.rollback Evaluator.undo v = .ok () ([], w) ∧ u.Restored w ∧
        u.Recalls w fun n => J.forgets n || lost n := by
  induction h with
  | none =>
    intro v lost hv hr
    exact ⟨v, rfl, hv, hr⟩
  | @more J c u₁ u₂ h h' ih =>
    intro v lost hv hr
    have hu₁ := h.coherentClosed hu
    obtain ⟨_, w₁, hw₁, hres, hrev⟩ := (h'.undone hu₁ hv).exists_ok
    obtain ⟨w, hw, hres', hr'⟩ := ih hres (h'.recalls hu₁.coherent hv hr hrev)
    refine ⟨w, ?_, hres', ?_⟩
    · obtain ⟨id, undo⟩ := c
      simp only [Journal.rollback, hw₁]
      exact hw
    · have hforgets : (fun n => Journal.forgets (c :: J) n || lost n) =
          fun n => J.forgets n || (c.2.forgets n || lost n) := by
        funext n
        rw [Journal.forgets, List.any_cons, Bool.or_assoc, Bool.or_left_comm]
        rfl
      rw [hforgets]
      exact hr'

end Universe

/-! ## What comes back -/

/-- The second environment is the first one with its counter moved on, if anything, and without the
names of some handles. -/
structure Environment.ReturnsBut (e e' : Environment) (lost : Int → Bool) : Prop where
  /-- Nothing differs but names and the counter. -/
  same : e' = { e with nodes.names := e'.nodes.names, nodes.nameOf := e'.nodes.nameOf, nodes.next := e'.nodes.next }
  next : e.nodes.next ≤ e'.nodes.next
  nameOf : ∀ h : Int, e'.nodes.nameOf[h]? = if lost h then none else e.nodes.nameOf[h]?
  names : ∀ s : String, e'.nodes.names[s]? = e.nodes.names[s]?.filter fun h => !lost h

namespace Universe

/-- The second universe is the first one with counters moved on, if anything, and without the names
of some nodes. -/
structure ReturnsBut (u v : Universe) (lost : Node → Bool) : Prop where
  references : v.references = u.references
  heirs : v.heirs = u.heirs
  members : ∀ id, id ∈ v.members ↔ id ∈ u.members
  each : ∀ (id : Int) (e e' : Environment), u.members[id]? = some e → v.members[id]? = some e' →
    e.ReturnsBut e' fun h => lost ⟨id, h⟩

variable {u v : Universe}

theorem Restored.returnsBut (hu : u.Coherent) (h : u.Restored v) {lost : Node → Bool}
    (hr : u.Recalls v lost) : u.ReturnsBut v lost where
  references := by
    refine h.coherent.references_tight.ext hu.references_tight fun t n => ?_
    rw [h.coherent.references, hu.references, h.mentions_iff]
  heirs := h.coherent.heirs.trans hu.heirs.symm
  members := h.members
  each id e e' he he' := by
    have hres := h.each id e e' he he'
    have hl := hu.locale he
    have hl' := hres.coherent
    have hnameOf := fun k => (hr id e e' he he' k).nameOf
    refine ⟨?_, hres.next, hnameOf, fun s => Option.ext fun k => ?_⟩
    · refine Locale.eq_but_names hl.tabled hl'.tabled hres.id hres.pins hres.cells hres.statements
        hl.filed.referrers_tight hl'.filed.referrers_tight fun k x => ?_
      have hcells : e'.nodes.cells = e.nodes.cells := hres.cells
      have hid : e'.id = e.id := hres.id
      have hwithin := hl'.filed.within k x
      have hwithin₀ := hl.filed.within k x
      simp only [Environment.Mentions, hid, hcells] at hwithin hwithin₀
      exact hwithin.trans hwithin₀.symm
    · rw [hl'.tabled.named.inverse, hnameOf, Option.filter_eq_some_iff, hl.tabled.named.inverse]
      by_cases hlost : lost ⟨id, k⟩ = true
      · simp [hlost]
      · simp [hlost]

/-- Mutations that succeed, in any universe that came about from the empty one by any actions: rolling
back what was recorded of them raises nothing, uses the journal up, and gives the universe that there
was; only counters may have moved on, and the triples that were deleted have lost their names. -/
theorem mutations_taken_back (actions : List Action) (ms : List (Int × Mutation)) {J : Journal Int}
    (h : mutate [] ms (empty.evolved actions) = .ok J v) :
    ∃ w, J.rollback Evaluator.undo v = .ok () ([], w) ∧ (empty.evolved actions).ReturnsBut w J.forgets := by
  have hu : (empty.evolved actions).CoherentClosed :=
    (CoherentClosedWith.evolved ⟨empty_coherentClosed, empty_writable⟩ actions).toCoherentClosed
  have halt : (empty.evolved actions).Alterations J v := (mutate_alters hu.coherent ms .none).of_ok h
  have hv : v.Restored v := (halt.coherent hu.coherent).restored
  have hsame : v.Recalls v fun _ => false := by
    intro id e e' he he' k
    cases he.symm.trans he'
    exact .same rfl
  obtain ⟨w, hw, hres, hr⟩ := halt.recalled hu hv hsame
  refine ⟨w, hw, hres.returnsBut hu.coherent ?_⟩
  simpa only [Bool.or_false] using hr

/-- An environment with two nodes and a triple that has a name. -/
def labelling : List Action := [.createEnvironment (some "a"), .operate 1 (.createNode (some "x") none),
  .operate 1 (.createNode none none), .operate 1 (.insertTriple (.node ⟨1, 1⟩) (.node ⟨1, 1⟩) (.node ⟨1, 2⟩)),
  .operate 1 (.rename (.node ⟨1, 3⟩) (some "fact"))]

/-- One mutation of each kind, where the name of the triple goes to another node. -/
def relabelling : List (Int × Mutation) := [(1, .deleteTriple ⟨1, 3⟩), (1, .createNode (some "fact") none),
  (1, .setStructure ⟨1, 2⟩ (some (.node ⟨1, 4⟩))), (0, .importNode ⟨1, 1⟩),
  (1, .insertTriple ⟨1, 4⟩ ⟨1, 4⟩ ⟨1, 4⟩), (0, .deleteNode ⟨0, 2⟩), (1, .deleteNode ⟨1, 1⟩)]

theorem relabelling_taken_back : ∃ J v w, mutate [] relabelling (empty.evolved labelling) = .ok J v ∧
    J.length = 7 ∧ J.rollback Evaluator.undo v = .ok () ([], w) ∧
      (empty.evolved labelling).ReturnsBut w J.forgets := by
  have hrun : (match mutate [] relabelling (empty.evolved labelling) with
      | .ok J _ => J.length
      | .error .. => 0) = 7 := by decide +kernel
  cases h : mutate [] relabelling (empty.evolved labelling) with
  | error fault v =>
    rw [h] at hrun
    cases hrun
  | ok J v =>
    rw [h] at hrun
    obtain ⟨w, hw, hreturns⟩ := mutations_taken_back labelling relabelling h
    exact ⟨J, v, w, rfl, hrun, hw, hreturns⟩

/-- The triple comes back, and its name does not. -/
theorem label_forgotten : (empty.evolved labelling).names ⟨1, 3⟩ = some "fact" ∧
    (match mutate [] [(1, .deleteTriple ⟨1, 3⟩)] (empty.evolved labelling) with
      | .error .. => none
      | .ok J v =>
        match J.rollback Evaluator.undo v with
        | .error .. => none
        | .ok _ (_, w) => some (w.resolves ⟨1, 3⟩, w.names ⟨1, 3⟩)) = some (true, none) := by
  decide +kernel

end Universe

end GraphLisp
