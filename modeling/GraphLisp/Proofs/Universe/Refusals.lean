import GraphLisp.Proofs.Universe.Counters
/-!
# Refusals

An operation that fails has changed nothing. Each one makes all its tests before its first change, and what it
then still looks up is bound to be there, so that this can be read off the operations in whatever state they find
(`Operation.perform_careful`). In a state that arises nothing is ever missing (`Operation.perform_unmoved`). A new
environment takes two operations, the second of which cannot fail (`Universe.createEnvironment_unmoved`). Making
a region is not one operation but many, and is left out here.
-/

namespace GraphLisp

open Std

/-- Running `m` from `s` changes nothing if it fails. -/
def Unmoved {ε σ α : Type} (m : EStateM ε σ α) (s : σ) : Prop := ∀ f t, m s = .error f t → t = s

theorem Ends.unmoved {ε σ α : Type} {m : EStateM ε σ α} {s : σ} {Q : α → σ → Prop}
    (h : Ends m s Q fun _ t => t = s) : Unmoved m s := fun _ _ hm => h.of_error hm

theorem Unmoved.ends {ε σ α : Type} {m : EStateM ε σ α} {s : σ} (h : Unmoved m s) :
    Ends m s (fun _ _ => True) fun _ t => t = s := by
  unfold Ends
  cases hm : m s with
  | ok a t => trivial
  | error f t => exact h f t hm

/-- An operation that is done in one go. -/
def Operation.isBasic : Operation → Bool
  | .rebuild _ | .raise _ => false
  | _ => true

namespace Locale

variable {α β : Type} {around : Surroundings} {l : Locale}

/-! ## Tests before changes -/

/-- A computation that changes nothing. -/
def Looks (m : Op α) : Prop := ∀ l, Ends m l (fun _ l' => l' = l) fun _ l' => l' = l

/-- A computation that fails only if an entry is missing. -/
def Concludes (m : Op α) : Prop := ∀ l, Ends m l (fun _ _ => True) fun f _ => f = .missingKey

/-- A computation that fails has changed nothing, unless an entry was missing. -/
def Careful (m : Op α) : Prop := ∀ l, Ends m l (fun _ _ => True) fun f l' => l' = l ∨ f = .missingKey

theorem Looks.careful {m : Op α} (h : Looks m) : Careful m := fun l =>
  (h l).mono (fun _ _ _ => trivial) fun _ _ h => .inl h

theorem Concludes.careful {m : Op α} (h : Concludes m) : Careful m := fun l =>
  (h l).mono (fun _ _ h => h) fun _ _ h => .inr h

theorem concludes_pure (a : α) : Concludes (pure a) := fun _ => trivial

theorem concludes_modify (f : Locale → Locale) : Concludes (modify f) := fun _ => trivial

theorem careful_throw (f : Fault) : Careful (throw f : Op α) := fun _ => .inl rfl

theorem looks_get : Looks get := fun _ => rfl

/-- Whatever has only been looked at may be followed by more tests. -/
theorem Looks.bind {m : Op α} {f : α → Op β} (h : Looks m) (hf : ∀ a, Careful (f a)) : Careful (m >>= f) := fun l =>
  (h l).bind (fun a _ hl => hl ▸ hf a l) fun _ _ h => .inl h

/-- After the last test nothing fails any more. -/
theorem Careful.bind {m : Op α} {f : α → Op β} (h : Careful m) (hf : ∀ a, Concludes (f a)) : Careful (m >>= f) :=
  fun l => (h l).bind (fun a l' _ => (hf a l').mono (fun _ _ h => h) fun _ _ h => .inr h) fun _ _ h => h

theorem Concludes.bind {m : Op α} {f : α → Op β} (h : Concludes m) (hf : ∀ a, Concludes (f a)) :
    Concludes (m >>= f) := fun l => (h l).bind (fun a l' _ => hf a l') fun _ _ h => h

theorem looks_query (f : Environment → Except Fault α) : Looks (query f) := by
  intro l
  unfold query
  simp only [ends_bind, ends_get]
  cases f l.env <;> rfl

theorem looks_checkForeign (content : Option Structure) : Looks (checkForeign around content) := fun l =>
  (checkForeign_ends l around content).mono (fun _ _ h => h.1) fun _ _ h => h.1

theorem looks_checkLocal (content : Option Structure) : Looks (checkLocal content) := fun l =>
  (checkLocal_ends l .alone content).mono (fun _ _ h => h.1) fun _ _ h => h.1

theorem looks_checkUnused (n : Node) : Looks (checkUnused around n) := by
  intro l
  unfold checkUnused
  simp only [ends_bind, ends_get]
  repeat' split
  all_goals rfl

theorem careful_onNodes (f : NodeTable → Except Fault (α × NodeTable)) : Careful (onNodes f) := by
  intro l
  unfold onNodes
  simp only [ends_bind, ends_get]
  cases f l.env.nodes with
  | ok r => trivial
  | error fault => exact .inl rfl

/-! ## What is bound to be there -/

theorem unbindName_error {t : NodeTable} {h : Int} {f : Fault} (hf : t.unbindName h = .error f) : f = .missingKey := by
  unfold NodeTable.unbindName at hf
  split at hf
  · cases hf
  · split at hf
    · cases hf
    · cases hf
      rfl

theorem unbindImport_error {t : NodeTable} {c : Cell} {f : Fault} (hf : t.unbindImport c = .error f) :
    f = .missingKey := by
  unfold NodeTable.unbindImport at hf
  split at hf
  · split at hf
    · cases hf
    · cases hf
      rfl
  · cases hf

theorem discardHandle_error {h : Int} {f : Fault} (hf : l.discardHandle h = .error f) : f = .missingKey := by
  unfold discardHandle at hf
  simp only [bind, Except.bind] at hf
  split at hf
  · next fault hcell =>
    cases hf
    unfold Environment.cell at hcell
    split at hcell
    · cases hcell
    · cases hcell
      rfl
  split at hf
  · next fault himport =>
    cases hf
    exact unbindImport_error himport
  split at hf
  · next fault hname =>
    cases hf
    exact unbindName_error hname
  · cases hf

theorem concludes_drop (h : Int) : Concludes (drop h) := by
  intro l
  unfold drop
  simp only [ends_bind, ends_get]
  cases hl : l.discardHandle h with
  | ok l' => trivial
  | error f => exact discardHandle_error hl

theorem concludes_remove (h : Int) : Concludes (onTriples (TripleStore.remove h)) := by
  have hunfile : ∀ (m : Index Int Int) (key : Int) (t : TripleStore),
      Ends (TripleStore.unfile m key h) t (fun _ _ => True) fun f _ => f = .missingKey := by
    intro m key t
    unfold TripleStore.unfile
    split
    · rfl
    · trivial
  have hremove : ∀ t : TripleStore, Ends (TripleStore.remove h) t (fun _ _ => True) fun f _ => f = .missingKey := by
    intro t
    unfold TripleStore.remove
    simp only [ends_bind, ends_get]
    split
    · simp only [ends_bind, ends_modify, ends_get]
      split
      · rfl
      · simp only [ends_bind, ends_modify, ends_get]
        refine (hunfile _ _ _).mono (fun _ _ _ => ?_) fun _ _ h => h
        refine (hunfile _ _ _).mono (fun _ _ _ => ?_) fun _ _ h => h
        exact (hunfile _ _ _).mono (fun _ _ _ => trivial) fun _ _ h => h
    · rfl
  intro l
  have hends := hremove l.env.triples
  unfold Ends onTriples at *
  cases ht : TripleStore.remove h l.env.triples <;> rw [ht] at hends <;> exact hends

/-! ## Operations -/

theorem names_of_allocate {t t' : NodeTable} {h : Int} (ht : t.allocate = .ok (h, t')) : t'.names = t.names := by
  unfold NodeTable.allocate at ht
  split at ht
  · cases ht
  · cases ht
    rfl

/-- A name that is free can be given, as far as no entry is missing. -/
theorem concludes_name {h : Int} {s : String} (hs : l.env.nodes.names[s]? = none) :
    Ends (Locale.name h s) l (fun _ _ => True) fun f _ => f = .missingKey := by
  unfold Locale.name onNodes
  simp only [ends_bind, ends_get]
  have hbind : ∀ {f : Fault}, l.env.nodes.bindName h s = .error f → f = .missingKey := by
    intro f hf
    simp only [NodeTable.bindName, hs, NodeTable.bindName.rebind, bind, Except.bind] at hf
    split at hf
    · next hname =>
      cases hf
      exact unbindName_error hname
    · cases hf
  cases hb : l.env.nodes.bindName h s with
  | ok t => trivial
  | error f => exact hbind hb

theorem createNode_careful (name : Option String) (content : Option Structure) :
    Careful (createNode around name content) := by
  refine (looks_checkForeign content).bind fun _ => ?_
  intro l
  simp only [ends_bind, ends_get]
  split
  · exact .inl rfl
  next hfree =>
  have hfree : ∀ s, name = some s → l.env.nodes.names[s]? = none := by
    rintro s rfl
    refine Option.eq_none_iff_forall_ne_some.2 fun k hk => hfree s ?_
    simp only [Option.filter, mem_of_getElem? hk, decide_true, ↓reduceIte]
  refine (looks_checkLocal content l).bind ?_ fun _ _ h => .inl h
  rintro - l rfl
  unfold allocate onNodes
  simp only [ends_bind, ends_get]
  cases ht : l.env.nodes.allocate with
  | error f => exact .inl rfl
  | ok r =>
    obtain ⟨h, t⟩ := r
    -- giving out a handle has changed no name
    have hnames := names_of_allocate ht
    cases name with
    | none => trivial
    | some s =>
      simp only [ends_bind, ends_modify, ends_pure]
      refine (concludes_name ?_).mono (fun _ _ _ => trivial) fun _ _ h => .inr h
      rw [hnames]
      exact hfree s rfl

theorem setStructure_careful (s : Structure) (content : Option Structure) :
    Careful (setStructure around s content) := by
  refine (looks_checkForeign content).bind fun _ => ?_
  refine (looks_query _).bind fun n => ?_
  refine (looks_query _).bind fun c => ?_
  cases c with
  | triple => exact careful_throw _
  | proxy t => exact careful_throw _
  | plain previous =>
    refine (looks_checkLocal content).bind fun _ => Concludes.careful ?_
    exact (concludes_modify _).bind fun _ => concludes_pure previous

theorem rename_careful (s : Structure) (name : Option String) : Careful (rename s name) := by
  refine (looks_query _).bind fun n => looks_get.bind fun l => ?_
  cases name <;> exact (careful_onNodes _).bind fun _ => concludes_pure _

theorem deleteNode_careful (s : Structure) : Careful (deleteNode around s) := by
  refine (looks_query _).bind fun n => (looks_query _).bind fun c => ?_
  split
  · exact careful_throw _
  · refine (looks_checkUnused n).bind fun _ => looks_get.bind fun l => Concludes.careful ?_
    exact (concludes_drop n.id).bind fun _ => concludes_pure _

theorem importNode_careful (s : Structure) : Careful (importNode around s) := by
  unfold importNode
  cases s with
  | node t =>
    refine looks_get.bind fun l => ?_
    dsimp only
    split
    · exact careful_throw _
    refine (looks_checkForeign _).bind fun _ => ?_
    split
    · exact (concludes_pure _).careful
    · refine (careful_onNodes _).bind fun h => ?_
      exact (concludes_modify _).bind fun _ => (concludes_modify _).bind fun _ => concludes_pure _
  | _ => exact careful_throw _

theorem insertTriple_careful (s p o : Structure) : Careful (insertTriple s p o) := by
  refine (looks_query _).bind fun a => (looks_query _).bind fun b => (looks_query _).bind fun c => ?_
  refine looks_get.bind fun l => ?_
  dsimp only
  split
  · exact (concludes_pure _).careful
  · exact (careful_onNodes _).bind fun h => (concludes_modify _).bind fun _ => concludes_pure _

theorem deleteTriple_careful (s : Structure) : Careful (deleteTriple around s) := by
  refine (looks_query _).bind fun n => (looks_query _).bind fun c => ?_
  cases c with
  | plain _ => exact careful_throw _
  | proxy _ => exact careful_throw _
  | triple =>
    refine (looks_checkUnused n).bind fun _ => Concludes.careful ?_
    refine (concludes_remove n.id).bind fun st => (concludes_drop n.id).bind fun _ => ?_
    exact fun l => trivial

end Locale

namespace Operation

variable {around : Surroundings} {l : Locale}

/-- In any state whatever an operation makes its tests first. -/
theorem perform_careful {op : Operation} (hop : op.isBasic = true) : Locale.Careful (op.perform around) := by
  cases op with
  | createNode name content => exact (Locale.createNode_careful name content).bind fun _ => Locale.concludes_pure _
  | setStructure node content => exact (Locale.setStructure_careful node content).bind fun _ => Locale.concludes_pure _
  | rename node name => exact (Locale.rename_careful node name).bind fun _ => Locale.concludes_pure _
  | deleteNode node => exact (Locale.deleteNode_careful node).bind fun _ => Locale.concludes_pure _
  | importNode original => exact (Locale.importNode_careful original).bind fun _ => Locale.concludes_pure _
  | insertTriple s p o => exact (Locale.insertTriple_careful s p o).bind fun _ => Locale.concludes_pure _
  | deleteTriple node => exact (Locale.deleteTriple_careful node).bind fun _ => Locale.concludes_pure _
  | rebuild region => cases hop
  | raise region => cases hop

/-- In a coherent state nothing is missing. -/
theorem perform_unmoved (hl : l.Coherent) (around : Surroundings) {op : Operation} (hop : op.isBasic = true) :
    Unmoved (op.perform around) l := by
  refine Ends.unmoved (Q := fun _ _ => True) ?_
  cases op with
  | createNode name content =>
    exact (Locale.createNode_ends hl around name content).bind (fun _ _ _ => trivial) fun _ _ h => h.1
  | setStructure node content =>
    exact (Locale.setStructure_ends hl around node content).bind (fun _ _ _ => trivial) fun _ _ h => h.1
  | rename node name => exact (Locale.rename_ends hl node name).bind (fun _ _ _ => trivial) fun _ _ h => h
  | deleteNode node => exact (Locale.deleteNode_ends hl around node).bind (fun _ _ _ => trivial) fun _ _ h => h
  | importNode original => exact (Locale.importNode_ends hl around original).bind (fun _ _ _ => trivial) fun _ _ h => h
  | insertTriple s p o => exact (Locale.insertTriple_ends hl s p o).bind (fun _ _ _ => trivial) fun _ _ h => h.1
  | deleteTriple node => exact (Locale.deleteTriple_ends hl around node).bind (fun _ _ _ => trivial) fun _ _ h => h
  | rebuild region => cases hop
  | raise region => cases hop

end Operation

namespace Universe

variable {u : Universe}

theorem within_unmoved (hu : u.Coherent) {α : Type} {id : Int} {op : Surroundings → Op α}
    (h : ∀ l : Locale, l.Coherent → Unmoved (op (u.surroundings id)) l) : Unmoved (within id op) u := by
  refine Ends.unmoved (Q := fun _ _ => True) (within_ends hu (fun e he => ?_) fun _ => rfl)
  refine (h _ (hu.locale he)).ends.mono (fun _ _ h => h) ?_
  rintro _ _ rfl
  exact putBack_self hu he

theorem link_unmoved (hu : u.Coherent) (source predicate target : Structure) :
    Unmoved (link source predicate target) u := by
  have htell : ∀ l : Locale, l.Coherent → Unmoved (Locale.tell source predicate target) l := fun l hl =>
    Ends.unmoved (Q := fun _ _ => True)
      ((Locale.insertTriple_ends hl source predicate target).bind (fun _ _ _ => trivial) fun _ _ h => h.1)
  refine Ends.unmoved (Q := fun _ _ => True) ?_
  refine (query_ends _ u).test (fun _ _ => ?_) fun _ _ h => h.1
  refine (query_ends _ u).test (fun _ _ => ?_) fun _ _ h => h.1
  exact (within_unmoved hu htell).ends

/-- Once the node for a new environment has been made, the environment is taken in. -/
theorem createEnvironment_unmoved (hu : u.Counted) (name : Option String) : Unmoved (createEnvironment name) u := by
  obtain ⟨root, hroot⟩ := (mem_iff_exists_getElem? _ _).1 hu.coherent.root
  have hplant : Ends (within rootId fun around => Locale.createNode around name none) u
      (fun n w => w.Coherent ∧ n.id ∉ w.members ∧ w.Live ⟨rootId, n.id⟩) fun _ w => w = u := by
    refine within_ends hu.coherent (fun e he => ?_) fun _ => rfl
    have hl := hu.coherent.locale he
    refine ((Locale.createNode_ends hl (u.surroundings rootId) name none).and
      (Locale.createNode_alters hl (u.surroundings rootId) name none)).mono ?_ ?_
    · rintro n l ⟨⟨rfl, -, -, hb⟩, halters⟩
      refine ⟨hu.coherent.changes he halters.changes, fun hmem => ?_, l.env, ExtTreeMap.getElem?_insert_self, ?_⟩
      · -- no environment has an id that has not been given out
        obtain ⟨e', he', hlt⟩ := hu.numbered _ (mem_of_putBack he hmem)
        cases he.symm.trans he'
        exact Int.lt_irrefl _ hlt
      · rw [hb.cells]
        cases name <;> exact (mem_insert_iff _ _ _ _).2 (.inl rfl)
    · rintro _ _ ⟨⟨rfl, -⟩, -⟩
      exact putBack_self hu.coherent he
  refine Ends.unmoved (Q := fun _ _ => True) (hplant.bind ?_ fun _ _ h => h)
  rintro ⟨env, id⟩ w ⟨hw, hfree, hlive⟩
  have hattach : attach (.fresh id) w = .ok ⟨⟩ (w.adopt (.fresh id)) := attach_denoted hw hfree hlive
  rw [Ends, bind_of_ok hattach]
  trivial

/-- Whatever state an operation finds, it has changed nothing if it fails, unless an entry was missing that is bound
to be there. In an environment that arises, on its own or in a universe, an operation that fails has changed nothing
at all; and neither has making an environment or relating two of them. -/
theorem arises_unmoved :
    (∀ (l : Locale) (around : Surroundings) (op : Operation) f l', op.isBasic = true →
      op.perform around l = .error f l' → f.kind ≠ .missing → l' = l) ∧
    (∀ (e : Environment) (around : Surroundings) (op : Operation) f l', e.Arises → op.isBasic = true →
      op.perform around ⟨e, ∅⟩ = .error f l' → l'.env = e) ∧
    ∀ u : Universe, u.Arises →
      (∀ (id : Int) (op : Operation), op.isBasic = true → Unmoved (within id fun around => op.perform around) u) ∧
      (∀ name, Unmoved (createEnvironment name) u) ∧
      ∀ source predicate target, Unmoved (link source predicate target) u := by
  refine ⟨fun l around op f l' hop hf hkind => ?_, fun e around op f l' he hop hf => ?_, fun u hu => ?_⟩
  · refine ((Operation.perform_careful hop l).of_error hf).resolve_right ?_
    rintro rfl
    exact hkind rfl
  · -- with its own references on record, the environment is coherent and looks the same
    have htwin := op.perform_twin around _ _ e.locale_twin
    rw [hf] at htwin
    have hunmoved := Operation.perform_unmoved he.coherent.locale around hop
    generalize hrun : op.perform around e.locale = r at htwin
    cases htwin with
    | error _ hl =>
      rw [← hl.env, hunmoved _ _ hrun]
      rfl
  · have hcounted := hu.counted
    exact ⟨fun id op hop => within_unmoved hcounted.coherent fun l hl => Operation.perform_unmoved hl _ hop,
      createEnvironment_unmoved hcounted, link_unmoved hcounted.coherent⟩

/-- A universe of two environments, with a name given in each. -/
def settled : Universe :=
  empty.evolved [.createEnvironment (some "a"), .operate 1 (.createNode (some "x") none)]

theorem settled_unmoved :
    (∃ f, (Operation.deleteNode (.node ⟨0, 0⟩)).perform .alone ⟨.blank 0, ∅⟩ = .error f ⟨.blank 0, ∅⟩ ∧
      f.kind = .unknownNode) ∧
    (∃ f l, (Operation.deleteNode (.node ⟨0, 0⟩)).perform .alone ⟨.fresh 0, ∅⟩ = .error f l ∧
      f.kind = .referencedNode ∧ l.env = .fresh 0) ∧
    (∃ f, within 1 (fun around => (Operation.createNode (some "x") none).perform around) settled =
      .error f settled ∧ f.kind = .nameCollision) ∧
    (∃ f, createEnvironment (some "a") settled = .error f settled ∧ f.kind = .nameCollision) ∧
    ∃ f, link (.node ⟨0, 1⟩) (.node ⟨0, 0⟩) (.node ⟨0, 7⟩) settled = .error f settled ∧
      f.kind = .unknownEnvironment := by
  obtain ⟨hany, halone, harises⟩ := arises_unmoved
  have hsettled : settled.Arises :=
    .played (.played .empty (.createEnvironment (some "a"))) (.operate 1 (.createNode (some "x") none))
  obtain ⟨hwithin, hcreate, hlink⟩ := harises settled hsettled
  refine ⟨?_, ?_, ?_, ?_, ?_⟩
  · have hrun : fails ((Operation.deleteNode (.node ⟨0, 0⟩)).perform .alone) ⟨.blank 0, ∅⟩
        (fun f => f.kind == .unknownNode) = true := by decide +kernel
    obtain ⟨f, l, hf, hkind⟩ := exists_of_fails hrun
    have hkind : f.kind = .unknownNode := by simpa using hkind
    obtain rfl := hany _ _ _ f l rfl hf (by rw [hkind]; decide)
    exact ⟨f, hf, hkind⟩
  · have hrun : fails ((Operation.deleteNode (.node ⟨0, 0⟩)).perform .alone) ⟨.fresh 0, ∅⟩
        (fun f => f.kind == .referencedNode) = true := by decide +kernel
    obtain ⟨f, l, hf, hkind⟩ := exists_of_fails hrun
    exact ⟨f, l, hf, by simpa using hkind, halone _ _ _ f l (.fresh 0) rfl hf⟩
  · have hrun : fails (within 1 fun around => (Operation.createNode (some "x") none).perform around) settled
        (fun f => f.kind == .nameCollision) = true := by decide +kernel
    obtain ⟨f, v, hf, hkind⟩ := exists_of_fails hrun
    obtain rfl := hwithin 1 _ rfl f v hf
    exact ⟨f, hf, by simpa using hkind⟩
  · have hrun : fails (createEnvironment (some "a")) settled (fun f => f.kind == .nameCollision) = true := by
      decide +kernel
    obtain ⟨f, v, hf, hkind⟩ := exists_of_fails hrun
    obtain rfl := hcreate _ f v hf
    exact ⟨f, hf, by simpa using hkind⟩
  · have hrun : fails (link (.node ⟨0, 1⟩) (.node ⟨0, 0⟩) (.node ⟨0, 7⟩)) settled
        (fun f => f.kind == .unknownEnvironment) = true := by decide +kernel
    obtain ⟨f, v, hf, hkind⟩ := exists_of_fails hrun
    obtain rfl := hlink _ _ _ f v hf
    exact ⟨f, hf, by simpa using hkind⟩

end Universe

end GraphLisp
