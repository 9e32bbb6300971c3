import GraphLisp.Proofs.Environment.Operations
import GraphLisp.Proofs.Region.Unfolding
/-!
# Accesses

What a table is bound to have is there. In an environment whose tables follow from its contents, no question and no
operation comes to an entry that is missing, so that whatever fails does so by a test of its own: questions are
`Answered`, operations end as `Settles` says. For an operation this is shown along with how it ends
(`Proofs/Environment/Operations`), since what it looks up last is bound to be there by what it did first.
-/

namespace GraphLisp

variable {σ α β : Type}

/-- A failure of the store, the snapshots and the programs, as opposed to a missing entry and other accidents. -/
def Fault.IsOwn (f : Fault) : Prop := f.kind.isDomain = true

/-- It is told as one unless it has a number in it that cannot be written. -/
theorem Fault.IsOwn.told {f : Fault} (h : f.IsOwn) :
    f.told.IsOwn ∨ (f.isWritable = false ∧ f.told = .numeral none) := by
  unfold Fault.told
  split
  · exact .inl h
  · next hw => exact .inr ⟨Bool.eq_false_iff.2 hw, rfl⟩

/-! ## Questions -/

/-- There is an answer, or a failure of its own. -/
def Answered (x : Except Fault α) : Prop := ∀ f, x = .error f → f.IsOwn

theorem answered_ok (a : α) : Answered (.ok a : Except Fault α) := fun _ h => nomatch h

theorem answered_error {f : Fault} (h : f.IsOwn) : Answered (.error f : Except Fault α) := by
  rintro _ ⟨⟩
  exact h

/-- A question that is asked about the answer to another one. -/
theorem Answered.bind {x : Except Fault α} {g : α → Except Fault β} (h : Answered x)
    (hg : ∀ a, x = .ok a → Answered (g a)) : Answered (x >>= g) := by
  cases x with
  | ok a => exact hg a rfl
  | error f => exact answered_error (h f rfl)

theorem Answered.ite {c : Prop} [Decidable c] {x y : Except Fault α} (hx : c → Answered x) (hy : ¬c → Answered y) :
    Answered (if c then x else y) := by
  split
  · next h => exact hx h
  · next h => exact hy h

theorem except_bind_ok {ε : Type} {x : Except ε α} {f : α → Except ε β} {b : β} :
    (x >>= f) = .ok b ↔ ∃ a, x = .ok a ∧ f a = .ok b := by
  cases x <;> simp [bind, Except.bind]

theorem except_bind_error {ε : Type} {x : Except ε α} {f : α → Except ε β} {err : ε} :
    (x >>= f) = .error err ↔ x = .error err ∨ ∃ a, x = .ok a ∧ f a = .error err := by
  cases x <;> simp [bind, Except.bind]

/-- A question about many things fails on one of them. -/
theorem exists_of_mapM_error {ε : Type} {f : α → Except ε β} {xs : List α} {err : ε}
    (h : xs.mapM f = .error err) : ∃ x ∈ xs, f x = .error err := by
  induction xs with
  | nil => cases h
  | cons x xs ih =>
    rw [List.mapM_cons] at h
    rcases except_bind_error.1 h with hx | ⟨b, -, h⟩
    · exact ⟨x, .head _, hx⟩
    rcases except_bind_error.1 h with hxs | ⟨bs, -, h⟩
    · obtain ⟨y, hy, hf⟩ := ih hxs
      exact ⟨y, .tail _ hy, hf⟩
    · cases h

theorem answered_mapM {f : α → Except Fault β} {xs : List α} (h : ∀ x ∈ xs, Answered (f x)) :
    Answered (xs.mapM f) := by
  intro fault hfault
  obtain ⟨x, hx, hf⟩ := exists_of_mapM_error hfault
  exact h x hx fault hf

/-- Only a list has elements. -/
theorem Structure.toList_answered (s : Structure) : Answered s.toList := by
  unfold toList
  split
  · exact answered_ok _
  all_goals exact answered_error rfl

namespace Environment

variable {e : Environment}

theorem resident_answered (e : Environment) (s : Structure) : Answered (e.resident s) := by
  unfold resident
  split
  · exact .ite (fun _ => answered_error rfl) fun _ => .ite (fun _ => answered_ok _) fun _ => answered_error rfl
  · exact answered_error rfl

/-- A node of the environment is live. -/
theorem mem_of_resident {s : Structure} {n : Node} (h : e.resident s = .ok n) : n.id ∈ e.nodes.cells := by
  unfold resident at h
  split at h
  · split at h
    · cases h
    split at h
    · next hlive =>
      cases h
      exact hlive
    · cases h
  · cases h

/-- A live handle stands for something. -/
theorem cell_ok {h : Int} (hh : h ∈ e.nodes.cells) : ∃ c, e.nodes.cells[h]? = some c ∧ e.cell h = .ok c := by
  obtain ⟨c, hc⟩ := (mem_iff_exists_getElem? _ _).1 hh
  exact ⟨c, hc, by simp only [cell, hc]⟩

/-- What stands for a triple has its statement. -/
theorem Tabled.triple_ok (he : e.Tabled) {h : Int} (hh : e.nodes.cells[h]? = some .triple) :
    ∃ t, e.triple h = .ok t := by
  obtain ⟨st, hst⟩ := he.statement_of_triple hh
  refine ⟨e.tripleAt h st, ?_⟩
  simp only [triple, statement, hst]
  rfl

/-- A question about what a node of the environment stands for. -/
theorem asked_answered (s : Structure) {g : Node → Cell → Except Fault α}
    (hg : ∀ n c, e.nodes.cells[n.id]? = some c → Answered (g n c)) :
    Answered (e.resident s >>= fun n => e.cell n.id >>= g n) := by
  refine (e.resident_answered s).bind fun n hn => ?_
  obtain ⟨c, hc, hcell⟩ := cell_ok (mem_of_resident hn)
  rw [hcell]
  exact hg n c hc

theorem Tabled.getStructure_answered (he : e.Tabled) (s : Structure) : Answered (e.getStructure s) := by
  refine asked_answered s fun n c hc => ?_
  cases c with
  | triple =>
    obtain ⟨t, ht⟩ := he.triple_ok hc
    dsimp only
    rw [ht]
    exact answered_ok _
  | plain _ => exact answered_ok _
  | proxy _ => exact answered_ok _

theorem hasStructure_answered (s : Structure) : Answered (e.hasStructure s) :=
  asked_answered s fun _ _ _ => answered_ok _

theorem isImport_answered (s : Structure) : Answered (e.isImport s) :=
  asked_answered s fun _ _ _ => answered_ok _

theorem Tabled.tripleOf_answered (he : e.Tabled) (s : Structure) : Answered (e.tripleOf s) := by
  refine asked_answered s fun n c hc => ?_
  cases c with
  | triple =>
    obtain ⟨t, ht⟩ := he.triple_ok hc
    dsimp only
    rw [ht]
    exact answered_ok _
  | plain _ => exact answered_ok _
  | proxy _ => exact answered_ok _

theorem patternPart_answered (e : Environment) (part : Option Structure) : Answered (e.patternPart part) := by
  unfold patternPart
  split
  · exact answered_ok _
  · exact .ite (fun _ => answered_error rfl) fun _ => .ite (fun _ => answered_ok _) fun _ => answered_ok _
  · exact answered_error rfl

/-- Handles that are stored have triples. -/
theorem mapM_triple_answered {hs : List Int} (h : ∀ k ∈ hs, k ∈ e.triples.statements) :
    Answered (hs.mapM e.triple) := by
  rw [mapM_triple h]
  exact answered_ok _

theorem Tabled.ask_answered (he : e.Tabled) (s p o : Option Structure) : Answered (e.ask s p o) := by
  unfold ask
  refine (e.patternPart_answered s).bind fun s _ => ?_
  cases s with
  | none => exact answered_ok _
  | some s =>
  refine (e.patternPart_answered p).bind fun p _ => ?_
  cases p with
  | none => exact answered_ok _
  | some p =>
  refine (e.patternPart_answered o).bind fun o _ => ?_
  cases o with
  | none => exact answered_ok _
  | some o =>
  refine mapM_triple_answered fun k hk => ?_
  obtain ⟨st, hst, -⟩ := (TripleStore.mem_select he.triples s p o k).1 hk
  exact mem_of_getElem? hst

theorem Tabled.askAny_answered (he : e.Tabled) (s : Structure) : Answered (e.askAny s) := by
  refine (e.resident_answered s).bind fun n _ => mapM_triple_answered fun k hk => ?_
  obtain ⟨st, hst, -⟩ := (TripleStore.mem_involving he.triples n.id k).1 hk
  exact mem_of_getElem? hst

theorem Tabled.edges_answered (he : e.Tabled) (selected : Option (List Node)) (n : Node) :
    Answered (e.edges selected n) := by
  refine (he.ask_answered _ _ _).bind fun ts _ => ?_
  cases selected <;> exact answered_ok _

/-- A region is written, or it has a circle. -/
theorem Tabled.unfoldFrom_answered (he : e.Tabled) (selected : Option (List Node)) (fuel : Nat) :
    ∀ path n, Answered (e.unfoldFrom selected fuel path n) := by
  induction fuel with
  | zero =>
    intro path n
    unfold unfoldFrom
    refine .ite (fun _ => answered_error rfl) fun _ => (he.edges_answered selected n).bind fun ts _ => ?_
    exact .ite (fun _ => answered_ok _) fun _ => answered_error rfl
  | succ fuel ih =>
    intro path n
    unfold unfoldFrom
    refine .ite (fun _ => answered_error rfl) fun _ => (he.edges_answered selected n).bind fun ts _ => ?_
    refine .ite (fun _ => answered_ok _) fun _ => Answered.bind ?_ fun _ _ => answered_ok _
    exact answered_mapM fun t _ => (ih _ _).bind fun _ _ => answered_ok _

end Environment

/-! ## Operations -/

/-- A computation comes to a value, or to a failure of its own. -/
def Settles (m : EStateM Fault σ α) (s : σ) : Prop := Ends m s (fun _ _ => True) fun f _ => f.IsOwn

section
variable {s : σ} {m : EStateM Fault σ α} {f : α → EStateM Fault σ β}

theorem Ends.owned {Q : α → σ → Prop} {E : Fault → σ → Prop} (h : Ends m s Q E) (hm : Settles m s) :
    Ends m s Q fun f t => E f t ∧ f.IsOwn :=
  (h.and hm).mono (fun _ _ h => h.1) fun _ _ h => h

theorem Settles.bind {R : α → σ → Prop} {E : Fault → σ → Prop} (hm : Settles m s) (h : Ends m s R E)
    (hf : ∀ a t, R a t → Settles (f a) t) : Settles (m >>= f) s :=
  (h.owned hm).bind hf fun _ _ h => h.2

/-- A computation goes on after a test, which changes nothing. -/
theorem Settles.test {R : α → Prop} {E : Fault → σ → Prop} (hm : Settles m s)
    (h : Ends m s (fun a t => t = s ∧ R a) E) (hf : ∀ a, R a → Settles (f a) s) : Settles (m >>= f) s :=
  hm.bind h fun a _ ⟨ht, hr⟩ => ht ▸ hf a hr

theorem settles_throw {fault : Fault} (h : fault.IsOwn) : Settles (throw fault : EStateM Fault σ α) s := h

/-- A computation that cannot fail. -/
theorem Ends.settles {Q : α → σ → Prop} (h : Ends m s Q fun _ _ => False) : Settles m s :=
  h.mono (fun _ _ _ => trivial) fun _ _ h => h.elim

end

namespace Locale

variable {l : Locale} {around : Surroundings}

theorem query_settles {f : Environment → Except Fault α} (h : Answered (f l.env)) : Settles (query f) l := by
  unfold Settles query
  rw [ends_bind, ends_get]
  cases hf : f l.env with
  | ok a => trivial
  | error fault => exact h fault hf

theorem resident_settles (l : Locale) (s : Structure) : Settles (query (·.resident s)) l :=
  query_settles (l.env.resident_answered s)

theorem cell_settles {h : Int} {c : Cell} (hc : l.env.nodes.cells[h]? = some c) : Settles (query (·.cell h)) l :=
  query_settles fun f hf => by simp [Environment.cell, hc] at hf

theorem checkForeign_settles (l : Locale) (around : Surroundings) (content : Option Structure) :
    Settles (checkForeign around content) l := by
  unfold Settles checkForeign
  rw [ends_bind, ends_get]
  dsimp only
  split
  · rfl
  · trivial

theorem checkLocal_settles (l : Locale) (content : Option Structure) : Settles (checkLocal content) l := by
  unfold Settles checkLocal
  rw [ends_bind, ends_get]
  dsimp only
  split
  · rfl
  · trivial

theorem checkUnused_settles (l : Locale) (around : Surroundings) (n : Node) : Settles (checkUnused around n) l := by
  unfold Settles checkUnused
  simp only [ends_bind, ends_get]
  repeat' split
  all_goals first | rfl | trivial

theorem allocate_settles (l : Locale) : Settles allocate l := by
  unfold Settles allocate onNodes NodeTable.allocate
  rw [ends_bind, ends_get]
  dsimp only
  split
  · trivial
  · next h =>
    split at h
    · cases h
      rfl
    · cases h

theorem createNode_settles (hl : l.Coherent) (around : Surroundings) (name : Option String)
    (content : Option Structure) : Settles (createNode around name content) l := by
  refine (checkForeign_settles l around content).test (checkForeign_ends l around content) fun _ _ => ?_
  unfold Settles
  rw [ends_bind, ends_get]
  dsimp only
  split
  · rfl
  refine (checkLocal_settles l content).test (checkLocal_ends l around content) fun _ _ => ?_
  refine (allocate_settles l).bind (allocate_ends hl) ?_
  -- the name is taken away from the new handle first, which has none
  rintro _ l₁ ⟨rfl, -, h₁⟩
  obtain ⟨hcell, -, -⟩ := h₁.live_allocated hl
  cases name with
  | none => trivial
  | some s =>
    refine (name_ends h₁.coherent (mem_of_getElem? hcell) s).bind (fun _ _ _ => trivial) ?_
    rintro _ _ ⟨-, rfl, -⟩
    rfl

theorem setStructure_settles (l : Locale) (around : Surroundings) (s : Structure) (content : Option Structure) :
    Settles (setStructure around s content) l := by
  refine (checkForeign_settles l around content).test (checkForeign_ends l around content) fun _ _ => ?_
  refine (resident_settles l s).test (resident_ends l s) fun n hr => ?_
  obtain ⟨c, hc⟩ := (mem_iff_exists_getElem? _ _).1 hr.live
  refine (cell_settles hc).test (cell_ends hc (F := fun _ _ => True)) ?_
  rintro _ rfl
  rename_i c
  cases c with
  | triple => exact settles_throw rfl
  | proxy t => exact settles_throw rfl
  | plain previous =>
    refine (checkLocal_settles l content).test (checkLocal_ends l around content) fun _ _ => ?_
    trivial

theorem rename_settles (hl : l.Coherent) (s : Structure) (name : Option String) : Settles (rename s name) l := by
  refine (resident_settles l s).test (resident_ends l s) fun n hr => ?_
  unfold Settles
  rw [ends_bind, ends_get]
  cases name with
  | none => exact (unname_ends hl n.id).bind (fun _ _ _ => trivial) fun _ _ h => h.elim
  | some s =>
    refine (name_ends hl hr.live s).bind (fun _ _ _ => trivial) ?_
    rintro _ _ ⟨-, rfl, -⟩
    rfl

theorem deleteNode_settles (hl : l.Coherent) (around : Surroundings) (s : Structure) :
    Settles (deleteNode around s) l := by
  refine (resident_settles l s).test (resident_ends l s) fun n hr => ?_
  obtain ⟨c, hc⟩ := (mem_iff_exists_getElem? _ _).1 hr.live
  refine (cell_settles hc).test (cell_ends hc (F := fun _ _ => True)) ?_
  rintro _ rfl
  rename_i c
  split
  · exact settles_throw rfl
  next hct =>
  have hu := checkUnused_ends hl around n.id
  rw [hr.node_eq] at hu
  refine (checkUnused_settles l around n).test hu fun _ hu => ?_
  unfold Settles
  rw [ends_bind, ends_get]
  -- a stand-in is known under what it stands for, and a name belongs to the handle that has it
  refine (drop_plain_ends hl hr.live hu.no_self ?_).bind (fun _ _ _ => trivial) fun _ _ h => h.elim
  rw [hc]
  exact fun e => hct (Option.some.inj e)

theorem deleteTriple_settles (hl : l.Coherent) (around : Surroundings) (s : Structure) :
    Settles (deleteTriple around s) l := by
  refine (resident_settles l s).test (resident_ends l s) fun n hr => ?_
  obtain ⟨c, hc⟩ := (mem_iff_exists_getElem? _ _).1 hr.live
  refine (cell_settles hc).test (cell_ends hc (F := fun _ _ => True)) ?_
  rintro _ rfl
  rename_i c
  cases c with
  | plain _ => exact settles_throw rfl
  | proxy _ => exact settles_throw rfl
  | triple =>
    have hu := checkUnused_ends hl around n.id
    rw [hr.node_eq] at hu
    refine (checkUnused_settles l around n).test hu fun _ hu => ?_
    -- the statement goes first, with its entries in the indexes, and then the handle
    refine (remove_ends hl hc).bind ?_ fun _ _ h => h.elim
    rintro st _ ⟨-, t, ht, hs, rfl⟩
    exact (drop_ends hl hr.live hu.no_self ht hs).bind (fun _ _ _ => trivial) fun _ _ h => h.elim

theorem importNode_settles (l : Locale) (around : Surroundings) (s : Structure) :
    Settles (importNode around s) l := by
  unfold importNode
  cases s with
  | node t =>
    unfold Settles
    rw [ends_bind, ends_get]
    dsimp only
    split
    · rfl
    refine (checkForeign_settles l around _).test (checkForeign_ends l around (some (.node t))) fun _ _ => ?_
    split
    · trivial
    · exact (allocate_settles l).bind (.always (fun _ _ => trivial) fun _ _ => trivial) fun _ _ _ => trivial
  | _ => exact settles_throw rfl

theorem insertTriple_settles (l : Locale) (subject predicate object : Structure) :
    Settles (insertTriple subject predicate object) l := by
  refine (resident_settles l subject).test (resident_ends l subject) fun s _ => ?_
  refine (resident_settles l predicate).test (resident_ends l predicate) fun p _ => ?_
  refine (resident_settles l object).test (resident_ends l object) fun o _ => ?_
  unfold Settles
  rw [ends_bind, ends_get]
  dsimp only
  split
  · trivial
  · exact (allocate_settles l).bind (.always (fun _ _ => trivial) fun _ _ => trivial) fun _ _ _ => trivial

end Locale

end GraphLisp
