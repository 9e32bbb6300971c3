import GraphLisp.Proofs.Agreement
import GraphLisp.Proofs.Index
import GraphLisp.Journal
/-!
# Environments alike

Two environments are alike if they differ in nothing but the structures in their cells, and these
are alike (`Environment.Like`). Operations only test what structures mention, which is the same of
structures alike, so that they agree on environments alike: they end in environments alike or fail
alike.
-/

namespace GraphLisp

open Std

variable {lax : Bool}

/-! ## Cells -/

/-- Two cells are of one kind, and their contents are alike. -/
inductive Cell.Like (lax : Bool) : Cell → Cell → Prop where
  | plain {o o' : Option Structure} (h : Option.Rel (Structure.Like lax) o o') :
    Like lax (.plain o) (.plain o')
  | proxy (target : Node) : Like lax (.proxy target) (.proxy target)
  | triple : Like lax .triple .triple

theorem Cell.Like.content {c c' : Cell} (h : c.Like lax c') :
    Option.Rel (Structure.Like lax) c.content c'.content := by
  cases h with
  | plain h => exact h
  | proxy target => exact .some (.node target)
  | triple => exact .none

theorem mentions_of_rel {o o' : Option Structure} (h : Option.Rel (Structure.Like lax) o o') :
    (o.map Structure.mentions).getD [] = (o'.map Structure.mentions).getD [] := by
  cases h with
  | some h => exact h.mentions
  | none => rfl

theorem Cell.Like.mentions {c c' : Cell} (h : c.Like lax c') : c.mentions = c'.mentions :=
  mentions_of_rel h.content

/-- The same handles are live, with cells alike. -/
def CellsLike (lax : Bool) (cs cs' : ExtTreeMap Int Cell) : Prop :=
  ∀ h : Int, Option.Rel (Cell.Like lax) cs[h]? cs'[h]?

namespace CellsLike

variable {cs cs' : ExtTreeMap Int Cell}

theorem mem_iff (hc : CellsLike lax cs cs') (h : Int) : h ∈ cs ↔ h ∈ cs' := by
  rw [mem_iff_exists_getElem?, mem_iff_exists_getElem?]
  have := hc h
  generalize cs[h]? = o at this
  generalize cs'[h]? = o' at this
  cases this <;> simp

theorem contains_eq (hc : CellsLike lax cs cs') (h : Int) : cs.contains h = cs'.contains h := by
  rw [Bool.eq_iff_iff, ExtTreeMap.contains_iff_mem, ExtTreeMap.contains_iff_mem, hc.mem_iff]

theorem insert (hc : CellsLike lax cs cs') (h : Int) {c c' : Cell} (hcell : c.Like lax c') :
    CellsLike lax (cs.insert h c) (cs'.insert h c') := by
  intro k
  rw [ExtTreeMap.getElem?_insert, ExtTreeMap.getElem?_insert]
  split
  · exact .some hcell
  · exact hc k

theorem erase (hc : CellsLike lax cs cs') (h : Int) : CellsLike lax (cs.erase h) (cs'.erase h) := by
  intro k
  rw [ExtTreeMap.getElem?_erase, ExtTreeMap.getElem?_erase]
  split
  · exact .none
  · exact hc k

end CellsLike

/-! ## Environments -/

/-- The second environment has other cells, alike to those of the first one. -/
inductive Environment.Like (lax : Bool) (e : Environment) : Environment → Prop where
  | intro {cs : ExtTreeMap Int Cell} (h : CellsLike lax e.nodes.cells cs) :
    Like lax e { e with nodes.cells := cs }

/-- The environments of two locales are alike, and the references the same. -/
inductive Locale.Like (lax : Bool) (l : Locale) : Locale → Prop where
  | intro {cs : ExtTreeMap Int Cell} (h : CellsLike lax l.env.nodes.cells cs) :
    Like lax l { l with env.nodes.cells := cs }

/-! ## Sound contents -/

/-- What a cell holds is sound. -/
def Cell.Sound (lax : Bool) (c : Cell) : Prop := ∀ s, c.content = some s → s.Sound lax

/-- Everything in an environment is sound. -/
def Environment.Sound (lax : Bool) (e : Environment) : Prop :=
  ∀ (h : Int) (c : Cell), e.nodes.cells[h]? = some c → c.Sound lax

theorem Cell.Like.refl {c : Cell} (h : c.Sound lax) : c.Like lax c := by
  cases c with
  | plain o =>
    cases o with
    | none => exact .plain .none
    | some s => exact .plain (.some (.refl (h s rfl)))
  | proxy target => exact .proxy target
  | triple => exact .triple

theorem Environment.Like.refl {e : Environment} (h : e.Sound lax) : e.Like lax e := by
  refine .intro fun k => ?_
  cases hc : e.nodes.cells[k]? with
  | none => exact .none
  | some c => exact .some (.refl (h k c hc))

theorem Environment.fresh_sound (id : Int) : (Environment.fresh id).Sound lax := by
  rintro h c hc s hs
  rcases (getElem?_insert_iff _ _ _ _ _).1 hc with ⟨-, rfl⟩ | ⟨-, hc⟩
  · cases hs
  · simp [NodeTable.empty] at hc

/-! ## Questions -/

namespace Environment

variable {e e' : Environment}

theorem resident_likes (h : e.Like lax e') {s s' : Structure} (hs : s.Like lax s') :
    Answers Eq (e.resident s) (e'.resident s') := by
  cases h with | intro hc =>
  cases hs.shape with
  | node n =>
    unfold resident
    dsimp only
    split
    · exact .error rfl
    · by_cases hn : n.id ∈ e.nodes.cells
      · rw [if_pos hn, if_pos ((hc.mem_iff _).1 hn)]
        exact .ok rfl
      · rw [if_neg hn, if_neg fun x => hn ((hc.mem_iff _).2 x)]
        exact .error rfl
  | _ => exact .error (congrArg Fault.notANode hs.same)

theorem contains_likes (h : e.Like lax e') (n : Node) : e.contains (.node n) = e'.contains (.node n) := by
  cases h with | intro hc =>
  exact congrArg (n.env == e.id && ·) (hc.contains_eq n.id)

theorem cell_likes (h : e.Like lax e') (handle : Int) :
    Answers (Cell.Like lax) (e.cell handle) (e'.cell handle) := by
  cases h with | @intro cs hc =>
  have hcell := hc handle
  unfold cell
  dsimp only
  generalize e.nodes.cells[handle]? = o at hcell ⊢
  generalize cs[handle]? = o' at hcell ⊢
  cases hcell with
  | some h => exact .ok h
  | none => exact .error rfl

/-- Triples do not depend on the cells. -/
theorem triple_likes (h : e.Like lax e') (handle : Int) : e'.triple handle = e.triple handle := by
  cases h; rfl

theorem getStructure_likes (h : e.Like lax e') {s s' : Structure} (hs : s.Like lax s') :
    Answers (Structure.Like lax) (e.getStructure s) (e'.getStructure s') := by
  refine (resident_likes h hs).bind ?_
  rintro n _ rfl
  refine (cell_likes h n.id).bind fun c c' hc => ?_
  cases hc with
  | plain ho =>
    cases ho with
    | some ho => exact .ok ho
    | none => exact .ok (.node n)
  | proxy target => exact .ok (.node target)
  | triple =>
    rw [triple_likes h]
    refine (answers_refl (Q := Eq) (fun _ => rfl) _).bind ?_
    rintro t _ rfl
    exact .ok (.list (.cons (.node _) (.cons (.node _) (.cons (.node _) .nil))))

theorem content?_likes (h : e.Like lax e') (n : Node) :
    Option.Rel (Structure.Like lax) (e.content? n) (e'.content? n) := by
  cases h with | @intro cs hc =>
  unfold content?
  dsimp only
  split
  · have hcell := hc n.id
    generalize e.nodes.cells[n.id]? = o at hcell ⊢
    generalize cs[n.id]? = o' at hcell ⊢
    cases hcell with
    | some h => exact h.content
    | none => exact .none
  · exact .none

theorem tripleOf_likes (h : e.Like lax e') (n : Node) :
    Answers Eq (e.tripleOf (.node n)) (e'.tripleOf (.node n)) := by
  refine (resident_likes h (.node n)).bind ?_
  rintro m _ rfl
  refine (cell_likes h m.id).bind fun c c' hc => ?_
  cases hc with
  | triple =>
    dsimp only
    rw [triple_likes h]
    exact answers_refl (fun _ => rfl) _
  | _ => exact .ok rfl

theorem mapM_triple_likes (h : e.Like lax e') (handles : List Int) :
    handles.mapM e'.triple = handles.mapM e.triple := by
  rw [show e'.triple = e.triple from funext (triple_likes h)]

theorem patternPart_likes (h : e.Like lax e') {s s' : Option Structure}
    (hs : Option.Rel (Structure.Like lax) s s') : Answers Eq (e.patternPart s) (e'.patternPart s') := by
  cases h with | intro hc =>
  cases hs with
  | none => exact .ok rfl
  | some hs =>
    cases hs.shape with
    | node n =>
      unfold patternPart
      dsimp only
      split
      · exact .error rfl
      · by_cases hn : n.id ∈ e.nodes.cells
        · rw [if_pos hn, if_pos ((hc.mem_iff _).1 hn)]
          exact .ok rfl
        · rw [if_neg hn, if_neg fun x => hn ((hc.mem_iff _).2 x)]
          exact .ok rfl
    | _ => exact .error (congrArg Fault.badPattern hs.same)

theorem ask_likes (h : e.Like lax e') {s s' p p' o o' : Option Structure}
    (hs : Option.Rel (Structure.Like lax) s s') (hp : Option.Rel (Structure.Like lax) p p')
    (ho : Option.Rel (Structure.Like lax) o o') : Answers Eq (e.ask s p o) (e'.ask s' p' o') := by
  refine (patternPart_likes h hs).bind ?_
  rintro k _ rfl
  cases k with
  | none => exact .ok rfl
  | some k =>
    refine (patternPart_likes h hp).bind ?_
    rintro m _ rfl
    cases m with
    | none => exact .ok rfl
    | some m =>
      refine (patternPart_likes h ho).bind ?_
      rintro n _ rfl
      cases n with
      | none => exact .ok rfl
      | some n =>
        dsimp only
        rw [mapM_triple_likes h, show e'.triples = e.triples by cases h; rfl]
        exact answers_refl (fun _ => rfl) _

theorem askAny_likes (h : e.Like lax e') {s s' : Structure} (hs : s.Like lax s') :
    Answers Eq (e.askAny s) (e'.askAny s') := by
  refine (resident_likes h hs).bind ?_
  rintro n _ rfl
  rw [mapM_triple_likes h, show e'.triples = e.triples by cases h; rfl]
  exact answers_refl (fun _ => rfl) _

end Environment

/-! ## Operations -/

namespace Locale

variable {l l' : Locale}

theorem Like.env (h : l.Like lax l') : l.env.Like lax l'.env := by
  cases h with | intro hc => exact .intro hc

theorem refer_likes (h : l.Like lax l') (handle : Int) (target : Node) :
    (l.refer handle target).Like lax (l'.refer handle target) := by
  cases h with | @intro cs hc =>
  unfold refer
  dsimp only
  split
  · exact .intro hc
  · exact .intro hc

theorem unrefer_likes (h : l.Like lax l') (handle : Int) (target : Node) :
    (l.unrefer handle target).Like lax (l'.unrefer handle target) := by
  cases h with | @intro cs hc =>
  unfold unrefer
  dsimp only
  split
  · exact .intro hc
  · exact .intro hc

theorem foldl_likes {f : Locale → Node → Locale}
    (hf : ∀ {l l' : Locale}, l.Like lax l' → ∀ n, (f l n).Like lax (f l' n)) (ns : List Node)
    (h : l.Like lax l') : (ns.foldl f l).Like lax (ns.foldl f l') := by
  induction ns generalizing l l' with
  | nil => exact h
  | cons n ns ih => exact ih (hf h n)

theorem release_likes (h : l.Like lax l') (handle : Int) :
    (l.release handle).Like lax (l'.release handle) := by
  have hcell : Option.Rel (Cell.Like lax) l.env.nodes.cells[handle]? l'.env.nodes.cells[handle]? := by
    cases h with | intro hc => exact hc handle
  unfold release
  generalize l.env.nodes.cells[handle]? = o at hcell ⊢
  generalize l'.env.nodes.cells[handle]? = o' at hcell ⊢
  cases hcell with
  | none => exact h
  | some hcell =>
    dsimp only
    rw [hcell.mentions]
    exact foldl_likes (fun h n => unrefer_likes h handle n) _ h

theorem hold_likes (h : l.Like lax l') (handle : Int) {c c' : Cell} (hc : c.Like lax c') :
    (l.hold handle c).Like lax (l'.hold handle c') := by
  unfold hold
  dsimp only
  rw [hc.mentions]
  refine foldl_likes (fun h n => refer_likes h handle n) _ ?_
  have hr := release_likes h handle
  generalize l.release handle = r at hr ⊢
  generalize l'.release handle = r' at hr ⊢
  cases hr with | intro hcells => exact .intro (hcells.insert handle hc)

theorem unbindImport_likes (t : NodeTable) (cs : ExtTreeMap Int Cell) {c c' : Cell} (hc : c.Like lax c') :
    Answers (fun t₁ t₂ => t₁.cells = t.cells ∧ t₂ = { t₁ with cells := cs }) (t.unbindImport c)
      ({ t with cells := cs }.unbindImport c') := by
  cases hc with
  | proxy target =>
    unfold NodeTable.unbindImport
    dsimp only
    split
    · exact .ok ⟨rfl, rfl⟩
    · exact .error rfl
  | _ => exact .ok ⟨rfl, rfl⟩

theorem unbindName_likes (t : NodeTable) (cs : ExtTreeMap Int Cell) (handle : Int) :
    Answers (fun t₁ t₂ => t₁.cells = t.cells ∧ t₂ = { t₁ with cells := cs }) (t.unbindName handle)
      ({ t with cells := cs }.unbindName handle) := by
  unfold NodeTable.unbindName
  dsimp only
  split
  · exact .ok ⟨rfl, rfl⟩
  · split
    · exact .ok ⟨rfl, rfl⟩
    · exact .error rfl

theorem discardHandle_likes (h : l.Like lax l') (handle : Int) :
    Answers (Locale.Like lax) (l.discardHandle handle) (l'.discardHandle handle) := by
  refine (Environment.cell_likes h.env handle).bind fun c c' hc => ?_
  cases h with | @intro cs hcells =>
  refine (unbindImport_likes l.env.nodes cs hc).bind ?_
  rintro t _ ⟨ht, rfl⟩
  have hr : Locale.Like lax { l with env.nodes := t } { l with env.nodes := { t with cells := cs } } :=
    .intro (l := { l with env.nodes := t }) (by rwa [ht])
  have hr := release_likes hr handle
  dsimp only
  generalize release { l with env.nodes := t } handle = r at hr ⊢
  generalize release { l with env.nodes := { t with cells := cs } } handle = r' at hr ⊢
  cases hr with | @intro cs hcells =>
  refine (unbindName_likes r.env.nodes cs handle).bind ?_
  rintro t _ ⟨ht, rfl⟩
  refine .ok (.intro (l := { r with env.nodes := { t with cells := t.cells.erase handle } }) ?_)
  dsimp only
  rw [ht]
  exact hcells.erase handle

/-! ### Steps of operations -/

section
variable {α β : Type} {Q : α → β → Prop}

theorem query_agree {f : Environment → Except Fault α} {g : Environment → Except Fault β}
    (h : ∀ e e', Environment.Like lax e e' → Answers Q (f e) (g e')) :
    Agree (Locale.Like lax) Q (query f) (query g) :=
  agree_get.bind fun _ _ hl => agree_of_answers _ _ (h _ _ hl.env)

/-- A change of the node table that keeps cells alike and does the same to the other tables. -/
theorem onNodes_agree {f : NodeTable → Except Fault (α × NodeTable)}
    {g : NodeTable → Except Fault (β × NodeTable)}
    (h : ∀ (t : NodeTable) (cs : ExtTreeMap Int Cell), CellsLike lax t.cells cs →
      Answers (fun (r : α × NodeTable) (r' : β × NodeTable) => Q r.1 r'.1 ∧
        ∃ cs', CellsLike lax r.2.cells cs' ∧ r'.2 = { r.2 with cells := cs' }) (f t) (g { t with cells := cs })) :
    Agree (Locale.Like lax) Q (onNodes f) (onNodes g) := by
  rintro l _ ⟨hc⟩
  have hfg := h l.env.nodes _ hc
  unfold onNodes
  rw [get_bind, get_bind]
  generalize f l.env.nodes = x at hfg ⊢
  generalize g _ = y at hfg ⊢
  cases hfg with
  | error hfault => exact .error hfault (.intro hc)
  | @ok r r' hr =>
    obtain ⟨a, t⟩ := r
    obtain ⟨b, t'⟩ := r'
    obtain ⟨hq, cs', hcs, rfl⟩ := hr
    exact .ok hq (.intro (l := { l with env.nodes := t }) hcs)

theorem onTriples_agree (change : TripleStore.Change α) :
    Agree (Locale.Like lax) Eq (onTriples change) (onTriples change) := by
  rintro l _ ⟨hc⟩
  unfold onTriples
  dsimp only
  split
  · exact .ok rfl (.intro (l := { l with env.triples := _ }) hc)
  · exact .error rfl (.intro (l := { l with env.triples := _ }) hc)

end

theorem drop_agree (handle : Int) :
    Agree (Locale.Like lax) (fun _ _ => True) (drop handle) (drop handle) := by
  refine agree_get.bind fun l l' hl => ?_
  have hd := discardHandle_likes hl handle
  generalize l.discardHandle handle = x at hd ⊢
  generalize l'.discardHandle handle = y at hd ⊢
  cases hd with
  | ok h => exact agree_set h
  | error h => exact agree_throw h

theorem allocate_agree : Agree (Locale.Like lax) Eq allocate allocate := by
  refine onNodes_agree fun t cs hc => ?_
  unfold NodeTable.allocate
  dsimp only
  split
  · exact .error rfl
  · exact .ok ⟨rfl, _, hc.insert _ (.plain .none), rfl⟩

theorem unname_agree (handle : Int) : Agree (Locale.Like lax) Eq
    (onNodes fun t => return ((), ← t.unbindName handle))
    (onNodes fun t => return ((), ← t.unbindName handle)) := by
  refine onNodes_agree fun t cs hc => ?_
  refine (unbindName_likes t cs handle).bind ?_
  rintro t₁ _ ⟨ht, rfl⟩
  exact .ok ⟨rfl, cs, by rwa [ht], rfl⟩

theorem name_agree (handle : Int) (s : String) :
    Agree (Locale.Like lax) Eq (name handle s) (name handle s) := by
  refine onNodes_agree fun t cs hc => ?_
  have hrebind : Answers (fun t₁ t₂ => t₁.cells = t.cells ∧ t₂ = { t₁ with cells := cs })
      (NodeTable.bindName.rebind t handle s) (NodeTable.bindName.rebind { t with cells := cs } handle s) := by
    refine (unbindName_likes t cs handle).bind ?_
    rintro t₁ _ ⟨ht, rfl⟩
    exact .ok ⟨ht, rfl⟩
  have hbind : Answers (fun t₁ t₂ => t₁.cells = t.cells ∧ t₂ = { t₁ with cells := cs })
      (t.bindName handle s) ({ t with cells := cs }.bindName handle s) := by
    unfold NodeTable.bindName
    dsimp only
    split
    · split
      · exact hrebind
      · exact .error rfl
    · exact hrebind
  refine hbind.bind ?_
  rintro t₁ _ ⟨ht, rfl⟩
  exact .ok ⟨rfl, cs, by rwa [ht], rfl⟩

section
variable {around : Surroundings} {o o' : Option Structure}

theorem checkForeign_agree (around : Surroundings) (h : Option.Rel (Structure.Like lax) o o') :
    Agree (Locale.Like lax) (fun _ _ => True) (checkForeign around o) (checkForeign around o') := by
  refine agree_get.bind fun l l' hl => ?_
  dsimp only
  rw [mentions_of_rel h, show l'.env.id = l.env.id by cases hl; rfl]
  split
  · exact agree_throw rfl
  · exact agree_pure trivial

theorem checkLocal_agree (h : Option.Rel (Structure.Like lax) o o') :
    Agree (Locale.Like lax) (fun _ _ => True) (checkLocal o) (checkLocal o') := by
  refine agree_get.bind fun l l' hl => ?_
  dsimp only
  have hcontains : l'.env.nodes.cells.contains = l.env.nodes.cells.contains := by
    cases hl with | intro hc => exact funext fun k => (hc.contains_eq k).symm
  rw [mentions_of_rel h, hcontains, show l'.env.id = l.env.id by cases hl; rfl]
  split
  · exact agree_throw rfl
  · exact agree_pure trivial

theorem checkUnused_agree (around : Surroundings) (n : Node) :
    Agree (Locale.Like lax) Eq (checkUnused around n) (checkUnused around n) := by
  -- the tests do not look at cells
  refine agree_get.bind fun l l' hl => ?_
  cases hl
  dsimp only
  repeat' split
  all_goals first | exact agree_throw rfl | exact agree_pure rfl

end

theorem hold_agree (handle : Int) {c c' : Cell} (hc : c.Like lax c') :
    Agree (Locale.Like lax) (fun _ _ => True) (modify (·.hold handle c)) (modify (·.hold handle c')) :=
  agree_modify fun _ _ hl => hold_likes hl handle hc

theorem resident_agree {s s' : Structure} (hs : s.Like lax s') :
    Agree (Locale.Like lax) Eq (query (·.resident s)) (query (·.resident s')) :=
  query_agree fun _ _ he => Environment.resident_likes he hs

theorem cell_agree (handle : Int) :
    Agree (Locale.Like lax) (Cell.Like lax) (query (·.cell handle)) (query (·.cell handle)) :=
  query_agree fun _ _ he => Environment.cell_likes he handle

/-! ### Operations -/

section
variable (around : Surroundings) {o o' : Option Structure} {s s' p p' q q' : Structure}

theorem createNode_agree (name : Option String) (h : Option.Rel (Structure.Like lax) o o') :
    Agree (Locale.Like lax) Eq (createNode around name o) (createNode around name o') := by
  refine (checkForeign_agree around h).bind fun _ _ _ => ?_
  have hstore : ∀ handle, Agree (Locale.Like lax) Eq
      (do modify (·.hold handle (.plain o)); return (← get).env.node handle)
      (do modify (·.hold handle (.plain o')); return (← get).env.node handle) := fun handle =>
    (hold_agree handle (.plain h)).bind fun _ _ _ => agree_get.bind fun l l' hl => by
      cases hl; exact agree_pure rfl
  refine agree_get.bind fun l l' hl => ?_
  cases hl
  dsimp only
  split
  · exact agree_throw rfl
  refine (checkLocal_agree h).bind fun _ _ _ => allocate_agree.bind ?_
  rintro handle _ rfl
  cases name with
  | none => exact hstore handle
  | some n => exact (name_agree handle n).bind fun _ _ _ => hstore handle

theorem setStructure_agree (hs : s.Like lax s') (h : Option.Rel (Structure.Like lax) o o') :
    Agree (Locale.Like lax) (Option.Rel (Structure.Like lax)) (setStructure around s o)
      (setStructure around s' o') := by
  refine (checkForeign_agree around h).bind fun _ _ _ => (resident_agree hs).bind ?_
  rintro n _ rfl
  refine (cell_agree n.id).bind fun c c' hc => ?_
  cases hc with
  | triple => exact agree_throw rfl
  | proxy target => exact agree_throw rfl
  | plain ho =>
    exact (checkLocal_agree h).bind fun _ _ _ => (hold_agree n.id (.plain h)).bind fun _ _ _ =>
      agree_pure ho

/-- What two deleted nodes were: under one name, and alike. -/
inductive Remains.Like (lax : Bool) : Remains → Remains → Prop where
  | intro (name : Option String) {c c' : Cell} (h : c.Like lax c') : Like lax ⟨name, c⟩ ⟨name, c'⟩

theorem deleteNode_agree (hs : s.Like lax s') :
    Agree (Locale.Like lax) (Remains.Like lax) (deleteNode around s) (deleteNode around s') := by
  refine (resident_agree hs).bind ?_
  rintro n _ rfl
  refine (cell_agree n.id).bind fun c c' hc => ?_
  have hrest : Agree (Locale.Like lax) (Remains.Like lax)
      (do
        checkUnused around n
        let name := (← get).env.nodes.nameOf[n.id]?
        drop n.id
        return ⟨name, c⟩)
      (do
        checkUnused around n
        let name := (← get).env.nodes.nameOf[n.id]?
        drop n.id
        return ⟨name, c'⟩) := by
    refine (checkUnused_agree around n).bind fun _ _ _ => agree_get.bind fun l l' hl => ?_
    cases hl
    exact (drop_agree n.id).bind fun _ _ _ => agree_pure (.intro _ hc)
  cases hc with
  | triple => exact agree_throw rfl
  | plain _ => exact hrest
  | proxy _ => exact hrest

theorem importNode_agree (hs : s.Like lax s') :
    Agree (Locale.Like lax) Eq (importNode around s) (importNode around s') := by
  cases hs.shape with
  | node target =>
    refine agree_get.bind fun l l' hl => ?_
    cases hl
    dsimp only
    split
    · exact agree_throw rfl
    refine (checkForeign_agree around (.some (.node target))).bind fun _ _ _ => ?_
    split
    · exact agree_pure rfl
    · refine allocate_agree.bind ?_
      rintro handle _ rfl
      refine (agree_modify fun l l' hl => ?_).bind fun _ _ _ =>
        (hold_agree handle (.proxy target)).bind fun _ _ _ => agree_pure rfl
      cases hl with | intro hc => exact .intro (l := { l with env.nodes.imports := _ }) hc
  | _ => exact agree_throw (congrArg Fault.importOfNoNode hs.same)

theorem insertTriple_agree (hs : s.Like lax s') (hp : p.Like lax p') (hq : q.Like lax q') :
    Agree (Locale.Like lax) Eq (insertTriple s p q) (insertTriple s' p' q') := by
  refine (resident_agree hs).bind ?_
  rintro s _ rfl
  refine (resident_agree hp).bind ?_
  rintro p _ rfl
  refine (resident_agree hq).bind ?_
  rintro o _ rfl
  refine agree_get.bind fun l l' hl => ?_
  cases hl
  dsimp only
  split
  · exact agree_pure rfl
  · refine allocate_agree.bind ?_
    rintro handle _ rfl
    refine (agree_modify fun l l' hl => ?_).bind fun _ _ _ => agree_pure rfl
    cases hl with | intro hc =>
    exact .intro (l := { l with env.nodes.cells := _, env.triples := _ }) (hc.insert handle .triple)

theorem deleteTriple_agree (hs : s.Like lax s') :
    Agree (Locale.Like lax) Eq (deleteTriple around s) (deleteTriple around s') := by
  refine (resident_agree hs).bind ?_
  rintro n _ rfl
  refine (cell_agree n.id).bind fun c c' hc => ?_
  cases hc with
  | triple =>
    refine (checkUnused_agree around n).bind fun _ _ _ => (onTriples_agree _).bind ?_
    rintro st _ rfl
    refine (drop_agree n.id).bind fun _ _ _ => agree_get.bind fun l l' hl => ?_
    cases hl
    exact agree_pure rfl
  | _ => exact agree_throw rfl

/-! ### Taking operations back -/

theorem discard_agree (n : Node) :
    Agree (Locale.Like lax) (fun _ _ => True) (discard n) (discard n) := by
  refine (resident_agree (.node n)).bind ?_
  rintro n _ rfl
  refine (cell_agree n.id).bind fun c c' hc => ?_
  cases hc with
  | triple => exact (onTriples_agree _).bind fun _ _ _ => drop_agree n.id
  | _ => exact drop_agree n.id

theorem checkGone_agree (n : Node) :
    Agree (Locale.Like lax) Eq (checkGone n) (checkGone n) := by
  refine agree_get.bind fun l l' hl => ?_
  refine Agree.ite ?_ (agree_throw rfl) (agree_pure rfl)
  cases hl with | intro hc => exact hc.mem_iff n.id

theorem reinstateNode_agree (n : Node) {was was' : Remains} (h : was.Like lax was') :
    Agree (Locale.Like lax) (fun _ _ => True) (reinstateNode n was) (reinstateNode n was') := by
  obtain ⟨name, hc⟩ := h
  refine (checkGone_agree n).bind fun _ _ _ => ?_
  have hname : ∀ name, Agree (Locale.Like lax) (fun _ _ => True) (Locale.name n.id name) (Locale.name n.id name) :=
    fun name => (name_agree n.id name).mono fun _ _ _ => trivial
  cases hc with
  | proxy target =>
    refine (agree_modify fun l l' hl => ?_).bind fun _ _ _ => (hold_agree n.id (.proxy target)).bind fun _ _ _ => ?_
    · cases hl with | intro hc => exact .intro (l := { l with env.nodes.imports := _ }) hc
    · cases name <;> [exact agree_pure trivial; exact hname _]
  | plain h =>
    refine (hold_agree n.id (.plain h)).bind fun _ _ _ => ?_
    cases name <;> [exact agree_pure trivial; exact hname _]
  | triple =>
    refine (hold_agree n.id .triple).bind fun _ _ _ => ?_
    cases name <;> [exact agree_pure trivial; exact hname _]

theorem reinstateTriple_agree (n s p o : Node) :
    Agree (Locale.Like lax) (fun _ _ => True) (reinstateTriple n s p o) (reinstateTriple n s p o) := by
  refine (checkGone_agree n).bind fun _ _ _ => agree_modify fun l l' hl => ?_
  cases hl with | intro hc =>
  exact .intro (l := { l with env.nodes.cells := _, env.triples := _ }) (hc.insert n.id .triple)

end

end Locale

/-- Two entries of a journal undo the same change, up to structures alike. -/
inductive Undo.Like (lax : Bool) : Undo → Undo → Prop where
  | created (n : Node) : Like lax (.created n) (.created n)
  | restructured (n : Node) {o o' : Option Structure} (h : Option.Rel (Structure.Like lax) o o') :
    Like lax (.restructured n o) (.restructured n o')
  | deletedNode (n : Node) {was was' : Locale.Remains} (h : was.Like lax was') :
    Like lax (.deletedNode n was) (.deletedNode n was')
  | deletedTriple (n s p o : Node) : Like lax (.deletedTriple n s p o) (.deletedTriple n s p o)

theorem Undo.Like.node {u u' : Undo} (h : u.Like lax u') : u.node = u'.node := by
  cases h <;> rfl

theorem Undo.perform_agree (around : Surroundings) {u u' : Undo} (h : u.Like lax u') :
    Agree (Locale.Like lax) (fun _ _ => True) (u.perform around) (u'.perform around) := by
  cases h with
  | created n => exact Locale.discard_agree n
  | restructured n h =>
    exact (Locale.setStructure_agree around (.node n) h).bind fun _ _ _ => agree_pure trivial
  | deletedNode n h => exact Locale.reinstateNode_agree n h
  | deletedTriple n s p o => exact Locale.reinstateTriple_agree n s p o

end GraphLisp
