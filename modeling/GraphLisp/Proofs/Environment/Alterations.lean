import GraphLisp.Proofs.Environment.Accesses
import GraphLisp.Proofs.Environment.Undo
/-!
# Alterations

`Locale.Alters` lists all that an operation can do to an environment, each with what a journal
records of it; whatever an operation does is one of these or nothing at all. So what is to hold
after every operation has to be shown for the few cases of `Alters` only, and each of them can be
undone (`Locale.Alters.undoes`). Building a region is a list of alterations, and so is what is
left of it when it fails.
-/

namespace GraphLisp

theorem Undo.isLabelled_eq (u : Undo) : u.isLabelled = Decimal.isWritable u.node.id := by
  unfold isLabelled
  rfl

namespace Decimal

/-- Whatever is below a number that can be written can be written. -/
theorem isWritable_of_le {h n : Int} (hlow : 0 ≤ h) (hle : h ≤ n) (hn : isWritable n = true) : isWritable h = true := by
  have hn : n.natAbs < firstTooLong := of_decide_eq_true hn
  exact decide_eq_true (by omega)

/-- The handles that are given out, and the one after the last of them, are short. -/
theorem isWritable_handle {h : Int} (hlow : 0 ≤ h) (hhigh : h ≤ maxHandle + 1) : isWritable h = true :=
  isWritable_of_le hlow hhigh (by decide +kernel)

end Decimal

namespace Locale

variable {around : Surroundings} {l l' l₁ l₂ : Locale}

/-- A handle is the next one to be given out, no later than the last, and something is put at it or
related under it; or the structure of a node is replaced; or a node or a triple that nothing uses is
removed. -/
inductive Alters (around : Surroundings) (l : Locale) : Undo → Locale → Prop where
  | made {l' : Locale} {c : Cell} {name : Option String} (hc : c ≠ .triple)
      (known : ∀ m ∈ c.mentions, l.Knows around m)
      (free : ∀ s, name = some s → l.env.nodes.names[s]? = none) (room : l.env.nodes.next ≤ maxHandle)
      (becomes : l.Becomes l' ((l.env.contents.put l.env.nodes.next c).called l.env.nodes.next name)
        (l.env.nodes.next + 1)) :
      Alters around l (.created (l.env.node l.env.nodes.next)) l'
  | related {l' : Locale} {st : Statement} (subject : st.subject ∈ l.env.nodes.cells)
      (predicate : st.predicate ∈ l.env.nodes.cells) (object : st.object ∈ l.env.nodes.cells)
      (room : l.env.nodes.next ≤ maxHandle)
      (becomes : l.Becomes l' (l.env.contents.relate l.env.nodes.next st) (l.env.nodes.next + 1)) :
      Alters around l (.created (l.env.node l.env.nodes.next)) l'
  | replaced {l' : Locale} {h : Int} {previous content : Option Structure}
      (cell : l.env.nodes.cells[h]? = some (.plain previous))
      (known : ∀ m ∈ (Cell.plain content).mentions, l.Knows around m)
      (becomes : l.Becomes l' (l.env.contents.put h (.plain content)) l.env.nodes.next) :
      Alters around l (.restructured (l.env.node h) previous) l'
  | removedNode {l' : Locale} {h : Int} {was : Remains} (cell : l.env.nodes.cells[h]? = some was.cell)
      (hc : was.cell ≠ .triple) (name : was.name = l.env.nodes.nameOf[h]?) (unused : l.Unused around h)
      (becomes : l.Becomes l' (l.env.contents.without h) l.env.nodes.next) :
      Alters around l (.deletedNode (l.env.node h) was) l'
  | removedTriple {l' : Locale} {h : Int} {st : Statement} (cell : l.env.nodes.cells[h]? = some .triple)
      (statement : l.env.triples.statements[h]? = some st) (unused : l.Unused around h)
      (becomes : l.Becomes l' (l.env.contents.without h) l.env.nodes.next) :
      Alters around l (.deletedTriple (l.env.node h) (l.env.node st.subject) (l.env.node st.predicate)
        (l.env.node st.object)) l'

/-- An alteration leads to a coherent locale of the same environment. -/
theorem Alters.becomes {u : Undo} (h : l.Alters around u l') :
    ∃ g next, l.Becomes l' g next ∧ l.env.nodes.next ≤ next := by
  cases h with
  | made _ _ _ _ h => exact ⟨_, _, h, Int.le_of_lt (Int.lt_succ _)⟩
  | related _ _ _ _ h => exact ⟨_, _, h, Int.le_of_lt (Int.lt_succ _)⟩
  | replaced _ _ h => exact ⟨_, _, h, Int.le_refl _⟩
  | removedNode _ _ _ _ h => exact ⟨_, _, h, Int.le_refl _⟩
  | removedTriple _ _ _ h => exact ⟨_, _, h, Int.le_refl _⟩

/-- Of its surroundings an alteration uses only what they say about other environments. -/
theorem Alters.congr {around' : Surroundings} {u : Undo} (h : l.Alters around u l')
    (hr : ∀ n : Node, n.env ≠ l.env.id → around.resolves n = true → around'.resolves n = true)
    (hd : ∀ k, around'.denotes (l.env.node k) = around.denotes (l.env.node k)) :
    l.Alters around' u l' := by
  have hk : ∀ m, l.Knows around m → l.Knows around' m := fun m h => ⟨h.here, fun hm => hr m hm (h.there hm)⟩
  have hu : ∀ k, l.Unused around k → l.Unused around' k := fun k h =>
    ⟨h.no_self, h.no_triple, h.no_mention, h.no_reference, by rw [hd]; exact h.no_pin⟩
  cases h with
  | made hc known free room h => exact .made hc (fun m hm => hk m (known m hm)) free room h
  | related hs hp ho room h => exact .related hs hp ho room h
  | replaced cell known h => exact .replaced cell (fun m hm => hk m (known m hm)) h
  | removedNode cell hc name unused h => exact .removedNode cell hc name (hu _ unused) h
  | removedTriple cell st unused h => exact .removedTriple cell st (hu _ unused) h

/-- A handle for which there is room is short. -/
theorem Coherent.room_writable (hl : l.Coherent) (room : l.env.nodes.next ≤ maxHandle) :
    Decimal.isWritable l.env.nodes.next = true := by
  have hself := hl.tabled.bounds _ hl.tabled.self
  exact Decimal.isWritable_handle (by omega) (by omega)

/-- Of what is made the label can be written. -/
theorem Alters.created_labelled (hl : l.Coherent) {n : Node} (h : l.Alters around (.created n) l') :
    (Undo.created n).isLabelled = true := by
  rw [Undo.isLabelled_eq]
  cases h with
  | made _ _ _ room _ => exact hl.room_writable room
  | related _ _ _ room _ => exact hl.room_writable room

/-- What is live after a change was live before, or has been given the next handle. -/
theorem Alters.live_before {u : Undo} (h : l.Alters around u l') {k : Int} (hk : k ∈ l'.env.nodes.cells) :
    k ∈ l.env.nodes.cells ∨ k = l.env.nodes.next ∧ l.env.nodes.next ≤ maxHandle := by
  have hinsert : ∀ {j : Int} {c : Cell}, k ∈ l.env.nodes.cells.insert j c → k = j ∨ k ∈ l.env.nodes.cells :=
    fun h => (mem_insert_iff _ _ _ _).1 h
  cases h with
  | @made _ c name _ _ _ room hb =>
    have hcells : l'.env.nodes.cells = l.env.nodes.cells.insert l.env.nodes.next c := by
      rw [hb.cells]; cases name <;> rfl
    exact (hinsert (hcells ▸ hk)).symm.imp_right fun h => ⟨h, room⟩
  | related _ _ _ room hb =>
    rw [hb.cells] at hk
    exact (hinsert hk).symm.imp_right fun h => ⟨h, room⟩
  | replaced cell _ hb =>
    rw [hb.cells] at hk
    exact .inl ((hinsert hk).elim (fun h => h ▸ mem_of_getElem? cell) fun h => h)
  | removedNode _ _ _ _ hb =>
    rw [hb.cells] at hk
    exact .inl ((mem_erase_iff _ _ _).1 hk).2
  | removedTriple _ _ _ hb =>
    rw [hb.cells] at hk
    exact .inl ((mem_erase_iff _ _ _).1 hk).2

/-- Where the counter can be written, so can the labels of all changes. -/
theorem Alters.labelled (hl : l.Coherent) {u : Undo} (h : l.Alters around u l')
    (hnext : Decimal.isWritable l.env.nodes.next = true) : u.isLabelled = true := by
  have hlive : ∀ k ∈ l.env.nodes.cells, Decimal.isWritable k = true := fun k hk =>
    Decimal.isWritable_of_le (hl.tabled.bounds k hk).1 (Int.le_of_lt (hl.tabled.bounds k hk).2) hnext
  rw [Undo.isLabelled_eq]
  cases h with
  | made => exact hnext
  | related => exact hnext
  | replaced cell => exact hlive _ (mem_of_getElem? cell)
  | removedNode cell => exact hlive _ (mem_of_getElem? cell)
  | removedTriple cell => exact hlive _ (mem_of_getElem? cell)

/-- Handles that are given out do not make a counter too long. -/
theorem Alters.next_writable (hl : l.Coherent) {u : Undo} (h : l.Alters around u l')
    (hnext : Decimal.isWritable l.env.nodes.next = true) : Decimal.isWritable l'.env.nodes.next = true := by
  have hself := hl.tabled.bounds _ hl.tabled.self
  cases h with
  | made _ _ _ room hb => exact hb.next ▸ Decimal.isWritable_handle (by omega) (by omega)
  | related _ _ _ room hb => exact hb.next ▸ Decimal.isWritable_handle (by omega) (by omega)
  | replaced _ _ hb => exact hb.next ▸ hnext
  | removedNode _ _ _ _ hb => exact hb.next ▸ hnext
  | removedTriple _ _ _ hb => exact hb.next ▸ hnext

theorem next_ne_self (hl : l.Coherent) : l.env.nodes.next ≠ selfHandle := by
  have := hl.tabled.bounds _ hl.tabled.self
  intro h
  rw [h] at this
  exact Int.lt_irrefl _ this.2

/-- Every alteration can be undone from what restores its result, if what a replaced structure
mentions is known there. -/
theorem Alters.undoes (hl : l.Coherent) {u : Undo} (h : l.Alters around u l₁) (h₂ : l₁.Restored l₂)
    (around₂ : Surroundings) (hk : ∀ n previous, u = .restructured n previous →
      ∀ m ∈ (Cell.plain previous).mentions, l₂.Knows around₂ m) :
    Ends (u.perform around₂) l₂
      (fun _ l₃ => l.Restored l₃ ∧ l₂.Becomes l₃ (u.back l₂.env.contents) l₂.env.nodes.next)
      (fun _ _ => False) := by
  have hfresh := hl.tabled.fresh hl.tabled.fresh_handle
  cases h with
  | @made _ c name _ _ _ _ h =>
    refine discard_undoes h (Int.le_of_lt (Int.lt_succ _)) ?_ (next_ne_self hl)
      (hfresh.without_put c name) h₂
    have : ((l.env.contents.put l.env.nodes.next c).called l.env.nodes.next name).cells =
        l.env.nodes.cells.insert l.env.nodes.next c := by
      cases name <;> rfl
    rw [this]
    exact (mem_insert_iff _ _ _ _).2 (.inl rfl)
  | related _ _ _ _ h =>
    exact discard_undoes h (Int.le_of_lt (Int.lt_succ _)) ((mem_insert_iff _ _ _ _).2 (.inl rfl))
      (next_ne_self hl) (hfresh.without_relate _) h₂
  | replaced cell _ h =>
    refine (setStructure_undoes cell h h₂ (hk _ _ rfl)).bind ?_ fun _ _ h => h
    exact fun _ _ h => h
  | removedNode cell hc name _ h => exact reinstateNode_undoes hl cell hc name h h₂
  | removedTriple cell st _ h => exact reinstateTriple_undoes hl cell st h h₂

/-- Where something that a replaced structure mentions is gone, the alteration is not undone, and
nothing happens. Nothing else is in the way of undoing. -/
theorem Alters.undoes_or_stays (hl : l.Coherent) {u : Undo} (h : l.Alters around u l₁) (h₂ : l₁.Restored l₂)
    (around₂ : Surroundings) :
    Ends (u.perform around₂) l₂
      (fun _ l₃ => l.Restored l₃ ∧ l₂.Becomes l₃ (u.back l₂.env.contents) l₂.env.nodes.next)
      (fun _ l₃ => l₃ = l₂ ∧ ∃ n previous, u = .restructured n previous) := by
  by_cases hk : ∀ n previous, u = .restructured n previous →
      ∀ m ∈ (Cell.plain previous).mentions, l₂.Knows around₂ m
  · exact (h.undoes hl h₂ around₂ hk).mono (fun _ _ h => h) fun _ _ h => h.elim
  · simp only [Classical.not_forall] at hk
    obtain ⟨n, previous, rfl, m, hm, hnot⟩ := hk
    refine (setStructure_ends h₂.coherent around₂ n previous).bind ?_ fun _ _ h => ⟨h.1, n, previous, rfl⟩
    intro _ l₃ ⟨_, _, _, known, _⟩
    exact absurd (known m hm) hnot

/-- A change with a label that cannot be written takes something away if anything: what is left after it is left of
what was there before, too. -/
theorem Alters.leaves_of_unlabelled (hl : l.Coherent) {u : Undo} (h : l.Alters around u l₁)
    (hu : u.isLabelled = false) (h₂ : l₁.Leaves l₂) : l.Leaves l₂ := by
  have hlong : Decimal.isWritable l.env.nodes.next = true → l.Restored l₂ := fun hnext =>
    nomatch hu.symm.trans (h.labelled hl hnext)
  rw [Undo.isLabelled_eq] at hu
  have hd := h₂.dwindles
  have hle := h₂.next
  cases h with
  | made _ _ _ room => exact nomatch hu.symm.trans (hl.room_writable room)
  | related _ _ _ room => exact nomatch hu.symm.trans (hl.room_writable room)
  | replaced cell known hb =>
    rw [hb.contents] at hd
    exact ⟨h₂.coherent, h₂.id.trans hb.id, h₂.pins.trans hb.pins, hd.of_put cell, hb.next ▸ hle, hlong⟩
  | removedNode _ _ _ _ hb =>
    rw [hb.contents] at hd
    exact ⟨h₂.coherent, h₂.id.trans hb.id, h₂.pins.trans hb.pins, hd.of_without, hb.next ▸ hle, hlong⟩
  | removedTriple _ _ _ hb =>
    rw [hb.contents] at hd
    exact ⟨h₂.coherent, h₂.id.trans hb.id, h₂.pins.trans hb.pins, hd.of_without, hb.next ▸ hle, hlong⟩

/-- What undoing an alteration leaves of its result is left of what was there before it, or nothing happens. -/
theorem Alters.undoes_leaving (hl : l.Coherent) {u : Undo} (h : l.Alters around u l₁) (h₂ : l₁.Leaves l₂)
    (around₂ : Surroundings) :
    Ends (u.perform around₂) l₂
      (fun _ l₃ => l.Leaves l₃ ∧ l₂.Becomes l₃ (u.back l₂.env.contents) l₂.env.nodes.next)
      (fun _ l₃ => l₃ = l₂ ∧ ∃ n previous, u = .restructured n previous) := by
  by_cases hnext : Decimal.isWritable l.env.nodes.next = true
  · exact (h.undoes_or_stays hl (h₂.restored (h.next_writable hl hnext)) around₂).mono
      (fun _ _ h => ⟨h.1.leaves, h.2⟩) fun _ _ h => h
  have hd := h₂.dwindles
  have hle := h₂.next
  have hdone : ∀ {g g' : Contents} {l₃ : Locale}, l.Becomes l₁ g l.env.nodes.next →
      l₂.Becomes l₃ g' l₂.env.nodes.next → l.env.contents.Dwindles g' →
        l.Leaves l₃ ∧ l₂.Becomes l₃ g' l₂.env.nodes.next := fun hb h₃ hg =>
    ⟨⟨h₃.coherent, h₃.id.trans (h₂.id.trans hb.id), h₃.pins.trans (h₂.pins.trans hb.pins), h₃.contents ▸ hg,
      h₃.next ▸ hb.next ▸ hle, fun h => absurd h hnext⟩, h₃⟩
  cases h with
  | made _ _ _ room => exact absurd (hl.room_writable room) hnext
  | related _ _ _ room => exact absurd (hl.room_writable room) hnext
  | @replaced _ h previous _ cell _ hb =>
    rw [hb.contents] at hd
    refine (setStructure_ends h₂.coherent around₂ _ _).bind ?_ fun _ _ h => ⟨h.1, _, _, rfl⟩
    rintro _ l₃ ⟨n, hr, -, -, h₃⟩
    have hn : n = l₂.env.node h := by
      cases hr.eq
      rw [← hr.node_eq, Environment.node, Environment.node, Environment.node]
    subst hn
    exact hdone hb h₃ ((hd.of_put cell).put cell)
  | removedNode cell hc name _ hb =>
    rw [hb.contents] at hd
    exact (reinstateNode_again hl h₂.coherent (h₂.id.trans hb.id) cell hc name (hb.next ▸ hle) hd).mono
      (fun _ l₃ h₃ => hdone hb h₃ (hd.put_again cell name)) fun _ _ h => h.elim
  | removedTriple cell st _ hb =>
    rw [hb.contents] at hd
    exact (reinstateTriple_again hl h₂.coherent cell st (hb.next ▸ hle) hd).mono
      (fun _ l₃ h₃ => hdone hb h₃ (hd.relate_again cell st)) fun _ _ h => h.elim

/-- It is undone, or there is a reason why it cannot be. -/
theorem Alters.undo_settles (hl : l.Coherent) {u : Undo} (h : l.Alters around u l₁) (h₂ : l₁.Leaves l₂)
    (around₂ : Surroundings) : Settles (u.perform around₂) l₂ := by
  -- only giving a structure back can be refused, when something that it mentions is gone
  by_cases hu : ∃ n previous, u = .restructured n previous
  · obtain ⟨n, previous, rfl⟩ := hu
    exact (setStructure_settles l₂ around₂ n previous).bind (.always (fun _ _ => trivial) fun _ _ => trivial)
      fun _ _ _ => trivial
  · exact ((h.undoes_leaving hl h₂ around₂).mono (fun _ _ h => h) fun _ _ h => hu h.2).settles

/-! ## Room for another handle -/

/-- What goes on with a new handle found room for it. -/
theorem allocate_room {α : Type} (hl : l.Coherent) (f : Int → Op α) :
    Ends (allocate >>= f) l (fun _ _ => l.env.nodes.next ≤ maxHandle) (fun _ _ => True) :=
  (allocate_ends hl).bind (fun _ _ ⟨hh, hmax, _⟩ => .always (fun _ _ => hh ▸ hmax) fun _ _ => trivial)
    fun _ _ _ => trivial

theorem createNode_room (hl : l.Coherent) (around : Surroundings) (name : Option String)
    (content : Option Structure) :
    Ends (createNode around name content) l (fun _ _ => l.env.nodes.next ≤ maxHandle) (fun _ _ => True) := by
  unfold createNode
  refine (checkForeign_ends l around content).test ?_ fun _ _ _ => trivial
  intro _ _
  rw [ends_bind, ends_get]
  dsimp only
  split
  · trivial
  · refine (checkLocal_ends l around content).test ?_ fun _ _ _ => trivial
    exact fun _ _ => allocate_room hl _

theorem importNode_room (hl : l.Coherent) (around : Surroundings) (s : Structure) :
    Ends (importNode around s) l (fun r _ => r.2 = true → l.env.nodes.next ≤ maxHandle) (fun _ _ => True) := by
  unfold importNode
  cases s with
  | node t =>
    rw [ends_bind, ends_get]
    dsimp only
    split
    · trivial
    refine (checkForeign_ends l around (some (.node t))).test ?_ fun _ _ _ => trivial
    intro _ _
    split
    · exact fun h => absurd h Bool.false_ne_true
    · exact (allocate_room hl _).mono (fun _ _ h _ => h) fun _ _ h => h
  | _ => trivial

theorem insertTriple_room (hl : l.Coherent) (s p o : Structure) :
    Ends (insertTriple s p o) l (fun r _ => r.2 = true → l.env.nodes.next ≤ maxHandle) (fun _ _ => True) := by
  unfold insertTriple
  refine (resident_ends l s).test ?_ fun _ _ _ => trivial
  intro _ _
  refine (resident_ends l p).test ?_ fun _ _ _ => trivial
  intro _ _
  refine (resident_ends l o).test ?_ fun _ _ _ => trivial
  intro _ _
  rw [ends_bind, ends_get]
  dsimp only
  split
  · exact fun h => absurd h Bool.false_ne_true
  · exact (allocate_room hl _).mono (fun _ _ h _ => h) fun _ _ h => h

/-! ## Operations are alterations -/

theorem createNode_alters (hl : l.Coherent) (around : Surroundings) (name : Option String)
    (content : Option Structure) :
    Ends (createNode around name content) l (fun n l' => l.Alters around (.created n) l')
      (fun _ l' => l' = l) :=
  ((createNode_ends hl around name content).and (createNode_room hl around name content)).mono
    (fun _ _ ⟨⟨hn, free, known, h⟩, room⟩ => hn ▸ .made (by simp) known free room h) fun _ _ h => h.1.1

theorem setStructure_alters (hl : l.Coherent) (around : Surroundings) (n : Node)
    (content : Option Structure) :
    Ends (setStructure around n content) l
      (fun previous l' => l.Alters around (.restructured n previous) l') (fun _ l' => l' = l) := by
  refine (setStructure_ends hl around n content).mono ?_ fun _ _ h => h.1
  rintro previous l' ⟨m, hr, cell, known, h⟩
  cases hr.eq
  rw [← hr.node_eq]
  exact .replaced cell known h

theorem importNode_alters (hl : l.Coherent) (around : Surroundings) (s : Structure) :
    Ends (importNode around s) l
      (fun r l' => (r.2 = true ∧ l.Alters around (.created r.1) l') ∨ (r.2 = false ∧ l' = l))
      (fun _ l' => l' = l) := by
  refine ((importNode_ends hl around s).and (importNode_room hl around s)).mono ?_ fun _ _ h => h.1
  rintro r l' ⟨⟨t, rfl, henv, hres, ⟨hr, rfl⟩ | ⟨rfl, -, h⟩⟩, room⟩
  · exact .inr ⟨hr, rfl⟩
  · have free : ∀ s, (none : Option String) = some s → l.env.nodes.names[s]? = none := fun s hs => by cases hs
    refine .inl ⟨rfl, .made (by simp) (fun m hm => ?_) free (room rfl) h⟩
    obtain rfl : m = t := by simpa [Cell.mentions, Cell.content, Structure.mentions] using hm
    exact ⟨fun h => absurd h henv, fun _ => hres⟩

theorem insertTriple_alters (hl : l.Coherent) (around : Surroundings) (s p o : Structure) :
    Ends (insertTriple s p o) l
      (fun r l' => (r.2 = true ∧ l.Alters around (.created r.1) l') ∨ (r.2 = false ∧ l' = l))
      (fun _ l' => l' = l) := by
  refine ((insertTriple_ends hl s p o).and (insertTriple_room hl s p o)).mono ?_ fun _ _ h => h.1.1
  rintro r l' ⟨⟨s, p, o, hs, hp, ho, ⟨hr, rfl, -⟩ | ⟨rfl, -, h⟩⟩, room⟩
  · exact .inr ⟨hr, rfl⟩
  · exact .inl ⟨rfl, .related hs.live hp.live ho.live (room rfl) h⟩

theorem deleteNode_alters (hl : l.Coherent) (around : Surroundings) (n : Node) :
    Ends (deleteNode around n) l (fun was l' => l.Alters around (.deletedNode n was) l')
      (fun _ l' => l' = l) := by
  refine (deleteNode_ends hl around n).mono ?_ fun _ _ h => h
  rintro was l' ⟨m, hr, cell, hc, name, unused, h⟩
  cases hr.eq
  rw [← hr.node_eq]
  exact .removedNode cell hc name unused h

theorem deleteTriple_alters (hl : l.Coherent) (around : Surroundings) (n : Node) :
    Ends (deleteTriple around n) l
      (fun r l' => l.Alters around (.deletedTriple n r.1 r.2.1 r.2.2) l') (fun _ l' => l' = l) := by
  refine (deleteTriple_ends hl around n).mono ?_ fun _ _ h => h
  rintro r l' ⟨m, st, hr, cell, hst, rfl, unused, h⟩
  cases hr.eq
  rw [← hr.node_eq]
  exact .removedTriple cell hst unused h

/-! ## Lists of alterations -/

/-- Alterations one after the other, with what undoes them, the newest first. -/
inductive Alterations (around : Surroundings) (l : Locale) : List Undo → Locale → Prop where
  | none : Alterations around l [] l
  | more {us : List Undo} {u : Undo} {l₁ l₂ : Locale} (h : Alterations around l us l₁)
      (h' : l₁.Alters around u l₂) : Alterations around l (u :: us) l₂

theorem Alterations.coherent (hl : l.Coherent) {us : List Undo} (h : l.Alterations around us l') :
    l'.Coherent := by
  cases h with
  | none => exact hl
  | more _ h' =>
    obtain ⟨g, next, hb, -⟩ := h'.becomes
    exact hb.coherent

theorem Alterations.created_labelled (hl : l.Coherent) {ns : List Node} :
    ∀ {l' : Locale}, l.Alterations around (ns.map .created) l' → ∀ u ∈ ns.map Undo.created, u.isLabelled = true := by
  induction ns with
  | nil => exact fun _ _ hu => nomatch hu
  | cons n ns ih =>
    intro l' h
    cases h with
    | more h h' =>
      exact List.forall_mem_cons.2 ⟨h'.created_labelled (h.coherent hl), ih h⟩

theorem Alterations.id {us : List Undo} (h : l.Alterations around us l') : l'.env.id = l.env.id := by
  induction h with
  | none => rfl
  | more _ h' ih =>
    obtain ⟨g, next, hb, -⟩ := h'.becomes
    exact hb.id.trans ih

theorem Alterations.elsewhere {us : List Undo} (h : l.Alterations around us l') : l.Elsewhere l' := by
  induction h with
  | none => exact .refl l
  | more h h' ih =>
    obtain ⟨g, next, hb, -⟩ := h'.becomes
    exact ih.trans hb.elsewhere h.id

/-- What was made can be removed again, the newest first. The handles stay given out. -/
theorem discardAll_undoes (hl : l.Coherent) {ns : List Node} :
    ∀ {l₁ l₂ : Locale}, l.Alterations around (ns.map .created) l₁ → l₁.Restored l₂ →
      Ends (discardAll ns) l₂
        (fun _ l₃ => l.Restored l₃ ∧ l₂.Elsewhere l₃ ∧ l₃.env.nodes.next = l₂.env.nodes.next)
        (fun _ _ => False) := by
  induction ns with
  | nil =>
    intro l₁ l₂ h h₂
    cases h
    exact ⟨h₂, .refl l₂, rfl⟩
  | cons n ns ih =>
    intro l₁ l₂ h h₂
    cases h with
    | @more _ _ l₀ _ h h' =>
      have hl₀ := h.coherent hl
      have hn : Ends (discard n) l₂ (fun _ l₃ => l₀.Restored l₃ ∧
          l₂.Becomes l₃ ((Undo.created n).back l₂.env.contents) l₂.env.nodes.next) fun _ _ => False :=
        h'.undoes (h.coherent hl) h₂ .alone fun _ _ e => by cases e
      refine hn.bind ?_ fun _ _ h => h
      rintro - l₃ ⟨h₃, hb⟩
      refine (ih h h₃).mono ?_ fun _ _ h => h
      rintro - l₄ ⟨h₄, he', hnext⟩
      refine ⟨h₄, hb.elsewhere.trans he' ?_, hnext.trans hb.next⟩
      obtain ⟨g, next, hb, -⟩ := h'.becomes
      rw [h₃.id, h₂.id, hb.id]

end Locale

/-! ## Regions -/

namespace Building

variable {around : Surroundings}

theorem ends_lift {α : Type} (op : Op α) {b : Building} {Q : α → Building → Prop} {E : Fault → Building → Prop} :
    Ends (lift op) b Q E ↔
      Ends op b.locale (fun a l => Q a { b with locale := l }) (fun f l => E f { b with locale := l }) := by
  unfold Ends lift
  cases op b.locale <;> exact Iff.rfl

/-- An invariant that new nodes and new triples keep, whatever the heads are, and neither fails but by a test of its
own. -/
structure Lasting (around : Surroundings) (I : Building → Prop) : Prop where
  node : ∀ content, Sustains I Fault.IsOwn (freshNode around content)
  triple : ∀ (s p o : Structure) {rest : Step Unit}, Sustains I Fault.IsOwn rest → Sustains I Fault.IsOwn (do
    let (n, new) ← lift (Locale.insertTriple s p o)
    if new then note n
    rest)
  heads : ∀ b heads, I b → I { b with heads }

section
variable {I : Building → Prop}

theorem Lasting.head (hI : Lasting around I) (s : Structure) : Sustains I Fault.IsOwn (head around s) := by
  unfold Building.head
  split
  · refine sustains_get fun b _ => ?_
    split
    · exact sustains_pure _
    · refine sustains_get fun b _ => ?_
      refine (hI.node _).bind fun made => ?_
      exact Sustains.bind (sustains_modify fun b hb => hI.heads b _ hb) fun _ => sustains_pure made
  · exact sustains_throw rfl
  · exact hI.node _

theorem predicate_sustains (s : Structure) : Sustains I Fault.IsOwn (predicate s) := by
  unfold predicate
  split
  · exact sustains_pure _
  · refine sustains_get fun b _ => ?_
    split
    · exact sustains_pure _
    · exact sustains_throw rfl
  · exact sustains_throw rfl

mutual

/-- Making a region keeps what every one of its nodes and triples keeps. -/
theorem Lasting.build (hI : Lasting around I) (s : Structure) : Sustains I Fault.IsOwn (build around s) := by
  match s with
  | .node n => exact sustains_pure n
  | .pair car cdr =>
    unfold Building.build
    refine (hI.head car).bind fun made => ?_
    exact (hI.buildEntries _ made cdr).bind fun _ => sustains_pure made
  | .nothing => exact sustains_throw rfl
  | .int n => exact hI.node _
  | .bool b => exact hI.node _
  | .str s => exact hI.node _
  | .sym s => exact hI.node _
  | .nil => exact hI.node _
  | .proc ps body scope => exact hI.node _

theorem Lasting.buildEntries (hI : Lasting around I) (whole : Structure) (made : Node) (s : Structure) :
    Sustains I Fault.IsOwn (buildEntries around whole made s) := by
  unfold Building.buildEntries
  split
  · next p child rest =>
    refine (predicate_sustains p).bind fun relation => ?_
    refine (hI.build child).bind fun value => ?_
    exact hI.triple _ _ _ (hI.buildEntries whole made rest)
  · exact sustains_throw rfl
  · exact sustains_pure _
  · exact sustains_throw rfl

end

end

/-- What has been made so far is what the alterations so far have made. -/
def Grown (around : Surroundings) (l : Locale) (b : Building) : Prop :=
  l.Alterations around (b.created.map .created) b.locale

theorem lasting_grown {l : Locale} (hl : l.Coherent) : Lasting around (Grown around l) where
  node content b hb := by
    unfold freshNode
    rw [ends_bind, ends_lift]
    have hb' := hb.coherent hl
    have halters := Locale.createNode_alters hb' around none content
    refine (halters.owned (Locale.createNode_settles hb' around none content)).mono ?_ ?_
    · exact fun n l' h => .more hb h
    · rintro f _ ⟨rfl, hf⟩
      exact ⟨hb, hf⟩
  triple s p o rest hrest b hb := by
    rw [ends_bind, ends_lift]
    have halters := Locale.insertTriple_alters (hb.coherent hl) around s p o
    refine (halters.owned (Locale.insertTriple_settles _ s p o)).mono ?_ ?_
    · rintro ⟨n, new⟩ l' (⟨rfl, h⟩ | ⟨rfl, rfl⟩)
      · exact hrest ⟨l', n :: b.created, b.heads⟩ (.more hb h)
      · exact hrest b hb
    · rintro f _ ⟨rfl, hf⟩
      exact ⟨hb, hf⟩
  heads _ _ hb := hb

end Building

namespace Locale

variable {l : Locale}

/-- Making a region never fails as such: what it made is returned with the root or the failure, which is of its
own. -/
theorem raise_ends (hl : l.Coherent) (around : Surroundings) (s : Structure) :
    Ends (raise around s) l (fun r l' => l.Alterations around (r.2.map .created) l' ∧ Answered r.1)
      (fun _ _ => False) := by
  have h := (Building.lasting_grown hl : Building.Lasting around _).build s ⟨l, [], ∅⟩ .none
  unfold Ends raise at *
  cases hb : Building.build around s ⟨l, [], ∅⟩ with
  | ok n b =>
    rw [hb] at h
    exact ⟨h, answered_ok n⟩
  | error fault b =>
    rw [hb] at h
    exact ⟨h.1, answered_error h.2⟩

theorem raise_alters (hl : l.Coherent) (around : Surroundings) (s : Structure) :
    Ends (raise around s) l (fun r l' => l.Alterations around (r.2.map .created) l') (fun _ _ => False) :=
  (raise_ends hl around s).mono (fun _ _ h => h.1) fun _ _ h => h

/-- A region that cannot be made leaves nothing behind. -/
theorem rebuild_ends (hl : l.Coherent) (around : Surroundings) (s : Structure) :
    Ends (rebuild around s) l (fun _ l' => ∃ us, l.Alterations around us l')
      (fun _ l' => l.Restored l' ∧ l.Elsewhere l') := by
  unfold rebuild
  refine (raise_alters hl around s).bind ?_ fun _ _ h => h.elim
  rintro ⟨result, created⟩ l₁ h
  cases result with
  | ok n => exact ⟨_, h⟩
  | error fault =>
    have hr : l₁.Restored l₁ := ⟨h.coherent hl, rfl, rfl, .refl _, Int.le_refl _⟩
    refine (discardAll_undoes hl h hr).bind ?_ fun _ _ h => h.elim
    rintro - l₃ ⟨h₃, he, -⟩
    exact ⟨h₃, h.elsewhere.trans he h.id⟩

/-- What was made of a region that cannot be made is removed again, whatever the failure. -/
theorem rebuild_settles (hl : l.Coherent) (around : Surroundings) (s : Structure) : Settles (rebuild around s) l := by
  refine (raise_ends hl around s).settles.bind (raise_ends hl around s) ?_
  rintro ⟨result, created⟩ l₁ ⟨h, hresult⟩
  cases result with
  | ok n => trivial
  | error fault =>
    have hr : l₁.Restored l₁ := ⟨h.coherent hl, rfl, rfl, .refl _, Int.le_refl _⟩
    exact (discardAll_undoes hl h hr).bind (fun _ _ _ => hresult fault rfl) fun _ _ h => h.elim

end Locale

end GraphLisp
