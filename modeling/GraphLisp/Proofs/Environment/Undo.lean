import GraphLisp.Journal
import GraphLisp.Proofs.Environment.Operations
/-!
# Undoing changes

What a journal records of a change is enough to undo it, whatever was done and undone in between:
`Locale.Restored l l'` says that `l'` is `l` again, with a counter that may have moved on, and with
names of triples that may be lost, since no journal records them. Each way to undo a change leads
from what restores the state after the change to what restores the state before it, and `Undo.back`
says what it does to the contents.

Where changes were not recorded, rolling back does not restore what there was. `Locale.Leaves l l'` says
that `l'` is what is left of `l` then: nothing new is there, but something may be missing.
-/

namespace GraphLisp

open Std

/-- The contents that undoing a change leaves. -/
def Undo.back (g : Contents) : Undo → Contents
  | .created n => g.without n.id
  | .restructured n previous => g.put n.id (.plain previous)
  | .deletedNode n was => (g.put n.id was.cell).called n.id was.name
  | .deletedTriple n s p o => g.relate n.id ⟨s.id, p.id, o.id⟩

/-! ## Fading -/

/-- The contents are the same, except that triples may have lost their names. -/
structure Contents.Fades (g g' : Contents) : Prop where
  cells : g'.cells = g.cells
  statements : g'.statements = g.statements
  /-- There are no new names. -/
  names : ∀ (h : Int) (s : String), g'.nameOf[h]? = some s → g.nameOf[h]? = some s
  kept : ∀ h : Int, g.cells[h]? ≠ some .triple → g'.nameOf[h]? = g.nameOf[h]?

namespace Contents

/-- There is nothing in the second contents that was not in the first, except that nodes may hold something else. -/
structure Dwindles (g g' : Contents) : Prop where
  cells : ∀ (h : Int) (c' : Cell), g'.cells[h]? = some c' → ∃ c, g.cells[h]? = some c ∧
    (c' = c ∨ ∃ content content', c = .plain content ∧ c' = .plain content')
  names : ∀ (h : Int) (s : String), g'.nameOf[h]? = some s → g.nameOf[h]? = some s
  statements : ∀ (h : Int) (st : Statement), g'.statements[h]? = some st → g.statements[h]? = some st

/-- A handle that stands for nothing, has no name and no statement. -/
structure Fresh (g : Contents) (h : Int) : Prop where
  cell : g.cells[h]? = none
  name : g.nameOf[h]? = none
  statement : g.statements[h]? = none

theorem Fades.refl (g : Contents) : g.Fades g := ⟨rfl, rfl, fun _ _ h => h, fun _ _ => rfl⟩

theorem Fades.trans {g g' g'' : Contents} (h : g.Fades g') (h' : g'.Fades g'') : g.Fades g'' where
  cells := h'.cells.trans h.cells
  statements := h'.statements.trans h.statements
  names k s hk := h.names k s (h'.names k s hk)
  kept k hk := (h'.kept k (by rw [h.cells]; exact hk)).trans (h.kept k hk)

theorem Fades.dwindles {g g' : Contents} (h : g.Fades g') : g.Dwindles g' where
  cells _ c' hc' := ⟨c', h.cells ▸ hc', .inl rfl⟩
  names := h.names
  statements _ _ hk := h.statements ▸ hk

/-- Nothing is new where something is removed. -/
theorem Dwindles.of_without {g g' : Contents} {k : Int} (h : (g.without k).Dwindles g') : g.Dwindles g' where
  cells x c' hc' := by
    obtain ⟨c, hc, hsame⟩ := h.cells x c' hc'
    exact ⟨c, ((getElem?_erase_iff _ _ _ _).1 hc).2, hsame⟩
  names x s hs := ((getElem?_erase_iff _ _ _ _).1 (h.names x s hs)).2
  statements x st hst := ((getElem?_erase_iff _ _ _ _).1 (h.statements x st hst)).2

/-- What a node holds does not matter. -/
theorem Dwindles.of_put {g g' : Contents} {k : Int} {content content' : Option Structure}
    (hk : g.cells[k]? = some (.plain content)) (h : (g.put k (.plain content')).Dwindles g') : g.Dwindles g' where
  cells x c' hc' := by
    obtain ⟨c, hc, hsame⟩ := h.cells x c' hc'
    rcases (getElem?_insert_iff _ _ _ _ _).1 hc with ⟨rfl, rfl⟩ | ⟨-, hc⟩
    · refine ⟨_, hk, .inr ?_⟩
      rcases hsame with rfl | ⟨-, held, -, rfl⟩
      · exact ⟨content, content', rfl, rfl⟩
      · exact ⟨content, held, rfl, rfl⟩
    · exact ⟨c, hc, hsame⟩
  names := h.names
  statements := h.statements

/-- A node that is still there may hold anything. -/
theorem Dwindles.put {g g' : Contents} (h : g.Dwindles g') {k : Int} {content : Option Structure}
    (hk : g.cells[k]? = some (.plain content)) : g.Dwindles (g'.put k (.plain content)) where
  cells x c' hc' := by
    rcases (getElem?_insert_iff _ _ _ _ _).1 hc' with ⟨rfl, rfl⟩ | ⟨-, hc'⟩
    · exact ⟨_, hk, .inl rfl⟩
    · exact h.cells x c' hc'
  names := h.names
  statements := h.statements

/-- What was removed may come back as it was. -/
theorem Dwindles.put_again {g g' : Contents} {k : Int} {c : Cell} {name : Option String}
    (h : (g.without k).Dwindles g') (hk : g.cells[k]? = some c) (hname : name = g.nameOf[k]?) :
    g.Dwindles ((g'.put k c).called k name) := by
  subst hname
  have hcells : ((g'.put k c).called k g.nameOf[k]?).cells = (g'.put k c).cells := by
    cases g.nameOf[k]? <;> rfl
  have hsts : ((g'.put k c).called k g.nameOf[k]?).statements = g'.statements := by
    cases g.nameOf[k]? <;> rfl
  refine ⟨fun x c' hc' => ?_, fun x s hs => ?_, fun x st hst => h.of_without.statements x st (hsts ▸ hst)⟩
  · rw [hcells] at hc'
    rcases (getElem?_insert_iff _ _ _ _ _).1 hc' with ⟨rfl, rfl⟩ | ⟨-, hc'⟩
    · exact ⟨_, hk, .inl rfl⟩
    · exact h.of_without.cells x c' hc'
  · cases hname : g.nameOf[k]? with
    | none =>
      rw [hname] at hs
      exact h.of_without.names x s hs
    | some s' =>
      rw [hname] at hs
      rcases (getElem?_insert_iff _ _ _ _ _).1 hs with ⟨rfl, rfl⟩ | ⟨-, hs⟩
      · exact hname
      · exact h.of_without.names x s hs

theorem Dwindles.relate_again {g g' : Contents} {k : Int} {st : Statement} (h : (g.without k).Dwindles g')
    (hk : g.cells[k]? = some .triple) (hst : g.statements[k]? = some st) : g.Dwindles (g'.relate k st) where
  cells x c' hc' := by
    rcases (getElem?_insert_iff _ _ _ _ _).1 hc' with ⟨rfl, rfl⟩ | ⟨-, hc'⟩
    · exact ⟨_, hk, .inl rfl⟩
    · exact h.of_without.cells x c' hc'
  names := h.of_without.names
  statements x st' hx := by
    rcases (getElem?_insert_iff _ _ _ _ _).1 hx with ⟨rfl, rfl⟩ | ⟨-, hx⟩
    · exact hst
    · exact h.of_without.statements x st' hx

theorem Fades.without {g g' : Contents} (h : g.Fades g') (k : Int) :
    (g.without k).Fades (g'.without k) where
  cells := by simp only [Contents.without, h.cells]
  statements := by simp only [Contents.without, h.statements]
  names x s hx := by
    have hx' := (getElem?_erase_iff _ _ _ _).1 hx
    exact (getElem?_erase_iff _ _ _ _).2 ⟨hx'.1, h.names x s hx'.2⟩
  kept x hx := by
    refine Option.ext fun s => ?_
    simp only [Contents.without, getElem?_erase_iff] at hx ⊢
    exact and_congr_right fun hxk => iff_of_eq (by rw [h.kept x fun e => hx ((getElem?_erase_iff _ _ _ _).2 ⟨hxk, e⟩)])

theorem Fades.kept_without {g g' : Contents} {h k : Int} (hf : (g.without h).Fades g') (hk : k ≠ h)
    (hc : g.cells[k]? ≠ some .triple) : g'.nameOf[k]? = g.nameOf[k]? := by
  refine (hf.kept k fun e => hc ((getElem?_erase_iff _ _ _ _).1 e).2).trans ?_
  exact getElem?_erase_of_ne _ hk

theorem Fades.put {g g' : Contents} (h : g.Fades g') (k : Int) (c : Cell)
    (hk : g.cells[k]? ≠ some .triple) : (g.put k c).Fades (g'.put k c) where
  cells := by simp only [Contents.put, h.cells]
  statements := h.statements
  names := h.names
  kept x hx := by
    by_cases hxk : x = k
    · exact h.kept x (by rw [hxk]; exact hk)
    · exact h.kept x fun e => hx ((getElem?_insert_iff _ _ _ _ _).2 (.inr ⟨hxk, e⟩))

/-- Without names of triples nothing can be lost. -/
theorem Fades.eq {g g' : Contents} (h : g.Fades g')
    (hn : ∀ k : Int, g.cells[k]? = some .triple → g.nameOf[k]? = none) : g' = g := by
  obtain ⟨cells, nameOf, statements⟩ := g
  obtain ⟨cells', nameOf', statements'⟩ := g'
  cases h.cells
  cases h.statements
  have : nameOf' = nameOf := by
    refine ExtTreeMap.ext_getElem? fun k => ?_
    by_cases hk : cells[k]? = some Cell.triple
    · refine Eq.trans (Option.eq_none_iff_forall_ne_some.2 fun s hs => ?_) (hn k hk).symm
      have := (h.names k s hs).symm.trans (hn k hk)
      cases this
    · exact h.kept k hk
  rw [this]

/-- A node that was made is gone when its handle is removed. -/
theorem Fresh.without_put {g : Contents} {h : Int} (hg : g.Fresh h) (c : Cell) (name : Option String) :
    ((g.put h c).called h name).without h = g := by
  obtain ⟨cells, nameOf, statements⟩ := g
  cases name with
  | none =>
    simp only [called, put, without, mk.injEq]
    exact ⟨erase_insert_of_absent _ hg.cell, erase_of_absent hg.name, erase_of_absent hg.statement⟩
  | some s =>
    simp only [called, named, put, without, mk.injEq]
    exact ⟨erase_insert_of_absent _ hg.cell, erase_insert_of_absent _ hg.name, erase_of_absent hg.statement⟩

theorem Fresh.without_relate {g : Contents} {h : Int} (hg : g.Fresh h) (st : Statement) :
    (g.relate h st).without h = g := by
  obtain ⟨cells, nameOf, statements⟩ := g
  simp only [relate, without, mk.injEq]
  exact ⟨erase_insert_of_absent _ hg.cell, erase_of_absent hg.name, erase_insert_of_absent _ hg.statement⟩

theorem called_nameOf (g : Contents) (h k : Int) (name : Option String) :
    (g.called h name).nameOf[k]? = if k = h then name.or g.nameOf[h]? else g.nameOf[k]? := by
  cases name with
  | none => split <;> simp_all [called]
  | some s =>
    refine Option.ext fun v => ?_
    simp only [called, named, getElem?_insert_iff]
    split <;> simp_all [eq_comm]

/-- A node that was removed is there again when its cell and its name are. -/
theorem Fades.put_again {g g' : Contents} {h : Int} {c : Cell} (hf : (g.without h).Fades g')
    (hc : g.cells[h]? = some c) (hst : g.statements[h]? = none) :
    g.Fades ((g'.put h c).called h g.nameOf[h]?) := by
  have hcells : ∀ (g : Contents) name, (g.called h name).cells = g.cells := by
    intro g name; cases name <;> rfl
  have hsts : ∀ (g : Contents) name, (g.called h name).statements = g.statements := by
    intro g name; cases name <;> rfl
  have hgone : g'.nameOf[h]? = none := Option.eq_none_iff_forall_ne_some.2 fun s hs =>
    ((getElem?_erase_iff _ _ _ _).1 (hf.names h s hs)).1 rfl
  have hown : ((g'.put h c).called h g.nameOf[h]?).nameOf[h]? = g.nameOf[h]? := by
    rw [called_nameOf, if_pos rfl]
    simp [Contents.put, hgone]
  refine ⟨?_, ?_, fun x s hx => ?_, fun x hx => ?_⟩
  · rw [hcells, Contents.put, hf.cells, Contents.without, insert_erase_table, insert_of_present hc]
  · rw [hsts, Contents.put, hf.statements, Contents.without, erase_of_absent hst]
  · by_cases hxh : x = h
    · subst hxh; rwa [hown] at hx
    · rw [called_nameOf, if_neg hxh] at hx
      exact ((getElem?_erase_iff _ _ _ _).1 (hf.names x s hx)).2
  · by_cases hxh : x = h
    · subst hxh; exact hown
    · rw [called_nameOf, if_neg hxh]
      exact hf.kept_without hxh hx

/-- A triple that was removed is there again when it is related again, but for its name. -/
theorem Fades.relate_again {g g' : Contents} {h : Int} {st : Statement} (hf : (g.without h).Fades g')
    (hc : g.cells[h]? = some .triple) (hst : g.statements[h]? = some st) :
    g.Fades (g'.relate h st) := by
  refine ⟨?_, ?_, fun x s hx => ((getElem?_erase_iff _ _ _ _).1 (hf.names x s hx)).2, fun x hx => ?_⟩
  · simp only [relate, hf.cells, Contents.without, insert_erase_table, insert_of_present hc]
  · simp only [relate, hf.statements, Contents.without, insert_erase_table, insert_of_present hst]
  · exact hf.kept_without (by rintro rfl; exact hx hc) hx

end Contents

namespace Environment

theorem Tabled.fresh {e : Environment} (he : e.Tabled) {h : Int} (hh : h ∉ e.nodes.cells) :
    e.contents.Fresh h where
  cell := ExtTreeMap.getElem?_eq_none hh
  name := Option.eq_none_iff_forall_ne_some.2 fun s hs => hh (he.named.live h s hs)
  statement := Option.eq_none_iff_forall_ne_some.2 fun _ hst =>
    hh (mem_of_getElem? ((he.statements h).1 (mem_of_getElem? hst)))

end Environment

namespace Locale

/-- The second locale is the first one again. -/
structure Restored (l l' : Locale) : Prop where
  coherent : l'.Coherent
  id : l'.env.id = l.env.id
  pins : l'.env.pins = l.env.pins
  contents : l.env.contents.Fades l'.env.contents
  next : l.env.nodes.next ≤ l'.env.nodes.next

/-- The second locale is what is left of the first one. Nothing is missing unless the counter is too long to be
written. -/
structure Leaves (l l' : Locale) : Prop where
  coherent : l'.Coherent
  id : l'.env.id = l.env.id
  pins : l'.env.pins = l.env.pins
  dwindles : l.env.contents.Dwindles l'.env.contents
  next : l.env.nodes.next ≤ l'.env.nodes.next
  restored : Decimal.isWritable l.env.nodes.next = true → l.Restored l'

theorem Restored.leaves {l l' : Locale} (h : l.Restored l') : l.Leaves l' :=
  ⟨h.coherent, h.id, h.pins, h.contents.dwindles, h.next, fun _ => h⟩

theorem Restored.congr {l k l' k' : Locale} (h : l.Restored l') (hk : k.env = l.env) (hk' : k'.env = l'.env)
    (hcoherent : k'.Coherent) : k.Restored k' :=
  ⟨hcoherent, by rw [hk, hk', h.id], by rw [hk, hk', h.pins], by rw [hk, hk']; exact h.contents,
    by rw [hk, hk']; exact h.next⟩

theorem Leaves.congr {l k l' k' : Locale} (h : l.Leaves l') (hk : k.env = l.env) (hk' : k'.env = l'.env)
    (hcoherent : k'.Coherent) : k.Leaves k' :=
  ⟨hcoherent, by rw [hk, hk', h.id], by rw [hk, hk', h.pins], by rw [hk, hk']; exact h.dwindles,
    by rw [hk, hk']; exact h.next, fun hnext => (h.restored (hk ▸ hnext)).congr hk hk' hcoherent⟩

theorem Leaves.mem_cells {l l' : Locale} (h : l.Leaves l') {k : Int} (hk : k ∈ l'.env.nodes.cells) :
    k ∈ l.env.nodes.cells := by
  obtain ⟨c', hc'⟩ := (mem_iff_exists_getElem? _ _).1 hk
  obtain ⟨c, hc, -⟩ := h.dwindles.cells k c' hc'
  exact mem_of_getElem? hc

theorem Restored.cells {l l' : Locale} (h : l.Restored l') :
    l'.env.nodes.cells = l.env.nodes.cells := h.contents.cells

theorem Restored.statements {l l' : Locale} (h : l.Restored l') :
    l'.env.triples.statements = l.env.triples.statements := h.contents.statements

theorem Restored.node {l l' : Locale} (h : l.Restored l') (k : Int) : l'.env.node k = l.env.node k := by
  rw [Environment.node, Environment.node, h.id]

variable {l l₁ l₂ : Locale} {around : Surroundings} {g : Contents} {next : Int}

/-- What leads back from the locale after a change leads back from what restores it, too. -/
theorem Restored.back {l₃ : Locale} {g' : Contents} {next' : Int} (h₁ : l.Becomes l₁ g next)
    (hnext : l.env.nodes.next ≤ next) (h₂ : l₁.Restored l₂) (h₃ : l₂.Becomes l₃ g' next')
    (hnext' : l₂.env.nodes.next ≤ next') (hg : l.env.contents.Fades g') :
    l.Restored l₃ where
  coherent := h₃.coherent
  id := h₃.id.trans (h₂.id.trans h₁.id)
  pins := h₃.pins.trans (h₂.pins.trans h₁.pins)
  contents := by rw [h₃.contents]; exact hg
  next := by
    have := h₂.next
    rw [h₁.next] at this
    rw [h₃.next]
    exact Int.le_trans hnext (Int.le_trans this hnext')

/-- A node or a triple is removed if it is there. -/
theorem discard_removes (hl : l.Coherent) {h : Int} (hlive : h ∈ l.env.nodes.cells) (hself : h ≠ selfHandle) :
    Ends (discard (l.env.node h)) l
      (fun _ l' => l.Becomes l' (l.env.contents.without h) l.env.nodes.next) (fun _ _ => False) := by
  obtain ⟨c, hc⟩ := (mem_iff_exists_getElem? _ _).1 hlive
  unfold discard
  refine (resident_ends l _).test ?_ fun _ l' ⟨_, hn⟩ => hn _ (resident_node hlive)
  intro n hr
  have hn : n = l.env.node h := hr.unique (resident_node hlive)
  subst hn
  refine (cell_ends hc).test ?_ fun _ _ h => h
  rintro _ rfl
  rename_i c
  have hdrop : c ≠ .triple → Ends (drop h) l
      (fun _ l' => l.Becomes l' (l.env.contents.without h) l.env.nodes.next) (fun _ _ => False) := by
    intro hct
    refine drop_plain_ends hl hlive hself ?_
    rw [hc]
    exact fun e => hct (Option.some.inj e)
  cases c with
  | plain content => exact hdrop (by simp)
  | proxy t => exact hdrop (by simp)
  | triple =>
    refine (remove_ends hl hc).bind ?_ fun _ _ h => h
    rintro st _ ⟨-, t, ht, hs, rfl⟩
    exact drop_ends hl hlive hself ht hs

/-- A node or a triple that was made can be removed again. -/
theorem discard_undoes (h₁ : l.Becomes l₁ g next) (hnext : l.env.nodes.next ≤ next)
    {h : Int} (hlive : h ∈ g.cells) (hself : h ≠ selfHandle) (hg : g.without h = l.env.contents)
    (h₂ : l₁.Restored l₂) :
    Ends (discard (l.env.node h)) l₂
      (fun _ l₃ => l.Restored l₃ ∧ l₂.Becomes l₃ (l₂.env.contents.without h) l₂.env.nodes.next)
      (fun _ _ => False) := by
  have hlive₂ : h ∈ l₂.env.nodes.cells := by
    rw [h₂.cells, h₁.cells]
    exact hlive
  rw [((h₂.node h).trans (h₁.node h)).symm]
  refine (discard_removes h₂.coherent hlive₂ hself).mono (fun _ l₃ h₃ => ⟨?_, h₃⟩) fun _ _ h => h
  refine Restored.back h₁ hnext h₂ h₃ (Int.le_refl _) ?_
  rw [← hg, ← h₁.contents]
  exact h₂.contents.without h

/-- A structure that was replaced can be put back. -/
theorem setStructure_undoes {h : Int} {previous content : Option Structure}
    (hprev : l.env.nodes.cells[h]? = some (.plain previous))
    (h₁ : l.Becomes l₁ (l.env.contents.put h (.plain content)) l.env.nodes.next)
    (h₂ : l₁.Restored l₂) (hk : ∀ m ∈ (Cell.plain previous).mentions, l₂.Knows around m) :
    Ends (setStructure around (.node (l.env.node h)) previous) l₂
      (fun _ l₃ => l.Restored l₃ ∧ l₂.Becomes l₃ (l₂.env.contents.put h (.plain previous)) l₂.env.nodes.next)
      (fun _ _ => False) := by
  have hcell : l₂.env.nodes.cells[h]? = some (.plain content) := by
    rw [h₂.cells, h₁.cells]
    exact (getElem?_insert_iff _ _ _ _ _).2 (.inl ⟨rfl, rfl⟩)
  have hnode : l.env.node h = l₂.env.node h := ((h₂.node h).trans (h₁.node h)).symm
  have hr : l₂.Resident (.node (l.env.node h)) (l₂.env.node h) :=
    hnode ▸ resident_node (mem_of_getElem? hcell)
  refine (setStructure_ends h₂.coherent around _ _).mono ?_ ?_
  · rintro _ l₃ ⟨n, hn, -, -, h₃⟩
    cases hn.unique hr
    refine ⟨Restored.back h₁ (Int.le_refl _) h₂ h₃ (Int.le_refl _) ?_, h₃⟩
    have hf := h₂.contents.put h (.plain previous)
    rw [h₁.contents, Contents.put_put] at hf
    have hsame : l.env.contents.put h (.plain previous) = l.env.contents := by
      simp only [Contents.put, Environment.contents, insert_of_present hprev]
    rw [hsame] at hf
    refine hf fun e => ?_
    rcases (getElem?_insert_iff _ _ _ _ _).1 e with ⟨-, e⟩ | ⟨e, -⟩
    · cases e
    · exact e rfl
  · rintro _ _ ⟨-, hn⟩
    exact hn ⟨_, _, hr, hcell, hk⟩

/-- What was deleted is gone until it is brought back. -/
theorem checkGone_ends {n : Node} (hn : n.id ∉ l.env.nodes.cells) {F : Fault → Locale → Prop} :
    Ends (checkGone n) l (fun _ l' => l' = l ∧ True) F := by
  unfold checkGone
  simp only [ends_bind, ends_get, hn, ↓reduceIte, ends_pure, and_self]

/-- A node can be brought back if its handle was given out and is free, if there is no other stand-in for what it
stands in for, and if nobody has its name. -/
theorem reinstateNode_brings (hl : l.Coherent) {h : Int} {was : Remains} (hgone : h ∉ l.env.nodes.cells)
    (hlow : 0 ≤ h) (hhigh : h < l.env.nodes.next) (hadmits : l.env.Admits h was.cell)
    (hname : ∀ s, was.name = some s → ∀ k, l.env.nodes.nameOf[k]? = some s → k = h) :
    Ends (reinstateNode (l.env.node h) was) l
      (fun _ l' => l.Becomes l' ((l.env.contents.put h was.cell).called h was.name) l.env.nodes.next)
      (fun _ _ => False) := by
  obtain ⟨name, c⟩ := was
  have h₁ := hold_becomes hl hlow hhigh hadmits
  -- what is left is the name
  have hfinish : ∀ s, name = some s → Ends (Locale.name h s)
      (({ l with env.nodes := l.env.nodes.receive h c } : Locale).hold h c)
      (fun _ l' => l.Becomes l' ((l.env.contents.put h c).called h name) l.env.nodes.next) (fun _ _ => False) := by
    rintro s rfl
    have hlive : h ∈ (({ l with env.nodes := l.env.nodes.receive h c } : Locale).hold h c).env.nodes.cells := by
      rw [h₁.cells]
      exact (mem_insert_iff _ _ _ _).2 (.inl rfl)
    refine (name_ends h₁.coherent hlive s).mono ?_ ?_
    · intro _ l' h₂
      rw [h₁.contents, h₁.next] at h₂
      exact h₁.trans h₂
    · rintro _ _ ⟨⟨k, hk, hs⟩, -⟩
      rw [h₁.coherent.tabled.named.inverse, h₁.nameOf] at hs
      exact hk (hname s rfl k hs)
  unfold reinstateNode
  refine (checkGone_ends hgone).test ?_ fun _ _ h => h
  intro _ _
  cases c with
  | triple => exact absurd rfl hadmits.no_triple
  | plain content =>
    cases name with
    | none => exact h₁
    | some s => exact hfinish s rfl
  | proxy t =>
    cases name with
    | none => exact h₁
    | some s => exact hfinish s rfl

/-- Where nothing is new since a node was deleted, it can be brought back. -/
theorem reinstateNode_again (hl : l.Coherent) (hl₂ : l₂.Coherent) (hid : l₂.env.id = l.env.id) {h : Int}
    {was : Remains} (hcell : l.env.nodes.cells[h]? = some was.cell) (hct : was.cell ≠ .triple)
    (hname : was.name = l.env.nodes.nameOf[h]?) (hnext : l.env.nodes.next ≤ l₂.env.nodes.next)
    (hd : (l.env.contents.without h).Dwindles l₂.env.contents) :
    Ends (reinstateNode (l.env.node h) was) l₂
      (fun _ l₃ => l₂.Becomes l₃ ((l₂.env.contents.put h was.cell).called h was.name) l₂.env.nodes.next)
      (fun _ _ => False) := by
  have hgone : h ∉ l₂.env.nodes.cells := fun hh => by
    obtain ⟨c', hc'⟩ := (mem_iff_exists_getElem? _ _).1 hh
    obtain ⟨c, hc, -⟩ := hd.cells h c' hc'
    exact ((getElem?_erase_iff _ _ _ _).1 hc).1 rfl
  have hb := hl.tabled.bounds h (mem_of_getElem? hcell)
  have hnode : l.env.node h = l₂.env.node h := by rw [Environment.node, Environment.node, hid]
  rw [hnode]
  refine reinstateNode_brings hl₂ hgone hb.1 (Int.lt_of_lt_of_le hb.2 hnext)
    ⟨fun c' hc' => absurd (mem_of_getElem? hc') hgone, hct, ?_⟩ ?_
  · intro t ht
    rw [ht] at hcell
    refine ⟨by rw [hid]; exact hl.tabled.abroad h t hcell, Option.eq_none_iff_forall_ne_some.2 fun k hk => ?_⟩
    obtain ⟨c, hc, hsame⟩ := hd.cells k _ ((hl₂.tabled.imports t k).1 hk)
    obtain ⟨hkh, hc⟩ := (getElem?_erase_iff _ _ _ _).1 hc
    obtain rfl : Cell.proxy t = c := by
      rcases hsame with hsame | ⟨_, _, _, hplain⟩
      · exact hsame
      · cases hplain
    have hother := (hl.tabled.imports t k).2 hc
    rw [(hl.tabled.imports t h).2 hcell] at hother
    exact hkh (Option.some.inj hother).symm
  · intro s hs k hk
    -- nobody else can have got the name
    have hk := ((getElem?_erase_iff _ _ _ _).1 (hd.names k s hk)).2
    have hother := (hl.tabled.named.inverse s k).2 hk
    rw [(hl.tabled.named.inverse s h).2 (hname ▸ hs)] at hother
    exact (Option.some.inj hother).symm

/-- A node that was deleted can be brought back, with its name. -/
theorem reinstateNode_undoes (hl : l.Coherent) {h : Int} {was : Remains}
    (hcell : l.env.nodes.cells[h]? = some was.cell) (hct : was.cell ≠ .triple)
    (hname : was.name = l.env.nodes.nameOf[h]?)
    (h₁ : l.Becomes l₁ (l.env.contents.without h) l.env.nodes.next) (h₂ : l₁.Restored l₂) :
    Ends (reinstateNode (l.env.node h) was) l₂
      (fun _ l₃ => l.Restored l₃ ∧
        l₂.Becomes l₃ ((l₂.env.contents.put h was.cell).called h was.name) l₂.env.nodes.next)
      (fun _ _ => False) := by
  have hf := h₂.contents
  rw [h₁.contents] at hf
  refine (reinstateNode_again hl h₂.coherent (h₂.id.trans h₁.id) hcell hct hname (h₁.next ▸ h₂.next)
    hf.dwindles).mono (fun _ l₃ h₃ => ⟨Restored.back h₁ (Int.le_refl _) h₂ h₃ (Int.le_refl _) ?_, h₃⟩) fun _ _ h => h
  rw [hname]
  exact hf.put_again hcell (ExtTreeMap.getElem?_eq_none
    (hl.tabled.no_statement (by rw [hcell]; exact fun e => hct (Option.some.inj e))))

/-- Where nothing is new since a triple was deleted, it can be brought back. -/
theorem reinstateTriple_again (hl : l.Coherent) (hl₂ : l₂.Coherent) {h : Int} {st : Statement}
    (hcell : l.env.nodes.cells[h]? = some .triple) (hst : l.env.triples.statements[h]? = some st)
    (hnext : l.env.nodes.next ≤ l₂.env.nodes.next) (hd : (l.env.contents.without h).Dwindles l₂.env.contents) :
    Ends (reinstateTriple (l.env.node h) (l.env.node st.subject) (l.env.node st.predicate)
        (l.env.node st.object)) l₂
      (fun _ l₃ => l₂.Becomes l₃ (l₂.env.contents.relate h st) l₂.env.nodes.next) (fun _ _ => False) := by
  have hgone : h ∉ l₂.env.nodes.cells := fun hh => by
    obtain ⟨c', hc'⟩ := (mem_iff_exists_getElem? _ _).1 hh
    obtain ⟨c, hc, -⟩ := hd.cells h c' hc'
    exact ((getElem?_erase_iff _ _ _ _).1 hc).1 rfl
  have hb := hl.tabled.bounds h (mem_of_getElem? hcell)
  have hfree : l₂.env.triples.handles[st]? = none := by
    refine Option.eq_none_iff_forall_ne_some.2 fun k hk => ?_
    obtain ⟨hkh, hk⟩ :=
      (getElem?_erase_iff _ _ _ _).1 (hd.statements k st ((hl₂.tabled.triples.inverse st k).1 hk))
    have hother := (hl.tabled.triples.inverse st k).2 hk
    rw [(hl.tabled.triples.inverse st h).2 hst] at hother
    exact hkh (Option.some.inj hother).symm
  unfold reinstateTriple
  refine (checkGone_ends hgone).test ?_ fun _ _ h => h
  intro _ _
  rw [ends_modify]
  exact relate_becomes hl₂ hb.1 (Int.lt_of_lt_of_le hb.2 hnext) hfree
    fun c hc => absurd (mem_of_getElem? hc) hgone

/-- A triple that was deleted can be brought back, but not its name. -/
theorem reinstateTriple_undoes (hl : l.Coherent) {h : Int} {st : Statement}
    (hcell : l.env.nodes.cells[h]? = some .triple) (hst : l.env.triples.statements[h]? = some st)
    (h₁ : l.Becomes l₁ (l.env.contents.without h) l.env.nodes.next) (h₂ : l₁.Restored l₂) :
    Ends (reinstateTriple (l.env.node h) (l.env.node st.subject) (l.env.node st.predicate)
        (l.env.node st.object)) l₂
      (fun _ l₃ => l.Restored l₃ ∧ l₂.Becomes l₃ (l₂.env.contents.relate h st) l₂.env.nodes.next)
      (fun _ _ => False) := by
  have hf := h₂.contents
  rw [h₁.contents] at hf
  exact (reinstateTriple_again hl h₂.coherent hcell hst (h₁.next ▸ h₂.next)
    hf.dwindles).mono (fun _ l₃ h₃ =>
      ⟨Restored.back h₁ (Int.le_refl _) h₂ h₃ (Int.le_refl _) (hf.relate_again hcell hst), h₃⟩) fun _ _ h => h

end Locale

end GraphLisp
