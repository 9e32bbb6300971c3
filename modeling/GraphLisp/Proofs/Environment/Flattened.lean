import GraphLisp.Proofs.Environment.Restore
import GraphLisp.Proofs.Structure.Flattened
/-!
# Flattened environments

An environment with everything in it flattened, as it comes back from its snapshot:
`Environment.flattened`. The same handles are live, of the same kind, and mention the same nodes, so
that every other table stays as it is.
-/

namespace GraphLisp

open Std

/-- The cell with its content flattened. -/
def Cell.flattened : Cell → Cell
  | .plain content => .plain (content.map Structure.flattened)
  | c => c

/-- The environment with everything in it flattened. -/
def Environment.flattened (e : Environment) : Environment :=
  { e with nodes.cells := e.nodes.cells.map fun _ c => c.flattened }

namespace Cell

theorem content_flattened (c : Cell) : c.flattened.content = c.content.map Structure.flattened := by
  cases c <;> rfl

@[simp] theorem mentions_flattened (c : Cell) : c.flattened.mentions = c.mentions := by
  unfold mentions
  rw [content_flattened]
  cases c.content <;> simp

theorem flattened_eq_proxy_iff (c : Cell) (t : Node) : c.flattened = .proxy t ↔ c = .proxy t := by
  cases c <;> simp [flattened]

theorem flattened_eq_triple_iff (c : Cell) : c.flattened = .triple ↔ c = .triple := by
  cases c <;> simp [flattened]

end Cell

namespace Environment

variable (e : Environment)

theorem getElem?_flattened (h : Int) : e.flattened.nodes.cells[h]? = e.nodes.cells[h]?.map Cell.flattened :=
  ExtTreeMap.getElem?_map

theorem mem_flattened (h : Int) : h ∈ e.flattened.nodes.cells ↔ h ∈ e.nodes.cells :=
  ExtTreeMap.mem_map

theorem getElem?_flattened_iff {c : Cell} (hc : ∀ d : Cell, d.flattened = c ↔ d = c) (h : Int) :
    e.flattened.nodes.cells[h]? = some c ↔ e.nodes.cells[h]? = some c := by
  rw [getElem?_flattened, Option.map_eq_some_iff]
  simp only [hc, exists_eq_right]

theorem mentions_flattened (h : Int) (t : Node) : e.flattened.Mentions h t ↔ e.Mentions h t := by
  simp only [Mentions, getElem?_flattened, Option.map_eq_some_iff]
  constructor
  · rintro ⟨_, ⟨c, hc, rfl⟩, ht⟩
    exact ⟨c, hc, by rwa [Cell.mentions_flattened] at ht⟩
  · rintro ⟨c, hc, ht⟩
    exact ⟨_, ⟨c, hc, rfl⟩, by rwa [Cell.mentions_flattened]⟩

variable {e}

theorem Tabled.flattened (he : e.Tabled) : e.flattened.Tabled where
  self := (e.mem_flattened _).2 he.self
  bounds h hh := he.bounds h ((e.mem_flattened h).1 hh)
  named := ⟨he.named.inverse, fun h s hs => (e.mem_flattened h).2 (he.named.live h s hs)⟩
  imports t h := (he.imports t h).trans (e.getElem?_flattened_iff (Cell.flattened_eq_proxy_iff · t) h).symm
  abroad h t ht := he.abroad h t ((e.getElem?_flattened_iff (Cell.flattened_eq_proxy_iff · t) h).1 ht)
  triples := he.triples
  statements h := (he.statements h).trans (e.getElem?_flattened_iff Cell.flattened_eq_triple_iff h).symm

/-- What is coherent on its own is so when flattened. -/
theorem Standalone.flattened (he : e.Standalone) : e.flattened.Standalone where
  tabled := he.tabled.flattened
  referrers_tight := he.referrers_tight
  referrers k h := (he.referrers k h).trans (e.mentions_flattened h _).symm
  whole h st hst :=
    have ⟨hs, hp, ho⟩ := he.whole h st hst
    ⟨(e.mem_flattened _).2 hs, (e.mem_flattened _).2 hp, (e.mem_flattened _).2 ho⟩
  known h t ht hid := (e.mem_flattened _).2 (he.known h t ((e.mentions_flattened h t).1 ht) hid)
  unnamed h hh := he.unnamed h ((e.getElem?_flattened_iff Cell.flattened_eq_triple_iff h).1 hh)
  pins := he.pins

/-- What is coherent on its own is known by what it contains. -/
theorem Standalone.ext {e e' : Environment} (he : e.Standalone) (he' : e'.Standalone) (hid : e'.id = e.id)
    (hnext : e'.nodes.next = e.nodes.next) (hg : e'.contents = e.contents) : e' = e := by
  have hcells : e'.nodes.cells = e.nodes.cells := congrArg Contents.cells hg
  have heq := Locale.eq_of_tabled he.tabled he'.tabled hid (he'.pins.trans he.pins.symm) hg
    he.referrers_tight he'.referrers_tight fun k h => by
      rw [he'.referrers, he.referrers, hid]
      unfold Mentions
      rw [hcells]
  rw [heq, hnext]

/-! ## Questions to a flattened environment -/

variable (e) (s : Structure)

theorem resident_flattened : e.flattened.resident s = e.resident s := by
  cases s with
  | node n =>
    unfold resident
    dsimp only
    simp only [e.mem_flattened]
    rfl
  | _ => rfl

theorem contains_flattened : e.flattened.contains s = e.contains s := by
  cases s with
  | node n =>
    unfold contains
    dsimp only
    rw [Bool.eq_iff_iff, Bool.and_eq_true, Bool.and_eq_true, ExtTreeMap.contains_iff_mem,
      ExtTreeMap.contains_iff_mem, e.mem_flattened]
    rfl
  | _ => rfl

theorem cell_flattened (h : Int) : e.flattened.cell h = (e.cell h).map Cell.flattened := by
  unfold cell
  rw [getElem?_flattened]
  cases e.nodes.cells[h]? <;> rfl

theorem isImport_flattened : e.flattened.isImport s = e.isImport s := by
  unfold isImport
  rw [resident_flattened]
  refine bind_congr fun n => ?_
  rw [cell_flattened]
  cases e.cell n.id with
  | error fault => rfl
  | ok c => cases c <;> rfl

theorem tripleOf_flattened : e.flattened.tripleOf s = e.tripleOf s := by
  unfold tripleOf
  rw [resident_flattened]
  refine bind_congr fun n => ?_
  rw [cell_flattened]
  cases e.cell n.id with
  | error fault => rfl
  | ok c => cases c <;> rfl

theorem getStructure_flattened :
    e.flattened.getStructure s = (e.getStructure s).map Structure.flattened := by
  unfold getStructure
  rw [resident_flattened]
  cases e.resident s with
  | error fault => rfl
  | ok n =>
    simp only [bind, Except.bind]
    rw [cell_flattened]
    cases e.cell n.id with
    | error fault => rfl
    | ok c =>
      cases c with
      | plain content => cases content <;> simp [Except.map, Cell.flattened, Cell.content] <;> rfl
      | proxy target => rfl
      | triple =>
        change (e.triple n.id >>= _) = Except.map _ (e.triple n.id >>= _)
        cases e.triple n.id <;> rfl

theorem patternPart_flattened (part : Option Structure) :
    e.flattened.patternPart part = e.patternPart part := by
  unfold patternPart
  simp only [e.mem_flattened]
  rfl

theorem ask_flattened (subject predicate object : Option Structure) :
    e.flattened.ask subject predicate object = e.ask subject predicate object := by
  unfold ask
  simp only [patternPart_flattened]
  rfl

theorem askAny_flattened : e.flattened.askAny s = e.askAny s := by
  unfold askAny
  rw [resident_flattened]
  rfl

end Environment

end GraphLisp
