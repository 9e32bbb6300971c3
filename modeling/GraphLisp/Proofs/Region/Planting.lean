import Mathlib.Data.List.Dedup
import GraphLisp.Proofs.Environment.Operations
import GraphLisp.Proofs.Environment.Restore
import GraphLisp.Proofs.Region.Unfolding
/-!
# Building what was unfolded

When the list of a region is built in the environment that it comes from, there is one new node for
each node that heads a list, and one new triple for each triple that the region follows, however often
they come up. `Planted` says so of a region that is being built, in terms of a list of all that has
been made: what a node stands for, what a triple is a copy of, and that copies keep the order of the
triples they copy. A head is on the path as long as its triples are being copied; every other head is
finished (`Settled`), so that coming back to it makes nothing.
-/

namespace GraphLisp

open Std

namespace Structure

/-- The node that heads the list, or the node itself. -/
def root? : Structure → Option Node
  | .node n => some n
  | .pair (.node n) _ => some n
  | _ => none

mutual

/-- What it takes to build a region: a node for each head, and a triple for each entry. -/
def parts : Structure → List (Node ⊕ Statement)
  | .pair (.node n) entries => .inl n :: entryParts n entries
  | _ => []

/-- What it takes to build the entries of a list with a head. -/
def entryParts (n : Node) : Structure → List (Node ⊕ Statement)
  | .pair (.pair (.node p) (.pair child .nil)) rest =>
    (child.root?.map fun c => Sum.inr ⟨n.id, p.id, c.id⟩).toList ++ (parts child ++ entryParts n rest)
  | _ => []

end

/-- How many handles it takes to build a region. What comes up again takes none. -/
def handlesNeeded (s : Structure) : Nat := s.parts.dedup.length

end Structure

theorem Environment.Unfolds.root? {e : Environment} {selected : Option (List Node)} {path : List Node}
    {n : Node} {s : Structure} (h : e.Unfolds selected path n s) : s.root? = some n := by
  cases h <;> rfl

/-! ## What has been made -/

/-- Something that was made for a region, with its handle: a node in place of another one, or a triple
in place of another one and what it says. -/
inductive Made where
  | head (n : Node) (h : Int)
  | copy (st : Statement) (h : Int) (reads : Statement)

namespace Made

/-- What it was made for. -/
def source : Made → Node ⊕ Statement
  | .head n _ => .inl n
  | .copy st _ _ => .inr st

def handle : Made → Int
  | .head _ h => h
  | .copy _ h _ => h

/-- What its handle stands for. A new node holds what the other one holds. -/
def cell (e : Environment) : Made → Cell
  | .head n _ => .plain (e.content? n)
  | .copy .. => .triple

/-- The contents with it. -/
def into (e : Environment) (g : Contents) : Made → Contents
  | .head n h => g.put h (.plain (e.content? n))
  | .copy _ h reads => g.relate h reads

theorem into_cells (e : Environment) (g : Contents) (x : Made) :
    (x.into e g).cells = g.cells.insert x.handle (x.cell e) := by
  cases x <;> rfl

theorem into_nameOf (e : Environment) (g : Contents) (x : Made) : (x.into e g).nameOf = g.nameOf := by
  cases x <;> rfl

theorem into_statements_iff (e : Environment) (g : Contents) (x : Made) (h : Int) (st : Statement)
    (hfree : g.statements[x.handle]? = none) :
    (x.into e g).statements[h]? = some st ↔ g.statements[h]? = some st ∨ ∃ st₀, x = .copy st₀ h st := by
  cases x with
  | head n k =>
    change g.statements[h]? = some st ↔ _
    simp
  | copy st₀ k reads =>
    change (g.statements.insert k reads)[h]? = some st ↔ _
    rw [getElem?_insert_iff]
    constructor
    · rintro (⟨rfl, rfl⟩ | ⟨-, hst⟩)
      · exact .inr ⟨st₀, rfl⟩
      · exact .inl hst
    · rintro (hst | ⟨st₁, hx⟩)
      · refine .inr ⟨?_, hst⟩
        rintro rfl
        cases hfree.symm.trans hst
      · cases hx
        exact .inl ⟨rfl, rfl⟩

end Made

/-- The handle is that of the new node for a head, or that of a node itself that nothing leads on from. -/
def Environment.Stands (e : Environment) (selected : Option (List Node)) (log : List Made) (i j : Int) : Prop :=
  .head (e.node i) j ∈ log ∨ (e.edges selected (e.node i) = .ok [] ∧ j = i)

theorem Environment.Stands.mono {e : Environment} {selected : Option (List Node)} {log log' : List Made}
    {i j : Int} (h : e.Stands selected log i j) (hlog : log ⊆ log') : e.Stands selected log' i j :=
  h.imp_left fun h => hlog h

namespace Building

/-- A place where a region with the given parts can be built: nothing in it leads to a node that is
gone, and there are handles enough. -/
structure Ground (around : Surroundings) (l : Locale) (parts : List (Node ⊕ Statement)) : Prop where
  coherent : l.Coherent
  whole : l.env.Whole
  known : ∀ h m, l.env.Mentions h m → l.Knows around m
  room : l.env.nodes.next + parts.dedup.length ≤ maxHandle + 1

/-- What has been made of a region so far is in the log, and nothing else has changed. -/
structure Planted (l : Locale) (selected : Option (List Node)) (parts : List (Node ⊕ Statement))
    (log : List Made) (b : Building) : Prop where
  becomes : l.Becomes b.locale b.locale.env.contents (l.env.nodes.next + log.length)
  sources : (log.map Made.source).Nodup
  needed : ∀ x ∈ log, x.source ∈ parts
  handles : ∀ x ∈ log, l.env.nodes.next ≤ x.handle ∧ x.handle < l.env.nodes.next + log.length
  distinct : (log.map Made.handle).Nodup
  heads : ∀ n m, b.heads[n]? = some m ↔ ∃ h, .head n h ∈ log ∧ m = l.env.node h
  cells : ∀ (h : Int) (c : Cell), b.locale.env.nodes.cells[h]? = some c ↔
    l.env.nodes.cells[h]? = some c ∨ ∃ x ∈ log, x.handle = h ∧ c = x.cell l.env
  statements : ∀ (h : Int) (st : Statement), b.locale.env.triples.statements[h]? = some st ↔
    l.env.triples.statements[h]? = some st ∨ ∃ st₀, .copy st₀ h st ∈ log
  nameOf : b.locale.env.nodes.nameOf = l.env.nodes.nameOf
  /-- Something leads on from every head. -/
  leading : ∀ n h, .head n h ∈ log → n = l.env.node n.id ∧ l.env.edges selected n ≠ .ok []
  copies : ∀ st h reads, .copy st h reads ∈ log → (∃ k, l.env.Leads selected k st) ∧
    .head (l.env.node st.subject) reads.subject ∈ log ∧ reads.predicate = st.predicate ∧
    l.env.Stands selected log st.object reads.object
  order : ∀ st h reads st' h' reads', .copy st h reads ∈ log → .copy st' h' reads' ∈ log →
    st.subject = st'.subject → ∀ k k' : Int, l.env.triples.statements[k]? = some st →
      l.env.triples.statements[k']? = some st' → k < k' → h < h'

variable {around : Surroundings} {l : Locale} {selected : Option (List Node)}
  {parts : List (Node ⊕ Statement)} {log : List Made} {b : Building}

/-- Before anything is made. -/
theorem planted_nil (hl : l.Coherent) : Planted l selected parts [] ⟨l, [], ∅⟩ where
  becomes := ⟨hl, rfl, rfl, rfl, (Int.add_zero _).symm, .refl l⟩
  sources := List.nodup_nil
  needed _ hx := absurd hx List.not_mem_nil
  handles _ hx := absurd hx List.not_mem_nil
  distinct := List.nodup_nil
  heads n m := by simp
  cells h c := by simp
  statements h st := by simp
  nameOf := rfl
  leading _ _ hx := absurd hx List.not_mem_nil
  copies _ _ _ hx := absurd hx List.not_mem_nil
  order _ _ _ _ _ _ hx := absurd hx List.not_mem_nil

namespace Planted

/-- As long as something is to be made, there is a handle for it. -/
theorem room (hp : Planted l selected parts log b) (hg : Ground around l parts) {p : Node ⊕ Statement}
    (hpart : p ∈ parts) (hnew : p ∉ log.map Made.source) : b.locale.env.nodes.next ≤ maxHandle := by
  have hnodup : (p :: log.map Made.source).Nodup := List.nodup_cons.2 ⟨hnew, hp.sources⟩
  have hsub : p :: log.map Made.source ⊆ parts.dedup := by
    intro q hq
    rw [List.mem_dedup]
    rcases List.mem_cons.1 hq with rfl | hq
    · exact hpart
    · obtain ⟨x, hx, rfl⟩ := List.mem_map.1 hq
      exact hp.needed x hx
  have hle := hnodup.length_le_of_subset hsub
  rw [List.length_cons, List.length_map] at hle
  have hroom := hg.room
  rw [hp.becomes.next]
  omega

theorem live (hp : Planted l selected parts log b) {h : Int} (hh : h ∈ l.env.nodes.cells) :
    h ∈ b.locale.env.nodes.cells := by
  obtain ⟨c, hc⟩ := (mem_iff_exists_getElem? _ _).1 hh
  exact mem_of_getElem? ((hp.cells h c).2 (.inl hc))

theorem live_made (hp : Planted l selected parts log b) {x : Made} (hx : x ∈ log) :
    x.handle ∈ b.locale.env.nodes.cells :=
  mem_of_getElem? ((hp.cells x.handle (x.cell l.env)).2 (.inr ⟨x, hx, rfl, rfl⟩))

theorem head_source_iff (log : List Made) (n : Node) :
    Sum.inl n ∈ log.map Made.source ↔ ∃ h, .head n h ∈ log := by
  rw [List.mem_map]
  constructor
  · rintro ⟨x, hx, heq⟩
    cases x with
    | head m h =>
      cases heq
      exact ⟨h, hx⟩
    | copy => cases heq
  · exact fun ⟨h, hx⟩ => ⟨_, hx, rfl⟩

theorem copy_source_iff (log : List Made) (st : Statement) :
    Sum.inr st ∈ log.map Made.source ↔ ∃ h reads, .copy st h reads ∈ log := by
  rw [List.mem_map]
  constructor
  · rintro ⟨x, hx, heq⟩
    cases x with
    | head => cases heq
    | copy st₀ h reads =>
      cases heq
      exact ⟨h, reads, hx⟩
  · exact fun ⟨h, reads, hx⟩ => ⟨_, hx, rfl⟩

/-- A node has one new node at most. -/
theorem head_unique (hp : Planted l selected parts log b) {n : Node} {h h' : Int} (hx : .head n h ∈ log)
    (hx' : .head n h' ∈ log) : h = h' := by
  have heq := List.inj_on_of_nodup_map hp.sources hx hx' rfl
  cases heq
  rfl

theorem stands_unique (hp : Planted l selected parts log b) {i j j' : Int} (h : l.env.Stands selected log i j)
    (h' : l.env.Stands selected log i j') : j = j' := by
  rcases h with h | ⟨hnil, rfl⟩
  · rcases h' with h' | ⟨hnil, rfl⟩
    · exact hp.head_unique h h'
    · exact absurd hnil (hp.leading _ _ h).2
  · rcases h' with h' | ⟨-, rfl⟩
    · exact absurd hnil (hp.leading _ _ h').2
    · rfl

/-- New nodes are new, and each is that of one node. -/
theorem stands_injective (hp : Planted l selected parts log b) (hl : l.Coherent) {i i' j : Int}
    (hi : i ∈ l.env.nodes.cells) (hi' : i' ∈ l.env.nodes.cells) (h : l.env.Stands selected log i j)
    (h' : l.env.Stands selected log i' j) : i = i' := by
  have hold : ∀ {k : Int}, k ∈ l.env.nodes.cells → ∀ n, .head n k ∉ log := by
    intro k hk n hx
    exact Int.not_le.2 (hl.tabled.bounds k hk).2 (hp.handles _ hx).1
  rcases h with h | ⟨-, rfl⟩
  · rcases h' with h' | ⟨-, rfl⟩
    · have heq := List.inj_on_of_nodup_map hp.distinct h h' rfl
      exact (Locale.node_eq_iff l.env i i').1 (Made.head.inj heq).1
    · exact absurd h (hold hi' _)
  · rcases h' with h' | ⟨-, rfl⟩
    · exact absurd h' (hold hi _)
    · rfl

end Planted

/-- After a building, another one in which one thing more has been made: under the next handle, and for
something that nothing was made for yet. What it refers to is in the log before it is. -/
structure Adds (l : Locale) (selected : Option (List Node)) (parts : List (Node ⊕ Statement))
    (log : List Made) (b : Building) (x : Made) (b' : Building) : Prop where
  handle : x.handle = b.locale.env.nodes.next
  needed : x.source ∈ parts
  fresh : x.source ∉ log.map Made.source
  becomes : b.locale.Becomes b'.locale (x.into l.env b.locale.env.contents) (b.locale.env.nodes.next + 1)
  heads : ∀ n m, b'.heads[n]? = some m ↔ (∃ h, x = .head n h ∧ m = l.env.node h) ∨ b.heads[n]? = some m
  leading : ∀ n h, x = .head n h → n = l.env.node n.id ∧ l.env.edges selected n ≠ .ok []
  copies : ∀ st h reads, x = .copy st h reads → (∃ k, l.env.Leads selected k st) ∧
    .head (l.env.node st.subject) reads.subject ∈ log ∧ reads.predicate = st.predicate ∧
    l.env.Stands selected log st.object reads.object
  /-- Whatever was copied of the same subject comes before it. -/
  last : ∀ st h reads, x = .copy st h reads → ∀ st' h' reads', .copy st' h' reads' ∈ log →
    st.subject = st'.subject → ∀ k k' : Int, l.env.triples.statements[k]? = some st →
      l.env.triples.statements[k']? = some st' → k' < k

namespace Planted

/-- Everything made so far has a handle below the next one. -/
theorem below (hp : Planted l selected parts log b) {y : Made} (hy : y ∈ log) :
    y.handle < b.locale.env.nodes.next := by
  rw [hp.becomes.next]
  exact (hp.handles y hy).2

/-- A stored statement has one handle. -/
theorem handle_unique (hp : Planted l selected parts log b) {st : Statement} {k k' : Int}
    (hk : l.env.triples.statements[k]? = some st) (hk' : l.env.triples.statements[k']? = some st) : k = k' := by
  have hcoherent := hp.becomes.coherent.tabled.triples
  have hst := (hcoherent.inverse st k).2 ((hp.statements k st).2 (.inl hk))
  have hst' := (hcoherent.inverse st k').2 ((hp.statements k' st).2 (.inl hk'))
  exact Option.some.inj (hst.symm.trans hst')

variable {x : Made} {b' : Building}

theorem heads_added (hp : Planted l selected parts log b) (hx : Adds l selected parts log b x b') (n m : Node) :
    b'.heads[n]? = some m ↔ ∃ h, .head n h ∈ x :: log ∧ m = l.env.node h := by
  rw [hx.heads, hp.heads]
  simp only [List.mem_cons]
  constructor
  · rintro (⟨h, rfl, rfl⟩ | ⟨h, hmem, rfl⟩)
    · exact ⟨h, .inl rfl, rfl⟩
    · exact ⟨h, .inr hmem, rfl⟩
  · rintro ⟨h, heq | hmem, rfl⟩
    · exact .inl ⟨h, heq.symm, rfl⟩
    · exact .inr ⟨h, hmem, rfl⟩

theorem cells_added (hp : Planted l selected parts log b) (hx : Adds l selected parts log b x b') (h : Int)
    (c : Cell) : b'.locale.env.nodes.cells[h]? = some c ↔
      l.env.nodes.cells[h]? = some c ∨ ∃ y ∈ x :: log, y.handle = h ∧ c = y.cell l.env := by
  rw [hx.becomes.cells, Made.into_cells, getElem?_insert_iff, hx.handle]
  change (_ ∨ _ ∧ b.locale.env.nodes.cells[h]? = some c) ↔ _
  rw [hp.cells]
  constructor
  · rintro (⟨rfl, rfl⟩ | ⟨-, hc | ⟨y, hy, hyh, hc⟩⟩)
    · exact .inr ⟨x, .head _, hx.handle, rfl⟩
    · exact .inl hc
    · exact .inr ⟨y, .tail _ hy, hyh, hc⟩
  · rintro (hc | ⟨y, hy, rfl, rfl⟩)
    · refine .inr ⟨?_, .inl hc⟩
      rintro rfl
      exact hp.becomes.coherent.tabled.fresh_handle (hp.live (mem_of_getElem? hc))
    · rcases List.mem_cons.1 hy with rfl | hy
      · exact .inl ⟨hx.handle, rfl⟩
      · exact .inr ⟨Int.ne_of_lt (hp.below hy), .inr ⟨y, hy, rfl, rfl⟩⟩

theorem statements_added (hp : Planted l selected parts log b) (hx : Adds l selected parts log b x b') (h : Int)
    (st : Statement) : b'.locale.env.triples.statements[h]? = some st ↔
      l.env.triples.statements[h]? = some st ∨ ∃ st₀, .copy st₀ h st ∈ x :: log := by
  have htabled := hp.becomes.coherent.tabled
  have hfree : b.locale.env.contents.statements[x.handle]? = none := by
    rw [hx.handle]
    refine Option.eq_none_iff_forall_ne_some.2 fun st hst => htabled.fresh_handle ?_
    exact mem_of_getElem? ((htabled.statements _).1 (mem_of_getElem? hst))
  rw [hx.becomes.statements, Made.into_statements_iff _ _ _ _ _ hfree]
  change b.locale.env.triples.statements[h]? = some st ∨ _ ↔ _
  rw [hp.statements, or_assoc]
  refine or_congr_right ?_
  simp only [List.mem_cons]
  constructor
  · rintro (⟨st₀, hmem⟩ | ⟨st₀, rfl⟩)
    · exact ⟨st₀, .inr hmem⟩
    · exact ⟨st₀, .inl rfl⟩
  · rintro ⟨st₀, rfl | hmem⟩
    · exact .inr ⟨st₀, rfl⟩
    · exact .inl ⟨st₀, hmem⟩

/-- The new handle is above all others, so it has to belong to the last of the triples in order. -/
theorem order_added (hp : Planted l selected parts log b) (hx : Adds l selected parts log b x b')
    {st st' : Statement} {h h' : Int} {reads reads' : Statement} (hmem : .copy st h reads ∈ x :: log)
    (hmem' : .copy st' h' reads' ∈ x :: log) (hsubject : st.subject = st'.subject) {k k' : Int}
    (hk : l.env.triples.statements[k]? = some st) (hk' : l.env.triples.statements[k']? = some st')
    (hlt : k < k') : h < h' := by
  rcases List.mem_cons.1 hmem with rfl | hmem
  · rcases List.mem_cons.1 hmem' with heq | hmem'
    · cases heq
      rw [hp.handle_unique hk hk'] at hlt
      exact absurd hlt (Int.lt_irrefl _)
    · have hback := hx.last st h reads rfl st' h' reads' hmem' hsubject k k' hk hk'
      exact absurd hlt (Int.not_lt.2 (Int.le_of_lt hback))
  · rcases List.mem_cons.1 hmem' with heq | hmem'
    · have hh' : h' = b.locale.env.nodes.next := (congrArg Made.handle heq).trans hx.handle
      rw [hh']
      exact hp.below hmem
    · exact hp.order st h reads st' h' reads' hmem hmem' hsubject k k' hk hk' hlt

/-- The same building with one thing more. -/
theorem more (hp : Planted l selected parts log b) (hx : Adds l selected parts log b x b') :
    Planted l selected parts (x :: log) b' := by
  have hnext : b.locale.env.nodes.next = l.env.nodes.next + log.length := hp.becomes.next
  have hlength : (l.env.nodes.next + (x :: log).length : Int) = b.locale.env.nodes.next + 1 := by
    rw [hnext, List.length_cons]
    omega
  have hmono : log ⊆ x :: log := List.subset_cons_self x log
  constructor
  case heads => exact hp.heads_added hx
  case cells => exact hp.cells_added hx
  case statements => exact hp.statements_added hx
  case becomes =>
    have htrans := hp.becomes.trans hx.becomes
    rw [hlength, hx.becomes.contents]
    exact htrans
  case sources =>
    rw [List.map_cons]
    exact List.nodup_cons.2 ⟨hx.fresh, hp.sources⟩
  case needed => exact List.forall_mem_cons.2 ⟨hx.needed, hp.needed⟩
  case handles =>
    rw [hlength]
    refine List.forall_mem_cons.2 ⟨⟨?_, ?_⟩, fun y hy => ⟨(hp.handles y hy).1, ?_⟩⟩
    · rw [hx.handle, hnext]
      omega
    · rw [hx.handle]
      exact Int.lt_succ _
    · exact Int.lt_trans (hp.below hy) (Int.lt_succ _)
  case distinct =>
    rw [List.map_cons]
    refine List.nodup_cons.2 ⟨fun hmem => ?_, hp.distinct⟩
    obtain ⟨y, hy, heq⟩ := List.mem_map.1 hmem
    rw [hx.handle] at heq
    exact absurd (hp.below hy) (by rw [heq]; exact Int.lt_irrefl _)
  case nameOf =>
    rw [hx.becomes.nameOf, Made.into_nameOf]
    exact hp.nameOf
  case leading =>
    intro n h hmem
    rcases List.mem_cons.1 hmem with heq | hmem
    · exact hx.leading n h heq.symm
    · exact hp.leading n h hmem
  case copies =>
    intro st h reads hmem
    have hbefore : (∃ k, l.env.Leads selected k st) ∧ .head (l.env.node st.subject) reads.subject ∈ log ∧
        reads.predicate = st.predicate ∧ l.env.Stands selected log st.object reads.object := by
      rcases List.mem_cons.1 hmem with heq | hmem
      · exact hx.copies st h reads heq.symm
      · exact hp.copies st h reads hmem
    exact ⟨hbefore.1, hmono hbefore.2.1, hbefore.2.2.1, hbefore.2.2.2.mono hmono⟩
  case order =>
    intro st h reads st' h' reads' hmem hmem' hsubject k k' hk hk' hlt
    exact hp.order_added hx hmem hmem' hsubject hk hk' hlt

theorem noted (hp : Planted l selected parts log b) (created : List Node) :
    Planted l selected parts log { b with created } :=
  ⟨hp.becomes, hp.sources, hp.needed, hp.handles, hp.distinct, hp.heads, hp.cells, hp.statements,
    hp.nameOf, hp.leading, hp.copies, hp.order⟩

/-- The content of a node that was there before is what it was. -/
theorem content_eq (hp : Planted l selected parts log b) {i : Int} (hi : i ∈ l.env.nodes.cells) :
    b.locale.env.content? (l.env.node i) = l.env.content? (l.env.node i) := by
  obtain ⟨c, hc⟩ := (mem_iff_exists_getElem? _ _).1 hi
  have hid : b.locale.env.id = l.env.id := hp.becomes.id
  have hc' := (hp.cells i c).2 (.inl hc)
  simp only [Environment.content?, Environment.node, hid, hc, hc']

end Planted

/-! ## Steps -/

theorem lift_ends {α : Type} {op : Op α} {Q : α → Building → Prop} {E : Fault → Building → Prop}
    (h : Ends op b.locale (fun a l => Q a { b with locale := l }) (fun f l => E f { b with locale := l })) :
    Ends (lift op) b Q E := by
  unfold Ends lift at *
  cases hop : op b.locale with
  | ok a l => rw [hop] at h; exact h
  | error f l => rw [hop] at h; exact h

/-- A head that comes up for the first time gets a new node. -/
theorem head_new (hg : Ground around l parts) (hp : Planted l selected parts log b) {i : Int}
    (hi : i ∈ l.env.nodes.cells) (hpart : .inl (l.env.node i) ∈ parts)
    (hnew : .inl (l.env.node i) ∉ log.map Made.source) (hedges : l.env.edges selected (l.env.node i) ≠ .ok []) :
    Ends (head around (.node (l.env.node i))) b
      (fun made b' => made = l.env.node b.locale.env.nodes.next ∧
        Planted l selected parts (.head (l.env.node i) b.locale.env.nodes.next :: log) b')
      (fun _ _ => False) := by
  have hnone : b.heads[l.env.node i]? = none := by
    refine Option.eq_none_iff_forall_ne_some.2 fun m hm => hnew ?_
    obtain ⟨h, hx, -⟩ := (hp.heads _ m).1 hm
    exact (Planted.head_source_iff _ _).2 ⟨h, hx⟩
  have hcontent := hp.content_eq hi
  have hknown : ∀ m ∈ (Cell.plain (l.env.content? (l.env.node i))).mentions,
      b.locale.Knows around m := by
    intro m hm
    obtain ⟨c, hc⟩ := (mem_iff_exists_getElem? _ _).1 hi
    have hmentions : l.env.Mentions i m := by
      refine ⟨c, hc, ?_⟩
      simp only [Environment.content?, Environment.node, hc] at hm
      exact hm
    have hk := hg.known i m hmentions
    have hid : b.locale.env.id = l.env.id := hp.becomes.id
    exact ⟨fun h => hp.live (hk.here (h.trans hid)), fun h => hk.there fun h' => h (h'.trans hid.symm)⟩
  unfold head
  simp only [ends_bind, ends_get, hnone, hcontent]
  unfold freshNode note
  simp only [ends_bind, ends_modify, ends_pure]
  apply lift_ends
  refine (Locale.createNode_ends hp.becomes.coherent around none _).mono ?_ ?_
  · rintro _ l' ⟨rfl, -, -, hb⟩
    have hnode : b.locale.env.node b.locale.env.nodes.next = l.env.node b.locale.env.nodes.next :=
      hp.becomes.node _
    refine ⟨hnode, ?_⟩
    rw [hnode]
    apply hp.more
    constructor
    case handle => rfl
    case needed => exact hpart
    case fresh => exact hnew
    case becomes => exact hb
    case heads =>
      intro n m
      rw [getElem?_insert_iff]
      constructor
      · rintro (⟨rfl, rfl⟩ | ⟨-, hm⟩)
        · exact .inl ⟨_, rfl, rfl⟩
        · exact .inr hm
      · rintro (⟨h, heq, rfl⟩ | hm)
        · cases heq
          exact .inl ⟨rfl, rfl⟩
        · refine .inr ⟨?_, hm⟩
          rintro rfl
          cases hnone.symm.trans hm
    case leading =>
      intro n h heq
      cases heq
      exact ⟨rfl, hedges⟩
    case copies =>
      intro _ _ _ heq
      cases heq
    case last =>
      intro _ _ _ heq
      cases heq
  · rintro _ _ ⟨-, ⟨_, hname, -⟩ | ⟨m, hm, hnot⟩ | hfull⟩
    · cases hname
    · exact hnot (hknown m hm)
    · exact absurd hfull (Int.not_lt.2 (hp.room hg hpart hnew))

/-- A triple in the place of another one is there if it was copied: no older one is about a new node. -/
theorem Planted.copied_iff (hp : Planted l selected parts log b) (hg : Ground around l parts) {k i j : Int}
    {st : Statement} (hst : l.env.triples.statements[k]? = some st)
    (hsubject : .head (l.env.node st.subject) i ∈ log) (hobject : l.env.Stands selected log st.object j) :
    (∃ h : Int, b.locale.env.triples.statements[h]? = some ⟨i, st.predicate, j⟩) ↔
      ∃ h reads, .copy st h reads ∈ log := by
  constructor
  · rintro ⟨h, hh⟩
    rcases (hp.statements h _).1 hh with hold | ⟨st₀, hx⟩
    · have hiold : i ∈ l.env.nodes.cells := (hg.whole h _ hold).1
      exact absurd (hg.coherent.tabled.bounds i hiold).2 (Int.not_lt.2 (hp.handles _ hsubject).1)
    · obtain ⟨⟨k₀, hst₀⟩, hsubject₀, hpred₀, hobject₀⟩ := hp.copies _ _ _ hx
      have heq := List.inj_on_of_nodup_map hp.distinct hsubject₀ hsubject rfl
      have hsub : st₀.subject = st.subject := (Locale.node_eq_iff l.env _ _).1 (Made.head.inj heq).1
      have hobj := hp.stands_injective hg.coherent (hg.whole k₀ st₀ hst₀.stored).2.2
        (hg.whole k st hst).2.2 hobject₀ hobject
      have hsame : st₀ = st := by
        cases st₀
        cases st
        cases hsub
        cases hpred₀
        cases hobj
        rfl
      exact ⟨h, _, hsame ▸ hx⟩
  · rintro ⟨h, reads, hx⟩
    obtain ⟨-, hsubject', hpred', hobject'⟩ := hp.copies _ _ _ hx
    have hreads : reads = ⟨i, st.predicate, j⟩ := by
      cases reads
      cases hp.head_unique hsubject' hsubject
      cases hpred'
      cases hp.stands_unique hobject' hobject
      rfl
    exact ⟨h, (hp.statements h _).2 (.inr ⟨st, hreads ▸ hx⟩)⟩

/-- The triple of an entry is there already if it was copied, and else it is made. -/
theorem copy_ends (hg : Ground around l parts) (hp : Planted l selected parts log b) {k i j : Int}
    {st : Statement} (hst : l.env.Leads selected k st) (hpart : .inr st ∈ parts)
    (hsubject : .head (l.env.node st.subject) i ∈ log) (hobject : l.env.Stands selected log st.object j)
    (hlast : (∀ h reads, .copy st h reads ∉ log) → ∀ st' h' reads', .copy st' h' reads' ∈ log →
      st.subject = st'.subject → ∀ k' : Int, l.env.triples.statements[k']? = some st' → k' < k) :
    Ends (lift (Locale.insertTriple (.node (l.env.node i)) (.node (l.env.node st.predicate)) (.node (l.env.node j)))) b
      (fun r b' => (r.2 = false ∧ b' = b ∧ ∃ h reads, .copy st h reads ∈ log) ∨
        (r.2 = true ∧ (∀ h reads, .copy st h reads ∉ log) ∧
          ∃ h reads, Planted l selected parts (.copy st h reads :: log) b'))
      (fun _ _ => False) := by
  obtain ⟨hs, hpred, ho⟩ := hg.whole k st hst.stored
  have hid : b.locale.env.id = l.env.id := hp.becomes.id
  have hresident : ∀ {h : Int}, h ∈ b.locale.env.nodes.cells →
      b.locale.Resident (.node (l.env.node h)) (l.env.node h) := by
    intro h hh
    have hr := Locale.resident_node (l := b.locale) hh
    rwa [Environment.node, hid] at hr
  have hi : i ∈ b.locale.env.nodes.cells := hp.live_made hsubject
  have hj : j ∈ b.locale.env.nodes.cells := by
    rcases hobject with hx | ⟨-, rfl⟩
    · exact hp.live_made hx
    · exact hp.live ho
  have hcopied := hp.copied_iff hg hst.stored hsubject hobject
  apply lift_ends
  refine (Locale.insertTriple_ends hp.becomes.coherent _ _ _).mono ?_ ?_
  · rintro ⟨m, new⟩ l' ⟨s, p, o, hrs, hrp, hro, hcase⟩
    cases hrs.unique (hresident hi)
    cases hrp.unique (hresident (hp.live hpred))
    cases hro.unique (hresident hj)
    rcases hcase with ⟨rfl, rfl, hh⟩ | ⟨hr, hnone, hb⟩
    · exact .inl ⟨rfl, rfl, hcopied.1 hh⟩
    · have hsource : Sum.inr st ∉ log.map Made.source := fun hmem => by
        obtain ⟨h, hh⟩ := hcopied.2 ((Planted.copy_source_iff _ _).1 hmem)
        exact hnone h hh
      have hfresh : ∀ h reads, .copy st h reads ∉ log :=
        fun h reads hx => hsource ((Planted.copy_source_iff _ _).2 ⟨h, reads, hx⟩)
      refine .inr ⟨congrArg Prod.snd hr, hfresh, b.locale.env.nodes.next, ⟨i, st.predicate, j⟩, ?_⟩
      apply hp.more
      constructor
      case handle => rfl
      case needed => exact hpart
      case fresh => exact hsource
      case becomes => exact hb
      case heads =>
        intro n m
        simp
      case leading =>
        intro _ _ heq
        cases heq
      case copies =>
        intro _ _ _ heq
        cases heq
        exact ⟨⟨k, hst⟩, hsubject, rfl, hobject⟩
      case last =>
        intro _ _ _ heq st' h' reads' hx' hsub k₁ k' hk₁ hk'
        cases heq
        rw [hp.handle_unique hk₁ hst.stored]
        exact hlast hfresh st' h' reads' hx' hsub k' hk'
  · rintro _ _ ⟨-, hfail⟩
    obtain ⟨hfull, hnone⟩ := hfail _ _ _ (hresident hi) (hresident (hp.live hpred)) (hresident hj)
    have hsource : Sum.inr st ∉ log.map Made.source := fun hmem => by
      obtain ⟨h, hh⟩ := hcopied.2 ((Planted.copy_source_iff _ _).1 hmem)
      exact hnone h hh
    exact absurd hfull (Int.not_lt.2 (hp.room hg hpart hsource))

/-! ## Regions -/

/-- Every triple that leads on from the node has a copy. -/
def Finished (e : Environment) (selected : Option (List Node)) (log : List Made) (n : Node) : Prop :=
  ∀ k st, e.Leads selected k st → e.node st.subject = n → ∃ h reads, .copy st h reads ∈ log

/-- Every head is finished, unless it is on the path. -/
def Settled (e : Environment) (selected : Option (List Node)) (path : List Node) (log : List Made) : Prop :=
  ∀ n h, .head n h ∈ log → n ∉ path → Finished e selected log n

/-- More has been made, but no triples for some nodes. -/
structure Grows (e : Environment) (barred : Node → Prop) (log log' : List Made) : Prop where
  mono : log ⊆ log'
  off : ∀ st h reads, .copy st h reads ∈ log' → barred (e.node st.subject) → .copy st h reads ∈ log

/-- Of the triples that lead on from the node, either all have a copy, or those that are done. -/
def Partly (e : Environment) (selected : Option (List Node)) (log : List Made) (n : Node)
    (done : List Triple) : Prop :=
  Finished e selected log n ∨ ∀ k st, e.Leads selected k st → e.node st.subject = n →
    ((∃ h reads, .copy st h reads ∈ log) ↔ e.tripleAt k st ∈ done)

section
variable {e : Environment} {n : Node} {log' log'' : List Made} {path : List Node} {barred : Node → Prop}

theorem Finished.mono (h : Finished e selected log n) (hlog : log ⊆ log') : Finished e selected log' n :=
  fun k st hst hn => by
    obtain ⟨x, reads, hx⟩ := h k st hst hn
    exact ⟨x, reads, hlog hx⟩

theorem Grows.refl (e : Environment) (barred : Node → Prop) (log : List Made) : Grows e barred log log :=
  ⟨List.Subset.refl _, fun _ _ _ hx _ => hx⟩

theorem Grows.trans (h : Grows e barred log log') (h' : Grows e barred log' log'') : Grows e barred log log'' :=
  ⟨List.Subset.trans h.mono h'.mono, fun st k reads hx hn => h.off st k reads (h'.off st k reads hx hn) hn⟩

theorem Grows.weaken {barred' : Node → Prop} (h : Grows e barred log log') (hb : ∀ m, barred' m → barred m) :
    Grows e barred' log log' :=
  ⟨h.mono, fun st k reads hx hn => h.off st k reads hx (hb _ hn)⟩

/-- What happens to other nodes leaves a node as far done as it was. -/
theorem Partly.grows {done : List Triple} (h : Partly e selected log n done) (hgrows : Grows e barred log log')
    (hn : barred n) : Partly e selected log' n done := by
  refine h.imp (fun h => h.mono hgrows.mono) fun h k st hst hsub => ?_
  rw [← h k st hst hsub]
  constructor
  · rintro ⟨x, reads, hx⟩
    exact ⟨x, reads, hgrows.off st x reads hx (hsub ▸ hn)⟩
  · rintro ⟨x, reads, hx⟩
    exact ⟨x, reads, hgrows.mono hx⟩

end

/-- After the copy of a further triple, or where it was copied before, the node is further done. -/
theorem Partly.further {k : Int} {st : Statement} {n : Node} {done : List Triple} {log' : List Made}
    (h : Partly l.env selected log n done) (hl : l.Coherent) (hst : l.env.Leads selected k st)
    (hn : l.env.node st.subject = n)
    (hlog : (log' = log ∧ ∃ x reads, .copy st x reads ∈ log) ∨ ∃ x reads, log' = .copy st x reads :: log) :
    Partly l.env selected log' n (done ++ [l.env.tripleAt k st]) := by
  have hmono : log ⊆ log' := by
    rcases hlog with ⟨rfl, -⟩ | ⟨x, reads, rfl⟩
    · exact List.Subset.refl _
    · exact List.subset_cons_self _ _
  refine h.imp (fun h => h.mono hmono) fun h k' st' hst' hn' => ?_
  rw [List.mem_append, List.mem_singleton, ← h k' st' hst' hn']
  have hsame : l.env.tripleAt k' st' = l.env.tripleAt k st ↔ st' = st := by
    constructor
    · intro heq
      have hk : k' = k := (Locale.node_eq_iff l.env _ _).1 (congrArg Triple.node heq)
      have hst'' := hst'.stored
      rw [hk, hst.stored] at hst''
      exact (Option.some.inj hst'').symm
    · rintro rfl
      have hk := (hl.tabled.triples.inverse st' k).2 hst.stored
      have hk' := (hl.tabled.triples.inverse st' k').2 hst'.stored
      rw [Option.some.inj (hk'.symm.trans hk)]
  rw [hsame]
  rcases hlog with ⟨rfl, hx⟩ | ⟨x, reads, rfl⟩
  · constructor
    · exact .inl
    · rintro (hx' | rfl)
      · exact hx'
      · exact hx
  · constructor
    · rintro ⟨x', reads', hx'⟩
      rcases List.mem_cons.1 hx' with heq | hx'
      · cases heq
        exact .inr rfl
      · exact .inl ⟨x', reads', hx'⟩
    · rintro (⟨x', reads', hx'⟩ | rfl)
      · exact ⟨x', reads', .tail _ hx'⟩
      · exact ⟨x, reads, .head _⟩

/-- What was copied of a node so far comes before a triple that was not. -/
theorem Partly.before {k : Int} {st : Statement} {n : Node} {done ts : List Triple}
    (h : Partly l.env selected log n done) (hl : l.Coherent) (hp : Planted l selected parts log b)
    (hst : l.env.Leads selected k st) (hn : l.env.node st.subject = n)
    (hsorted : (done ++ l.env.tripleAt k st :: ts).Pairwise fun t t' => t.node.id < t'.node.id)
    (hnone : ∀ h reads, .copy st h reads ∉ log) {st' : Statement} {h' : Int} {reads' : Statement}
    (hx : .copy st' h' reads' ∈ log) (hsub : st.subject = st'.subject) {k' : Int}
    (hk' : l.env.triples.statements[k']? = some st') : k' < k := by
  rcases h with hall | hdone
  · obtain ⟨x, reads, hx⟩ := hall k st hst hn
    exact absurd hx (hnone x reads)
  · obtain ⟨⟨k₀, hk₀⟩, -⟩ := hp.copies st' h' reads' hx
    have hmem := (hdone k₀ st' hk₀ (hsub ▸ hn)).1 ⟨h', reads', hx⟩
    have hlt : k₀ < k := (List.pairwise_append.1 hsorted).2.2 _ hmem _ (.head _)
    have hsame := ((hl.tabled.triples.inverse st' k₀).2 hk₀.stored).symm.trans
      ((hl.tabled.triples.inverse st' k').2 hk')
    rwa [← Option.some.inj hsame]

/-- An entry whose child is built takes its node one triple further, and nothing else. -/
theorem entry_ends (hg : Ground around l parts) (hp : Planted l selected parts log b) {path : List Node}
    (hsettled : Settled l.env selected path log) {k i j : Int} {st : Statement} {n : Node} {done ts : List Triple}
    (hst : l.env.Leads selected k st) (hn : l.env.node st.subject = n)
    (hsorted : (done ++ l.env.tripleAt k st :: ts).Pairwise fun t t' => t.node.id < t'.node.id)
    (hpart : .inr st ∈ parts) (hhead : .head n i ∈ log) (hobject : l.env.Stands selected log st.object j)
    (hpartly : Partly l.env selected log n done) {rest : Step Unit} {Q : Unit → Building → Prop}
    {E : Fault → Building → Prop}
    (hrest : ∀ b' log', Planted l selected parts log' b' → Grows l.env (· ≠ n) log log' →
      Settled l.env selected path log' → Partly l.env selected log' n (done ++ [l.env.tripleAt k st]) →
      Ends rest b' Q E) :
    Ends (do
      let (m, new) ← lift (Locale.insertTriple (.node (l.env.node i)) (.node (l.env.node st.predicate))
        (.node (l.env.node j)))
      if new then note m
      rest) b Q E := by
  have hmade := copy_ends hg hp hst hpart (hn ▸ hhead) hobject fun hnone st' h' reads' hx hsub k' hk' =>
    hpartly.before hg.coherent hp hst hn hsorted hnone hx hsub hk'
  refine hmade.bind ?_ fun _ _ h => h.elim
  rintro ⟨m, new⟩ b' (⟨rfl, rfl, hx⟩ | ⟨rfl, -, x, reads, hp'⟩)
  · exact hrest b' log hp (.refl _ _ _) hsettled (hpartly.further hg.coherent hst hn (.inl ⟨rfl, hx⟩))
  · have hmono : log ⊆ .copy st x reads :: log := List.subset_cons_self _ _
    dsimp only
    unfold note
    simp only [↓reduceIte, ends_bind, ends_modify]
    refine hrest _ _ (hp'.noted _) ⟨hmono, fun st' h' reads' hx' hm => ?_⟩ (fun m x hx hm => ?_)
      (hpartly.further hg.coherent hst hn (.inr ⟨x, reads, rfl⟩))
    · rcases List.mem_cons.1 hx' with heq | hx'
      · cases heq
        exact absurd hn hm
      · exact hx'
    · rcases List.mem_cons.1 hx with heq | hx
      · cases heq
      · exact (hsettled m x hx hm).mono hmono

/-- The head of a list is there already and finished, or it is new and nothing leads on from it yet. -/
theorem head_ends (hg : Ground around l parts) (hp : Planted l selected parts log b) {path : List Node} {n : Node}
    (hn : n = l.env.node n.id) (hlive : n.id ∈ l.env.nodes.cells) (hpart : .inl n ∈ parts)
    (hedges : l.env.edges selected n ≠ .ok []) (off : n ∉ path) (hsettled : Settled l.env selected path log) :
    Ends (head around (.node n)) b (fun m b' => ∃ log' j, Planted l selected parts log' b' ∧
      Grows l.env (fun _ => True) log log' ∧ Settled l.env selected (n :: path) log' ∧
      m = l.env.node j ∧ .head n j ∈ log' ∧ Partly l.env selected log' n []) (fun _ _ => False) := by
  by_cases hx : ∃ j, .head n j ∈ log
  · obtain ⟨j, hj⟩ := hx
    unfold head
    simp only [ends_bind, ends_get, (hp.heads n _).2 ⟨j, hj, rfl⟩, ends_pure]
    refine ⟨log, j, hp, .refl _ _ _, fun m x hx hm => ?_, rfl, hj, .inl (hsettled n j hj off)⟩
    exact hsettled m x hx fun h => hm (.tail _ h)
  · have hfresh : .inl n ∉ log.map Made.source := fun h => hx ((Planted.head_source_iff _ _).1 h)
    have hnew := head_new hg hp hlive
    rw [← hn] at hnew
    refine (hnew hpart hfresh hedges).mono ?_ fun _ _ h => h
    rintro m b' ⟨rfl, hp'⟩
    have hmono : log ⊆ .head n b.locale.env.nodes.next :: log := List.subset_cons_self _ _
    refine ⟨_, _, hp', ⟨hmono, ?_⟩, ?_, rfl, .head _, .inr fun k st hst hsub => ?_⟩
    · intro st k reads hx' _
      rcases List.mem_cons.1 hx' with heq | hx'
      · cases heq
      · exact hx'
    · intro m x hx' hm
      rcases List.mem_cons.1 hx' with heq | hx'
      · cases heq
        exact absurd (.head _) hm
      · exact (hsettled m x hx' fun h => hm (.tail _ h)).mono hmono
    · -- copies need their head first
      refine iff_of_false ?_ List.not_mem_nil
      rintro ⟨x, reads, hx'⟩
      rcases List.mem_cons.1 hx' with heq | hx'
      · cases heq
      · exact hx ⟨_, hsub ▸ (hp.copies st x reads hx').2.1⟩

mutual

/-- Building the list of a node's region, where the heads off its path are finished, makes what is
still to be made, and finishes the node. -/
theorem build_plants (hg : Ground around l parts) {path : List Node} {n : Node} {s : Structure}
    (h : l.env.Unfolds selected path n s) : ∀ {log : List Made} {b : Building},
    n = l.env.node n.id → n.id ∈ l.env.nodes.cells → s.parts ⊆ parts →
    Planted l selected parts log b → Settled l.env selected path log →
    Ends (build around s) b (fun m b' => ∃ log' j, Planted l selected parts log' b' ∧
      Grows l.env (· ∈ path) log log' ∧ Settled l.env selected path log' ∧
      m = l.env.node j ∧ l.env.Stands selected log' n.id j) (fun _ _ => False) := by
  cases h with
  | leaf off edges =>
    intro log b hn hlive hparts hp hsettled
    refine ⟨log, n.id, hp, .refl _ _ _, hsettled, hn, .inr ⟨?_, rfl⟩⟩
    rwa [← hn]
  | @list _ _ ts entries off edges more hentries =>
    intro log b hn hlive hparts hp hsettled
    unfold build
    have hhead := head_ends hg hp hn hlive (hparts (.head _)) (by rw [edges]; exact fun h => more (Except.ok.inj h))
      off hsettled
    refine hhead.bind ?_ fun _ _ h => h
    rintro m b₁ ⟨log₁, j, hp₁, hgrows₁, hsettled₁, rfl, hj, hpartly⟩
    have hedges : l.env.edges selected n = .ok ([] ++ ts) := edges
    have hsub : Structure.entryParts n entries ⊆ parts :=
      fun p hp => hparts (List.mem_cons_of_mem _ hp)
    refine (entries_plants hg hentries (.pair (.node n) entries) (.head _) hj hn hlive
      hedges hsub hp₁ hsettled₁ hpartly).bind ?_ fun _ _ h => h
    rintro - b₂ ⟨log₂, hp₂, hgrows₂, hsettled₂, hfinished⟩
    refine ⟨log₂, j, hp₂, ?_, ?_, rfl, .inl ?_⟩
    · refine (hgrows₁.weaken fun _ _ => trivial).trans (hgrows₂.weaken fun m hm => ⟨.tail _ hm, ?_⟩)
      rintro rfl
      exact off hm
    · intro m x hx hm
      by_cases hmn : m = n
      · exact hmn ▸ hfinished
      · exact hsettled₂ m x hx fun h => (List.mem_cons.1 h).elim hmn hm
    · rw [← hn]
      exact hgrows₂.mono hj

/-- Building the entries of a node on the path finishes the node. -/
theorem entries_plants (hg : Ground around l parts) {path : List Node} {ts : List Triple} {s : Structure}
    (h : l.env.UnfoldsAll selected path ts s) (whole : Structure) : ∀ {n : Node} {i : Int} {done : List Triple}
      {log : List Made} {b : Building},
    n ∈ path → .head n i ∈ log → n = l.env.node n.id → n.id ∈ l.env.nodes.cells →
    l.env.edges selected n = .ok (done ++ ts) →
    Structure.entryParts n s ⊆ parts → Planted l selected parts log b → Settled l.env selected path log →
    Partly l.env selected log n done →
    Ends (buildEntries around whole (l.env.node i) s) b (fun _ b' => ∃ log', Planted l selected parts log' b' ∧
      Grows l.env (fun m => m ∈ path ∧ m ≠ n) log log' ∧ Settled l.env selected path log' ∧
      Finished l.env selected log' n) (fun _ _ => False) := by
  cases h with
  | nil =>
    intro n i done log b hpath hhead hn hlive hedges hparts hp hsettled hpartly
    unfold buildEntries
    refine ⟨log, hp, .refl _ _ _, hsettled, hpartly.elim id fun h k st hst hsub => ?_⟩
    obtain ⟨all, hall, -, hmem⟩ := Environment.edges_ok hg.coherent.tabled hlive selected
    rw [← hn, hedges, List.append_nil] at hall
    cases hall
    refine (h k st hst hsub).2 ((hmem _).2 ⟨k, st, hst, ?_, rfl⟩)
    exact congrArg Node.id hsub
  | @cons _ t ts c s child rest =>
    intro n i done log b hpath hhead hn hlive hedges hparts hp hsettled hpartly
    -- the first of the entries is that of a stored triple
    obtain ⟨all, hall, hsorted, hmem⟩ := Environment.edges_ok hg.coherent.tabled hlive selected
    rw [← hn, hedges] at hall
    cases hall
    obtain ⟨k, st, hst, hsubject, rfl⟩ := (hmem t).1 (List.mem_append_right _ (.head _))
    have hsub : l.env.node st.subject = n := by rw [hsubject, ← hn]
    have hroot : c.root? = some (l.env.node st.object) := child.root?
    have hentry : Structure.entryParts n
        (.pair (.pair (.node (l.env.tripleAt k st).predicate) (.pair c .nil)) s) =
        .inr st :: (c.parts ++ Structure.entryParts n s) := by
      simp only [Structure.entryParts, hroot, Option.map_some, Option.toList_some, List.singleton_append]
      rw [← hsub]
      rfl
    rw [hentry] at hparts
    obtain ⟨hpart, hparts⟩ := List.cons_subset.1 hparts
    obtain ⟨hcparts, hsparts⟩ := List.append_subset.1 hparts
    unfold buildEntries
    have hpredicate : predicate (.node (l.env.tripleAt k st).predicate) =
        (pure (l.env.node st.predicate) : Step Node) := rfl
    rw [hpredicate, pure_bind]
    -- the child does not touch the node, which is on its path
    have hobject : st.object ∈ l.env.nodes.cells := (hg.whole k st hst.stored).2.2
    refine (build_plants hg child rfl hobject hcparts hp hsettled).bind ?_ fun _ _ h => h
    rintro _ b₁ ⟨log₁, j, hp₁, hgrows₁, hsettled₁, rfl, hj⟩
    refine entry_ends hg hp₁ hsettled₁ hst hsub hsorted hpart (hgrows₁.mono hhead) hj
      (hpartly.grows hgrows₁ hpath) fun b₂ log₂ hp₂ hgrows₂ hsettled₂ hpartly₂ => ?_
    have hedges₂ : l.env.edges selected n = .ok ((done ++ [l.env.tripleAt k st]) ++ ts) := by
      rw [List.append_assoc]
      exact hedges
    refine (entries_plants hg rest whole hpath (hgrows₂.mono (hgrows₁.mono hhead)) hn hlive hedges₂ hsparts hp₂
      hsettled₂ hpartly₂).mono ?_ fun _ _ h => h
    rintro - b₃ ⟨log₃, hp₃, hgrows₃, hsettled₃, hfinished₃⟩
    refine ⟨log₃, hp₃, ?_, hsettled₃, hfinished₃⟩
    exact (hgrows₁.weaken fun _ hm => hm.1).trans ((hgrows₂.weaken fun _ hm => hm.2).trans hgrows₃)

end

end Building

end GraphLisp
