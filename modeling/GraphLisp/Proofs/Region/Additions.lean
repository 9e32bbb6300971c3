import GraphLisp.Proofs.Universe.Handles
/-!
# What building a region adds

Building a region gives out handles and does nothing else: whatever has a handle below the counter stays as it is
(`Locale.Widens`). `Building.Sown` keeps a log of the new nodes, each with what it was made for: a node for each
node that heads a list, however often it does, and one for each literal. Triples are made of new nodes only. What
was made is removed in the other order when the building fails, or when a journal of it is rolled back, and then
the environment is there again as it was (`Stage.rebuild_only_adds`).
-/

namespace GraphLisp

open Std

/-! ## What nodes are made for -/

/-- What a new node is for: it stands in for a node that heads lists, or holds a literal. -/
inductive Seed where
  | head (n : Node)
  | literal (content : Option Structure)

namespace Seed

def head? : Seed → Option Node
  | .head n => some n
  | .literal _ => none

def literal? : Seed → Option (Option Structure)
  | .head _ => none
  | .literal content => some content

/-- What the new node holds under its handle. If the node that heads a list was live by then, it is what
that one holds. -/
def content (e : Environment) (handle : Int) : Seed → Option Structure
  | .head n => if n.id < handle then e.content? n else none
  | .literal content => content

end Seed

namespace Structure

/-- What the node for the head of a list is for. -/
def headSeed : Structure → Seed
  | .node n => .head n
  | s => .literal s.given?

mutual

/-- What building takes nodes for, in order. A node that heads several lists comes up several times. -/
def seeds : Structure → List Seed
  | .node _ | .nothing => []
  | .pair car cdr => headSeed car :: entrySeeds cdr
  | s => [.literal (some s)]

/-- What building the entries of a list takes nodes for. -/
def entrySeeds : Structure → List Seed
  | .pair (.pair _ (.pair child .nil)) rest => seeds child ++ entrySeeds rest
  | _ => []

end

/-- The nodes that head lists. -/
def heads (s : Structure) : List Node := s.seeds.filterMap Seed.head?

/-- The literals among the heads and leaves, each as often as it occurs. -/
def literals (s : Structure) : List (Option Structure) := s.seeds.filterMap Seed.literal?

end Structure

/-! ## Handles and nothing else -/

namespace Locale

/-- Handles have been given out, and below them nothing has changed. -/
structure Widens (l l' : Locale) : Prop where
  becomes : l.Becomes l' l'.env.contents l'.env.nodes.next
  advances : l.env.nodes.next ≤ l'.env.nodes.next
  nameOf : l'.env.nodes.nameOf = l.env.nodes.nameOf
  cells : ∀ h : Int, h < l.env.nodes.next → l'.env.nodes.cells[h]? = l.env.nodes.cells[h]?
  statements : ∀ h : Int, h < l.env.nodes.next → l'.env.triples.statements[h]? = l.env.triples.statements[h]?

variable {l l' l'' : Locale}

theorem Widens.refl (hl : l.Coherent) : l.Widens l where
  becomes := ⟨hl, rfl, rfl, rfl, rfl, .refl l⟩
  advances := Int.le_refl _
  nameOf := rfl
  cells _ _ := rfl
  statements _ _ := rfl

theorem Widens.trans (h : l.Widens l') (h' : l'.Widens l'') : l.Widens l'' where
  becomes := h.becomes.trans h'.becomes
  advances := Int.le_trans h.advances h'.advances
  nameOf := h'.nameOf.trans h.nameOf
  cells k hk := (h'.cells k (Int.lt_of_lt_of_le hk h.advances)).trans (h.cells k hk)
  statements k hk := (h'.statements k (Int.lt_of_lt_of_le hk h.advances)).trans (h.statements k hk)

theorem widens_put {c : Cell} (h : l.Becomes l' (l.env.contents.put l.env.nodes.next c) (l.env.nodes.next + 1)) :
    l.Widens l' where
  becomes := by
    rw [h.contents, h.next]
    exact h
  advances := by
    rw [h.next]
    exact Int.le_of_lt (Int.lt_succ _)
  nameOf := h.nameOf
  cells k hk := by
    rw [h.cells]
    exact getElem?_insert_of_ne _ _ (Int.ne_of_lt hk)
  statements k _ := by rw [h.statements]; rfl

theorem widens_relate {st : Statement}
    (h : l.Becomes l' (l.env.contents.relate l.env.nodes.next st) (l.env.nodes.next + 1)) : l.Widens l' where
  becomes := by
    rw [h.contents, h.next]
    exact h
  advances := by
    rw [h.next]
    exact Int.le_of_lt (Int.lt_succ _)
  nameOf := h.nameOf
  cells k hk := by
    rw [h.cells]
    exact getElem?_insert_of_ne _ _ (Int.ne_of_lt hk)
  statements k hk := by
    rw [h.statements]
    exact getElem?_insert_of_ne _ _ (Int.ne_of_lt hk)

/-- What a new node holds does not change with what is made after it. -/
theorem Widens.seed_content (h : l.Widens l') {k : Int} (hk : k ≤ l.env.nodes.next) (seed : Seed) :
    seed.content l'.env k = seed.content l.env k := by
  cases seed with
  | literal content => rfl
  | head n =>
    refine ite_congr rfl (fun hn => ?_) fun _ => rfl
    unfold Environment.content?
    rw [h.becomes.id, h.cells _ (Int.lt_of_lt_of_le hn hk)]

/-- Nothing stands in for anything more than before. -/
theorem Widens.imports (h : l.Widens l') (hl : l.Coherent)
    (hnone : ∀ (k : Int) (t : Node), l.env.nodes.next ≤ k → l'.env.nodes.cells[k]? ≠ some (.proxy t)) :
    l'.env.nodes.imports = l.env.nodes.imports := by
  refine table_ext fun t k => ?_
  rw [h.becomes.coherent.tabled.imports, hl.tabled.imports]
  by_cases hk : k < l.env.nodes.next
  · rw [h.cells k hk]
  · refine iff_of_false (hnone k t (Int.not_lt.1 hk)) fun hc => hk ?_
    exact (hl.tabled.bounds k (mem_of_getElem? hc)).2

end Locale

/-! ## The log of what is made -/

namespace Building

/-- For what was to be built so far the log has the new nodes, in order of their handles; whatever else is new is
a triple of one of them. -/
structure Sown (l : Locale) (seen : List Seed) (log : List (Seed × Int)) (b : Building) : Prop where
  widens : l.Widens b.locale
  cells : ∀ (h : Int) (c : Cell), l.env.nodes.next ≤ h → b.locale.env.nodes.cells[h]? = some c →
    c = .triple ∨ ∃ seed, (seed, h) ∈ log
  subjects : ∀ (h : Int) (st : Statement), l.env.nodes.next ≤ h → b.locale.env.triples.statements[h]? = some st →
    l.env.nodes.next ≤ st.subject
  holds : ∀ seed h, (seed, h) ∈ log → l.env.nodes.next ≤ h ∧
    b.locale.env.nodes.cells[h]? = some (.plain (seed.content b.locale.env h))
  ascending : (log.map Prod.snd).Pairwise (· < ·)
  heads : ∀ n m, b.heads[n]? = some m ↔ ∃ h, (.head n, h) ∈ log ∧ m = l.env.node h
  once : (log.filterMap (·.1.head?)).Nodup
  headed : ∀ n, n ∈ log.filterMap (·.1.head?) ↔ n ∈ seen.filterMap Seed.head?
  literals : log.filterMap (·.1.literal?) = seen.filterMap Seed.literal?

variable {around : Surroundings} {l : Locale} {seen : List Seed} {log : List (Seed × Int)} {b b' : Building}

theorem sown_nil (hl : l.Coherent) : Sown l [] [] ⟨l, [], ∅⟩ where
  widens := .refl hl
  cells h c hh hc := absurd (hl.tabled.bounds h (mem_of_getElem? hc)).2 (Int.not_lt.2 hh)
  subjects h st hh hst := by
    have hlive := mem_of_getElem? ((hl.tabled.statements h).1 (mem_of_getElem? hst))
    exact absurd (hl.tabled.bounds h hlive).2 (Int.not_lt.2 hh)
  holds _ _ hx := absurd hx List.not_mem_nil
  ascending := .nil
  heads n m := by simp
  once := .nil
  headed n := by simp
  literals := rfl

namespace Sown

theorem mem_head_iff (n : Node) : n ∈ log.filterMap (·.1.head?) ↔ ∃ h, (.head n, h) ∈ log := by
  rw [List.mem_filterMap]
  constructor
  · rintro ⟨⟨seed, h⟩, hx, hn⟩
    cases seed with
    | head m =>
      cases hn
      exact ⟨h, hx⟩
    | literal content => cases hn
  · exact fun ⟨h, hx⟩ => ⟨_, hx, rfl⟩

theorem below (hb : Sown l seen log b) {seed : Seed} {h : Int} (hx : (seed, h) ∈ log) :
    h < b.locale.env.nodes.next :=
  (hb.widens.becomes.coherent.tabled.bounds h (mem_of_getElem? (hb.holds seed h hx).2)).2

/-- Nodes that were noted, or heads that are the same, make no difference. -/
theorem congr (hb : Sown l seen log b) (hlocale : b'.locale = b.locale) (hheads : b'.heads = b.heads) :
    Sown l seen log b' := by
  obtain ⟨locale, created, heads⟩ := b
  obtain ⟨locale', created', heads'⟩ := b'
  cases hlocale
  cases hheads
  exact ⟨hb.widens, hb.cells, hb.subjects, hb.holds, hb.ascending, hb.heads, hb.once, hb.headed, hb.literals⟩

/-- A node for something that there is none for yet. -/
theorem sow (hb : Sown l seen log b) (seed : Seed) (hnew : ∀ n, seed = .head n → b.heads[n]? = none)
    (h : b.locale.Becomes b'.locale (b.locale.env.contents.put b.locale.env.nodes.next
      (.plain (seed.content b.locale.env b.locale.env.nodes.next))) (b.locale.env.nodes.next + 1))
    (hheads : ∀ n m, b'.heads[n]? = some m ↔
      (seed = .head n ∧ m = l.env.node b.locale.env.nodes.next) ∨ b.heads[n]? = some m) :
    Sown l (seen ++ [seed]) (log ++ [(seed, b.locale.env.nodes.next)]) b' := by
  have hw := Locale.widens_put h
  have hcells : ∀ (k : Int) (c : Cell), b'.locale.env.nodes.cells[k]? = some c ↔
      (k = b.locale.env.nodes.next ∧ c = .plain (seed.content b.locale.env b.locale.env.nodes.next)) ∨
        (k ≠ b.locale.env.nodes.next ∧ b.locale.env.nodes.cells[k]? = some c) := by
    intro k c
    rw [h.cells]
    exact getElem?_insert_iff _ _ _ _ _
  have hfresh : ∀ n, seed = .head n → n ∉ log.filterMap (·.1.head?) := by
    intro n hn hmem
    obtain ⟨k, hk⟩ := (mem_head_iff n).1 hmem
    cases (hnew n hn).symm.trans ((hb.heads n _).2 ⟨k, hk, rfl⟩)
  refine ⟨hb.widens.trans hw, ?_, ?_, ?_, ?_, ?_, ?_, ?_, ?_⟩
  · intro k c hk hc
    rcases (hcells k c).1 hc with ⟨rfl, -⟩ | ⟨-, hc⟩
    · exact .inr ⟨seed, by simp⟩
    · exact (hb.cells k c hk hc).imp_right fun ⟨seed, hx⟩ => ⟨seed, List.mem_append_left _ hx⟩
  · intro k st hk hst
    rw [h.statements] at hst
    exact hb.subjects k st hk hst
  · intro seed' k hx
    rcases List.mem_append.1 hx with hx | hx
    · obtain ⟨hk, hc⟩ := hb.holds seed' k hx
      have hlt := hb.below hx
      rw [hw.cells k hlt, hw.seed_content (Int.le_of_lt hlt)]
      exact ⟨hk, hc⟩
    · cases List.mem_singleton.1 hx
      rw [hw.seed_content (Int.le_refl _)]
      exact ⟨hb.widens.advances, (hcells _ _).2 (.inl ⟨rfl, rfl⟩)⟩
  · rw [List.map_append]
    refine List.pairwise_append.2 ⟨hb.ascending, List.pairwise_singleton _ _, fun k hk k' hk' => ?_⟩
    obtain ⟨x, hx, rfl⟩ := List.mem_map.1 hk
    cases List.mem_singleton.1 hk'
    exact hb.below hx
  · intro n m
    rw [hheads, hb.heads]
    simp only [List.mem_append, List.mem_singleton, Prod.mk.injEq]
    constructor
    · rintro (⟨rfl, rfl⟩ | ⟨k, hk, rfl⟩)
      · exact ⟨_, .inr ⟨rfl, rfl⟩, rfl⟩
      · exact ⟨k, .inl hk, rfl⟩
    · rintro ⟨k, hk | ⟨hseed, rfl⟩, rfl⟩
      · exact .inr ⟨k, hk, rfl⟩
      · exact .inl ⟨hseed.symm, rfl⟩
  · rw [List.filterMap_append]
    refine List.nodup_append.2 ⟨hb.once, ?_, ?_⟩
    · cases seed <;> simp [Seed.head?]
    · intro n hn m hm
      cases seed with
      | literal content => cases hm
      | head n' =>
        cases List.mem_singleton.1 hm
        rintro rfl
        exact hfresh n rfl hn
  · intro n
    rw [List.filterMap_append, List.filterMap_append, List.mem_append, List.mem_append, hb.headed]
    rfl
  · rw [List.filterMap_append, List.filterMap_append, hb.literals]
    rfl

/-- A node that heads another list has its new node already. -/
theorem again (hb : Sown l seen log b) {n m : Node} (hn : b.heads[n]? = some m) :
    Sown l (seen ++ [.head n]) log b := by
  obtain ⟨h, hx, -⟩ := (hb.heads n m).1 hn
  have hmem : n ∈ seen.filterMap Seed.head? := (hb.headed n).1 ((mem_head_iff n).2 ⟨h, hx⟩)
  refine ⟨hb.widens, hb.cells, hb.subjects, hb.holds, hb.ascending, hb.heads, hb.once, fun k => ?_, ?_⟩
  · rw [hb.headed, List.filterMap_append, List.mem_append]
    refine (or_iff_left_of_imp fun hk => ?_).symm
    cases List.mem_singleton.1 hk
    exact hmem
  · rw [hb.literals, List.filterMap_append]
    exact (List.append_nil _).symm

/-- A triple of a new node. -/
theorem relate (hb : Sown l seen log b) {st : Statement} (hsubject : l.env.nodes.next ≤ st.subject)
    (h : b.locale.Becomes b'.locale (b.locale.env.contents.relate b.locale.env.nodes.next st)
      (b.locale.env.nodes.next + 1)) (hheads : b'.heads = b.heads) : Sown l seen log b' := by
  have hw := Locale.widens_relate h
  refine ⟨hb.widens.trans hw, fun k c hk hc => ?_, fun k st' hk hst => ?_, fun seed k hx => ?_, hb.ascending,
    fun n m => by rw [hheads, hb.heads], hb.once, hb.headed, hb.literals⟩
  · rw [h.cells] at hc
    rcases (getElem?_insert_iff _ _ _ _ _).1 hc with ⟨-, rfl⟩ | ⟨-, hc⟩
    · exact .inl rfl
    · exact hb.cells k c hk hc
  · rw [h.statements] at hst
    rcases (getElem?_insert_iff _ _ _ _ _).1 hst with ⟨-, rfl⟩ | ⟨-, hst⟩
    · exact hsubject
    · exact hb.subjects k st' hk hst
  · obtain ⟨hk, hc⟩ := hb.holds seed k hx
    have hlt := hb.below hx
    rw [hw.cells k hlt, hw.seed_content (Int.le_of_lt hlt)]
    exact ⟨hk, hc⟩

end Sown

/-! ## Steps of building -/

/-- A new node, for something that there is none for yet. -/
theorem freshNode_sows (hb : Sown l seen log b) (content : Option Structure) :
    Ends (freshNode around content) b (fun m b' => m = l.env.node b.locale.env.nodes.next ∧ b'.heads = b.heads ∧
      b.locale.Becomes b'.locale (b.locale.env.contents.put b.locale.env.nodes.next (.plain content))
        (b.locale.env.nodes.next + 1)) (fun _ _ => True) := by
  unfold freshNode note
  rw [ends_bind, ends_lift]
  refine (Locale.createNode_ends hb.widens.becomes.coherent around none content).mono ?_ fun _ _ _ => trivial
  rintro m l' ⟨rfl, -, -, h⟩
  exact ⟨hb.widens.becomes.node _, rfl, h⟩

/-- A literal has a node of its own. -/
theorem literal_sows (hb : Sown l seen log b) (content : Option Structure) :
    Ends (freshNode around content) b (fun m b' => l.env.nodes.next ≤ m.id ∧
      ∃ log', Sown l (seen ++ [.literal content]) log' b') (fun _ _ => True) := by
  refine (freshNode_sows hb content).mono ?_ fun _ _ h => h
  rintro m b' ⟨rfl, hheads, h⟩
  refine ⟨hb.widens.advances, _, hb.sow (.literal content) (fun n hn => by cases hn) h fun n m => ?_⟩
  rw [hheads]
  simp

/-- The head of a list has a new node, which is made for it unless there is one. -/
theorem head_sows (hb : Sown l seen log b) (s : Structure) :
    Ends (head around s) b (fun m b' => l.env.nodes.next ≤ m.id ∧
      ∃ log', Sown l (seen ++ [s.headSeed]) log' b') (fun _ _ => True) := by
  cases s with
  | pair _ _ => trivial
  | node n =>
    unfold head
    rw [ends_bind, ends_get]
    cases hn : b.heads[n]? with
    | some m =>
      obtain ⟨h, hx, rfl⟩ := (hb.heads n m).1 hn
      exact ⟨(hb.holds _ h hx).1, log, hb.again hn⟩
    | none =>
      dsimp only
      rw [ends_bind, ends_get]
      refine (freshNode_sows hb _).bind ?_ fun _ _ h => h
      rintro m b' ⟨rfl, hheads, h⟩
      rw [ends_bind, ends_modify, ends_pure]
      -- a node that is not live holds nothing
      have hcontent : (Seed.head n).content b.locale.env b.locale.env.nodes.next = b.locale.env.content? n := by
        refine ite_eq_left_iff.2 fun hlt => ?_
        unfold Environment.content?
        split
        · rw [ExtTreeMap.getElem?_eq_none fun hlive =>
            hlt (hb.widens.becomes.coherent.tabled.bounds _ hlive).2]
          rfl
        · rfl
      refine ⟨hb.widens.advances, _, hb.sow (.head n) (fun k hk => by cases hk; exact hn) ?_ fun k m => ?_⟩
      · rw [hcontent]
        exact h
      · change (b'.heads.insert n _)[k]? = some m ↔ _
        rw [getElem?_insert_iff, hheads, Seed.head.injEq]
        constructor
        · rintro (⟨rfl, rfl⟩ | ⟨-, hm⟩)
          · exact .inl ⟨rfl, rfl⟩
          · exact .inr hm
        · rintro (⟨rfl, rfl⟩ | hm)
          · exact .inl ⟨rfl, rfl⟩
          · refine .inr ⟨?_, hm⟩
            rintro rfl
            cases hn.symm.trans hm
  | _ => exact literal_sows hb _

/-- Looking for a predicate changes nothing. -/
theorem predicate_stays (s : Structure) (b : Building) :
    Ends (predicate s) b (fun _ b' => b' = b) (fun _ _ => True) := by
  unfold predicate
  split
  · rfl
  · rw [ends_bind, ends_get]
    split
    · rfl
    · trivial
  · trivial

/-- A triple of a new node is there already, or it is made. -/
theorem triple_sows (hb : Sown l seen log b) {made : Node} (hmade : l.env.nodes.next ≤ made.id) (p o : Node)
    {rest : Step Unit} {Q : Unit → Building → Prop}
    (hrest : ∀ b', Sown l seen log b' → Ends rest b' Q fun _ _ => True) :
    Ends (do
      let (n, new) ← lift (Locale.insertTriple made p o)
      if new then note n
      rest) b Q (fun _ _ => True) := by
  rw [ends_bind, ends_lift]
  refine (Locale.insertTriple_ends hb.widens.becomes.coherent made p o).mono ?_ fun _ _ _ => trivial
  rintro ⟨n, new⟩ l' ⟨s, p, o, hs, -, -, ⟨rfl, rfl, -⟩ | ⟨hnew, -, h⟩⟩
  · exact hrest b hb
  · cases hnew
    cases hs.eq
    dsimp only
    unfold note
    simp only [↓reduceIte, ends_bind, ends_modify]
    refine hrest _ ?_
    exact hb.relate hmade h rfl

mutual

/-- Building makes the nodes that are still to be made for a structure. -/
theorem build_sows (s : Structure) : ∀ {seen : List Seed} {log : List (Seed × Int)} {b : Building},
    Sown l seen log b → Ends (build around s) b
      (fun _ b' => ∃ log', Sown l (seen ++ s.seeds) log' b') (fun _ _ => True) := by
  intro seen log b hb
  have hliteral : ∀ content, Ends (freshNode around content) b
      (fun _ b' => ∃ log', Sown l (seen ++ [.literal content]) log' b') (fun _ _ => True) := fun content =>
    (literal_sows hb content).mono (fun _ _ h => h.2) fun _ _ h => h
  match s with
  | .node n => exact ⟨log, by simpa [Structure.seeds] using hb⟩
  | .nothing => trivial
  | .pair car cdr =>
    unfold build
    refine (head_sows hb car).bind ?_ fun _ _ h => h
    rintro made b₁ ⟨hmade, log₁, hb₁⟩
    refine (buildEntries_sows (.pair car cdr) hmade cdr hb₁).bind ?_ fun _ _ h => h
    rintro - b₂ ⟨log₂, hb₂⟩
    rw [List.append_assoc] at hb₂
    exact ⟨log₂, hb₂⟩
  | .int _ | .bool _ | .str _ | .sym _ | .nil | .proc _ _ _ => exact hliteral _

/-- Building the entries of a list with a new head. -/
theorem buildEntries_sows (whole : Structure) {made : Node} (hmade : l.env.nodes.next ≤ made.id) (s : Structure) :
    ∀ {seen : List Seed} {log : List (Seed × Int)} {b : Building}, Sown l seen log b →
      Ends (buildEntries around whole made s) b
        (fun _ b' => ∃ log', Sown l (seen ++ s.entrySeeds) log' b') (fun _ _ => True) := by
  intro seen log b hb
  unfold buildEntries
  split
  · next p child rest =>
    refine (predicate_stays p b).bind ?_ fun _ _ h => h
    rintro relation _ rfl
    refine (build_sows child hb).bind ?_ fun _ _ h => h
    rintro value b₁ ⟨log₁, hb₁⟩
    refine triple_sows hb₁ hmade relation value fun b₂ hb₂ => ?_
    refine (buildEntries_sows whole hmade rest hb₂).mono ?_ fun _ _ h => h
    rintro - b₃ ⟨log₃, hb₃⟩
    rw [List.append_assoc] at hb₃
    exact ⟨log₃, hb₃⟩
  · trivial
  · exact ⟨log, by simpa [Structure.entrySeeds] using hb⟩
  · trivial

end

end Building

/-! ## What has been added -/

namespace Environment

/-- The new nodes for a structure, each with what it was made for, in the order of their handles: one for each
node that heads lists, and one for each literal. -/
structure NewNodes (e e' : Environment) (s : Structure) (made : List (Seed × Int)) : Prop where
  ascending : (made.map Prod.snd).Pairwise (· < ·)
  mem_iff : ∀ h, h ∈ made.map Prod.snd ↔ h ∉ e.nodes.cells ∧ ∃ content, e'.nodes.cells[h]? = some (.plain content)
  holds : ∀ seed h, (seed, h) ∈ made → e'.nodes.cells[h]? = some (.plain (seed.content e' h))
  /-- For a node that was there before, a new node holds the same. -/
  copies : ∀ n h, (.head n, h) ∈ made → e.contains (.node n) = true →
    e'.nodes.cells[h]? = some (.plain (e.content? n))
  once : (made.filterMap (·.1.head?)).Nodup
  heads : ∀ n, n ∈ made.filterMap (·.1.head?) ↔ n ∈ s.heads
  literals : made.filterMap (·.1.literal?) = s.literals

/-- What building a structure adds to an environment: its new nodes, and triples of new subjects. Everything else
is as it was, and no name is given. -/
structure Additions (e e' : Environment) (s : Structure) : Prop where
  id : e'.id = e.id
  pins : e'.pins = e.pins
  advances : e.nodes.next ≤ e'.nodes.next
  names : e'.nodes.names = e.nodes.names
  nameOf : e'.nodes.nameOf = e.nodes.nameOf
  imports : e'.nodes.imports = e.nodes.imports
  cells : ∀ (h : Int) (c : Cell), e.nodes.cells[h]? = some c → e'.nodes.cells[h]? = some c
  statements : ∀ (h : Int) (st : Statement), e.triples.statements[h]? = some st → e'.triples.statements[h]? = some st
  subjects : ∀ (h : Int) (st : Statement), e'.triples.statements[h]? = some st → h ∉ e.triples.statements →
    h ∉ e.nodes.cells ∧ st.subject ∉ e.nodes.cells
  nodes : ∃ made, e.NewNodes e' s made

end Environment

namespace Building.Sown

variable {l : Locale} {s : Structure} {log : List (Seed × Int)} {b : Building}

theorem newNodes (hb : Sown l s.seeds log b) (hl : l.Coherent) : l.env.NewNodes b.locale.env s log where
  ascending := hb.ascending
  mem_iff k := by
    constructor
    · intro hk
      obtain ⟨⟨seed, k⟩, hx, rfl⟩ := List.mem_map.1 hk
      obtain ⟨hnew, hc⟩ := hb.holds seed k hx
      exact ⟨fun hlive => Int.not_lt.2 hnew (hl.tabled.bounds k hlive).2, _, hc⟩
    · rintro ⟨hdead, content, hc⟩
      have hk : l.env.nodes.next ≤ k := Int.not_lt.1 fun hk =>
        hdead (mem_of_getElem? ((hb.widens.cells k hk).symm.trans hc))
      obtain ⟨seed, hx⟩ := (hb.cells k _ hk hc).resolve_left (by simp)
      exact List.mem_map.2 ⟨_, hx, rfl⟩
  holds seed k hx := (hb.holds seed k hx).2
  copies n k hx hn := by
    obtain ⟨hk, hc⟩ := hb.holds _ k hx
    have hlive : n.id ∈ l.env.nodes.cells := by
      simp only [Environment.contains, Bool.and_eq_true] at hn
      exact ExtTreeMap.contains_iff_mem.1 hn.2
    have hlt := (hl.tabled.bounds _ hlive).2
    have hcontent : (Seed.head n).content b.locale.env k = l.env.content? n := by
      refine (if_pos (Int.lt_of_lt_of_le hlt hk)).trans ?_
      unfold Environment.content?
      rw [hb.widens.becomes.id, hb.widens.cells _ hlt]
    rw [hc, hcontent]
  once := hb.once
  heads := hb.headed
  literals := hb.literals

theorem additions (hb : Sown l s.seeds log b) (hl : l.Coherent) : l.env.Additions b.locale.env s where
  id := hb.widens.becomes.id
  pins := hb.widens.becomes.pins
  advances := hb.widens.advances
  names := Locale.names_eq hb.widens.becomes.coherent.tabled.named hl.tabled.named hb.widens.nameOf
  nameOf := hb.widens.nameOf
  imports := hb.widens.imports hl fun k t hk hc => by
    rcases hb.cells k _ hk hc with heq | ⟨seed, hx⟩
    · cases heq
    · cases hc.symm.trans (hb.holds seed k hx).2
  cells k c hc := (hb.widens.cells k (hl.tabled.bounds k (mem_of_getElem? hc)).2).trans hc
  statements k st hst := by
    have hlive := mem_of_getElem? ((hl.tabled.statements k).1 (mem_of_getElem? hst))
    exact (hb.widens.statements k (hl.tabled.bounds k hlive).2).trans hst
  subjects k st hst hnew := by
    have hk : l.env.nodes.next ≤ k := Int.not_lt.1 fun hk =>
      hnew (mem_of_getElem? ((hb.widens.statements k hk).symm.trans hst))
    have hfresh : ∀ {j : Int}, l.env.nodes.next ≤ j → j ∉ l.env.nodes.cells := fun hj hlive =>
      Int.not_lt.2 hj (hl.tabled.bounds _ hlive).2
    exact ⟨hfresh hk, hfresh (hb.subjects k st hk hst)⟩
  nodes := ⟨log, hb.newNodes hl⟩

end Building.Sown

namespace Locale

variable {around : Surroundings} {l l₁ l₂ : Locale}

/-! ## Taking back what was made -/

/-- Without what was made, what the environment contains is what it contained. -/
theorem Alters.created_contents (hl : l.Coherent) {n : Node} (h : l.Alters around (.created n) l₁) :
    l₁.env.contents.without n.id = l.env.contents := by
  have hfresh := hl.tabled.fresh hl.tabled.fresh_handle
  cases h with
  | made _ _ _ _ h =>
    rw [h.contents]
    exact hfresh.without_put _ _
  | related _ _ _ _ h =>
    rw [h.contents]
    exact hfresh.without_relate _

/-- Removing what was made, the newest first, leaves exactly what there was. -/
theorem discardAll_returns (hl : l.Coherent) {ns : List Node} :
    ∀ {l₁ l₂ : Locale}, l.Alterations around (ns.map .created) l₁ → l₁.Restored l₂ →
      l₂.env.contents = l₁.env.contents →
      Ends (discardAll ns) l₂ (fun _ l₃ => l₃.env.contents = l.env.contents) (fun _ _ => False) := by
  induction ns with
  | nil =>
    intro l₁ l₂ h _ hsame
    cases h
    exact hsame
  | cons n ns ih =>
    intro l₁ l₂ h h₂ hsame
    cases h with
    | @more _ _ l₀ _ h h' =>
      have hn : Ends (discard n) l₂ (fun _ l₃ => l₀.Restored l₃ ∧
          l₂.Becomes l₃ ((Undo.created n).back l₂.env.contents) l₂.env.nodes.next) fun _ _ => False :=
        h'.undoes (h.coherent hl) h₂ .alone fun _ _ e => by cases e
      refine hn.bind ?_ fun _ _ h => h
      rintro - l₃ ⟨h₃, hb⟩
      refine ih h h₃ ?_
      rw [hb.contents, hsame]
      exact h'.created_contents (h.coherent hl)

/-- References follow from what the environment contains and from what the others have filed. -/
theorem references_eq (hl : l.Coherent) (hl' : l₁.Coherent) (hid : l₁.env.id = l.env.id)
    (hcells : l₁.env.nodes.cells = l.env.nodes.cells) (h : l.Elsewhere l₁) : l₁.references = l.references := by
  refine hl'.filed.references_tight.ext hl.filed.references_tight fun t n => ?_
  by_cases hn : n.env = l.env.id
  · have hnode : l.env.node n.id = n := by rw [Environment.node, ← hn]
    have hnode' : l₁.env.node n.id = n := by rw [Environment.node, hid, ← hn]
    have hacross := hl'.filed.across t n.id
    have hacross₀ := hl.filed.across t n.id
    rw [hnode'] at hacross
    rw [hnode] at hacross₀
    rw [hacross, hacross₀, hid]
    unfold Environment.Mentions
    rw [hcells]
  · exact h t n hn

/-- Building in a coherent locale: what was made can be removed again, which leaves the locale as it was but for
the counter; and if building succeeds, nothing is made but what the structure has nodes and triples for. -/
theorem raise_adds (hl : l.Coherent) (around : Surroundings) (s : Structure) :
    ∃ result created l₁ l₂, raise around s l = .ok (result, created) l₁ ∧ discardAll created l₁ = .ok () l₂ ∧
      l₂.env = { l.env with nodes.next := l₂.env.nodes.next } ∧ l.env.nodes.next ≤ l₂.env.nodes.next ∧
      l₂.references = l.references ∧ ∀ n, result = .ok n → l.env.Additions l₁.env s := by
  have hadds : Ends (raise around s) l (fun r l₁ => ∀ n, r.1 = .ok n → l.env.Additions l₁.env s)
      (fun _ _ => False) := by
    have h : Ends (Building.build around s) ⟨l, [], ∅⟩ _ _ := Building.build_sows s (Building.sown_nil hl)
    unfold Ends raise at *
    cases hb : Building.build around s ⟨l, [], ∅⟩ with
    | ok n b =>
      rw [hb] at h
      obtain ⟨log, hsown⟩ := h
      exact fun _ _ => hsown.additions hl
    | error fault b => exact fun n hn => by cases hn
  obtain ⟨⟨result, created⟩, l₁, hraise, halt, hadds⟩ :=
    (((raise_alters hl around s).and hadds).mono (fun _ _ h => h) fun _ _ h => h.1.elim).exists_ok
  have hr : l₁.Restored l₁ := ⟨halt.coherent hl, rfl, rfl, .refl _, Int.le_refl _⟩
  obtain ⟨⟨⟩, l₂, hdiscard, ⟨hres, hels, -⟩, hcontents⟩ :=
    (((discardAll_undoes hl halt hr).and (discardAll_returns hl halt hr rfl)).mono (fun _ _ h => h)
      fun _ _ h => h.1.elim).exists_ok
  refine ⟨result, created, l₁, l₂, hraise, hdiscard, ?_, hres.next, ?_, hadds⟩
  · exact hl.eq_of_contents hres.coherent hres.id hres.pins hcontents
  · exact references_eq hl hres.coherent hres.id hres.cells (halt.elsewhere.trans hels halt.id)

/-- A building that fails removes what it has made. -/
theorem rebuild_of_raise {s : Structure} {result : Except Fault Node} {created : List Node}
    (h : raise around s l = .ok (result, created) l₁) (h' : discardAll created l₁ = .ok () l₂) :
    rebuild around s l = match result with
      | .ok n => .ok n l₁
      | .error fault => .error fault l₂ := by
  unfold rebuild
  rw [bind_of_ok h]
  cases result with
  | ok n => rfl
  | error fault => exact bind_of_ok h'

/-- Rolling back a journal of what was made removes that. -/
theorem rollback_created {ns : List Node} (h : discardAll ns l = .ok () l₁) :
    Journal.rollback (fun (_ : Unit) u => u.perform around) (ns.map fun n => ((), .created n)) l =
      .ok () ([], l₁) := by
  induction ns generalizing l with
  | nil =>
    cases h
    rfl
  | cons n ns ih =>
    unfold discardAll at h
    simp only [List.map_cons, Journal.rollback, Undo.perform]
    cases hn : discard n l with
    | ok u l' =>
      rw [bind_of_ok hn] at h
      exact ih h
    | error fault l' =>
      rw [bind_of_error hn] at h
      cases h

end Locale

/-! ## Wherever an environment is -/

namespace Stage

/-- The environment is as it was, and so are the references in its universe, if it has one. Only the counter may
have moved on. -/
structure Keeps (s : Stage) (l l' : Locale) : Prop where
  env : l'.env = { l.env with nodes.next := l'.env.nodes.next }
  advances : l.env.nodes.next ≤ l'.env.nodes.next
  references : ∀ u id, s = .member u id → l'.references = l.references

variable {st : Stage} {l : Locale}

/-- Building as `Locale.raise_adds` describes it, with or without a universe. -/
theorem Arises.raise_adds (h : st.Arises) (hl : st.locale? = some l) (s : Structure) :
    ∃ result created l₁ l₂, Locale.raise st.around s l = .ok (result, created) l₁ ∧
      Locale.discardAll created l₁ = .ok () l₂ ∧ st.Keeps l l₂ ∧
      ∀ n, result = .ok n → l.env.Additions l₁.env s := by
  cases st with
  | alone around e =>
    cases hl
    -- with its own references on record, the environment is coherent and looks the same
    have he : e.Coherent := Environment.Arises.coherent h
    obtain ⟨result, created, l₁, l₂, hraise, hdiscard, henv, hnext, -, hadds⟩ :=
      Locale.raise_adds he.locale around s
    have hraised := Locale.raise_twin around s _ _ e.locale_twin
    rw [hraise] at hraised
    obtain ⟨⟨result', created'⟩, k₁, hraise', ⟨hresult, rfl⟩, htwin₁⟩ := hraised.exists_ok
    have hdiscarded := Locale.discardAll_twin created' _ _ htwin₁
    rw [hdiscard] at hdiscarded
    obtain ⟨_, k₂, hdiscard', -, htwin₂⟩ := hdiscarded.exists_ok
    have hkeeps : Keeps (.alone around e) ⟨e, ∅⟩ k₂ := by
      refine ⟨?_, htwin₂.env ▸ hnext, fun _ _ h => by cases h⟩
      rw [← htwin₂.env]
      exact henv
    refine ⟨result', created', k₁, k₂, hraise', hdiscard', hkeeps, ?_⟩
    rintro n rfl
    cases hresult with
    | ok hn => exact htwin₁.env ▸ hadds _ rfl
  | member u id =>
    obtain ⟨he, heq⟩ := locale_member hl
    have hlocale : l.Coherent := heq ▸ h.1.coherent.locale he
    obtain ⟨result, created, l₁, l₂, hraise, hdiscard, henv, hnext, hreferences, hadds⟩ :=
      Locale.raise_adds hlocale (u.surroundings id) s
    exact ⟨result, created, l₁, l₂, hraise, hdiscard, ⟨henv, hnext, fun _ _ _ => hreferences⟩, hadds⟩

/-- Building a region in an environment, wherever it has come to be, has added what the structure has nodes and triples
for and nothing else; or it fails and has added nothing. With a journal it comes to the same, as long as something
writes the environment's id: the journal is given what was made, and rolling back leaves the environment as it was. -/
theorem rebuild_only_adds (h : st.Arises) (hl : st.locale? = some l) (s : Structure) :
    Ends (Locale.rebuild st.around s) l (fun _ l₁ => l.env.Additions l₁.env s) (fun _ l₁ => st.Keeps l l₁) ∧
    (Decimal.isWritable l.env.id = true →
      ∃ result created l₁ l₂, Locale.raiseRecorded st.around s l = .ok (result, created) l₁ ∧
        Journal.rollback (fun (_ : Unit) u => u.perform st.around) (created.map fun n => ((), .created n)) l₁ =
          .ok () ([], l₂) ∧
        st.Keeps l l₂ ∧
        match result with
        | .ok n => Locale.rebuild st.around s l = .ok n l₁
        | .error f => ∃ l₃, Locale.rebuild st.around s l = .error f l₃) := by
  obtain ⟨result, created, l₁, l₂, hraise, hdiscard, hkeeps, hadds⟩ := h.raise_adds hl s
  have hrebuild := Locale.rebuild_of_raise hraise hdiscard
  refine ⟨?_, fun hid => ⟨result, created, l₁, l₂, ?_, Locale.rollback_created hdiscard, hkeeps, ?_⟩⟩
  · unfold Ends
    rw [hrebuild]
    cases result with
    | ok n => exact hadds n rfl
    | error f => exact hkeeps
  · rw [Locale.raiseRecorded, if_pos hid]
    exact hraise
  · cases result with
    | ok n => exact hrebuild
    | error f => exact ⟨l₂, hrebuild⟩

/-- A predicate with a name, and a node that holds a number. -/
def orchard : Stage := .alone .alone ((Environment.fresh 0).evolved <|
  [.createNode (some "on") none, .createNode none (some (.int 7))].map fun op => (.alone, op))

/-- A list with a node that heads two lists, and with a literal that occurs twice. -/
def grafts (tail : Structure) : Structure :=
  .pair (.node ⟨0, 2⟩) (.pair (.list [.sym "on", .list [.node ⟨0, 2⟩, .list [.sym "on", .int 5]]])
    (.pair (.list [.node ⟨0, 1⟩, .list [.int 5]]) tail))

/-- The list takes three nodes and three triples. If it has an end that it must not have, these are made, too, and
removed again, by the building itself or with the journal. -/
theorem orchard_only_grows : ∃ l, orchard.Arises ∧ orchard.locale? = some l ∧ l.env.size = 3 ∧
    (∃ n l₁, Locale.rebuild orchard.around (grafts .nil) l = .ok n l₁ ∧ l.env.Additions l₁.env (grafts .nil) ∧
      l₁.env.size = 9) ∧
    Decimal.isWritable l.env.id = true ∧
    ∃ f created l₁ l₂ l₃, Locale.raiseRecorded orchard.around (grafts (.int 0)) l = .ok (.error f, created) l₁ ∧
      created.length = 6 ∧
      Journal.rollback (fun (_ : Unit) u => u.perform orchard.around) (created.map fun n => ((), .created n)) l₁ =
        .ok () ([], l₂) ∧ orchard.Keeps l l₂ ∧
      Locale.rebuild orchard.around (grafts (.int 0)) l = .error f l₃ ∧ orchard.Keeps l l₃ := by
  have harises : orchard.Arises := Environment.Arises.evolved (.fresh 0) _
  obtain ⟨l, hl⟩ := harises.exists_locale
  have hrun : orchard.locale?.map (fun l => (l.env.size, Decimal.isWritable l.env.id,
      passes (Locale.rebuild orchard.around (grafts .nil)) l (fun _ l₁ => l₁.env.size == 9),
      passes (Locale.raiseRecorded orchard.around (grafts (.int 0))) l fun r _ => !r.1.toBool && r.2.length == 6)) =
      some (3, true, true, true) := by
    decide +kernel
  rw [hl] at hrun
  simp only [Option.map_some, Option.some.injEq, Prod.mk.injEq] at hrun
  obtain ⟨hsize, hid, hgood, hbad⟩ := hrun
  refine ⟨l, harises, hl, hsize, ?_, hid, ?_⟩
  · obtain ⟨n, l₁, hok, hsize₁⟩ := exists_of_passes hgood
    obtain ⟨hends, -⟩ := rebuild_only_adds harises hl (grafts .nil)
    exact ⟨n, l₁, hok, hends.of_ok hok, beq_iff_eq.1 hsize₁⟩
  · obtain ⟨⟨result', created'⟩, l₁', hraise', hcount⟩ := exists_of_passes hbad
    obtain ⟨hends, hrecorded⟩ := rebuild_only_adds harises hl (grafts (.int 0))
    obtain ⟨result, created, l₁, l₂, hraise, hrollback, hkeeps, hresult⟩ := hrecorded hid
    cases hraise'.symm.trans hraise
    simp only [Bool.and_eq_true, beq_iff_eq] at hcount
    cases result' with
    | ok n => cases hcount.1
    | error f =>
      obtain ⟨l₃, herror⟩ := hresult
      exact ⟨f, created', l₁', l₂, l₃, hraise', hcount.2, hrollback, hkeeps, herror, hends.of_error herror⟩

end Stage

/-- The record of an environment whose id nothing writes. -/
def boundless : Plain := .object [("format", .text Environment.recordFormat), ("version", .int 1),
  ("id", .int Decimal.firstTooLong), ("next", .int 1), ("nodes", .list [.object [("id", .int 0)]])]

/-- There, a literal gets a node; but with a journal building fails, and the journal does not know of the node. -/
theorem boundless_not_recorded : ∃ e n l₁ f l₂, Environment.fromRecord boundless = .ok e ∧
    Locale.rebuild .alone (.int 5) ⟨e, ∅⟩ = .ok n l₁ ∧
    Locale.raiseRecorded .alone (.int 5) ⟨e, ∅⟩ = .ok (.error f, []) l₂ ∧ e.size = 1 ∧ l₂.env.size = 2 := by
  have hrun : ((Environment.fromRecord boundless).toOption.map fun e =>
      (e.size, passes (Locale.rebuild .alone (.int 5)) ⟨e, ∅⟩ (fun _ _ => true),
        passes (Locale.raiseRecorded .alone (.int 5)) ⟨e, ∅⟩ fun r l =>
          !r.1.toBool && (r.2.isEmpty && l.env.size == 2))) = some (1, true, true) := by
    decide +kernel
  obtain ⟨e, he, hrun⟩ := Option.map_eq_some_iff.1 hrun
  simp only [Prod.mk.injEq] at hrun
  obtain ⟨hsize, hrebuild, hrecorded⟩ := hrun
  obtain ⟨n, l₁, hn, -⟩ := exists_of_passes hrebuild
  obtain ⟨⟨result, created⟩, l₂, hl₂, hrecorded⟩ := exists_of_passes hrecorded
  simp only [Bool.and_eq_true, List.isEmpty_iff, beq_iff_eq] at hrecorded
  obtain ⟨hfails, rfl, hsize₂⟩ := hrecorded
  cases result with
  | ok n => cases hfails
  | error f => exact ⟨e, n, l₁, f, l₂, ok_of_toOption he, hn, hl₂, hsize, hsize₂⟩

end GraphLisp
