import GraphLisp.Proofs.Environment.OnRecord
import GraphLisp.Proofs.Session.Likeness
import GraphLisp.Proofs.Session.Names
import GraphLisp.Proofs.Universe.Decoded
import GraphLisp.Proofs.Universe.Reload
/-!
# Sessions started again

A checkpoint of a session writes every environment, whatever agents have done to it, and a session that
is started from the folder takes up the universe where it was left (`Session.restarts`): closures keep
what their scopes show, and nothing else differs. Setting it up makes no node, since the nodes that play
roles, and those that denote the two environments of the session, have kept their names
(`Session.setUp_again`).
-/

namespace GraphLisp

open Std

/-! ## Setting up again -/

namespace Context

/-- A node plays a role. -/
def Casts (c : Context) (n : Node) : Prop := c.roleOf (.node n) ≠ none

/-- A node that is bound plays a role from then on, as do those before it. -/
theorem bind_casts (word : String) (n : Node) (c : Context) :
    Ends (bind word (.node n)) c (fun _ c' => c'.Casts n ∧ ∀ m, c.Casts m → c'.Casts m) fun _ _ => True := by
  refine (bind_ends word (.node n) c).mono ?_ fun _ _ h => h
  rintro _ c' ⟨r, -, -, -, hc'⟩
  have hrole := roleOf_cons (congrArg roles hc')
  refine ⟨by rw [Casts, hrole, if_pos rfl]; exact Option.some_ne_none r, fun m hm => ?_⟩
  rw [Casts, hrole]
  split
  · exact Option.some_ne_none r
  · exact hm

/-- Binding the roles again comes to the same context and changes nothing, where the players have
their names. -/
def Rebinds (id : Int) (rs : List Role) (c c' : Context) (u : Universe) : Prop :=
  ∀ v : Universe, v.Coherent → id ∈ v.members → (∀ s n, c'.Casts n → u.Calls s n → v.Calls s n) →
    bindAll id rs c v = .ok c' v

theorem bindAll_rebinds (id : Int) (rs : List Role) : ∀ {u : Universe} (c : Context), u.CoherentClosed →
    Ends (bindAll id rs c) u (fun c' w => (∀ m, c.Casts m → c'.Casts m) ∧ Rebinds id rs c c' w)
      fun _ _ => True := by
  induction rs with
  | nil => exact fun c _ => ⟨fun _ hm => hm, fun _ _ _ _ => rfl⟩
  | cons r rest ih =>
    intro u c hu
    have hgrowing := Universe.growing_keeps Universe.lasting_true
    have hnode := (hgrowing u).roleNode id r u ⟨⟨hu, trivial⟩, .refl u⟩
    unfold bindAll
    refine (hnode.and (Universe.roleNode_calls hu id r)).bind ?_ fun _ _ _ => trivial
    rintro n u₁ ⟨⟨hu₁, -⟩, henv, hcalls⟩
    split
    · next c₁ hbind =>
      obtain ⟨hn, hold⟩ := (bind_casts r.word n c).of_ok hbind
      have hrest := (hgrowing u₁).bindAll id rest c₁ u₁ ⟨hu₁, .refl u₁⟩
      refine (hrest.and (ih c₁ hu₁.toCoherentClosed)).mono ?_ fun _ _ _ => trivial
      rintro c' w ⟨⟨-, hk⟩, hcasts, hagain⟩
      refine ⟨fun m hm => hcasts m (hold m hm), fun v hv hid hkept => ?_⟩
      -- the node for the first role is found, and binding it is the same again
      have hfound := Universe.roleNode_found hv hid henv (hkept _ n (hcasts n hn) (hk.calls _ n hcalls))
      unfold bindAll
      rw [bind_of_ok hfound, hbind]
      exact hagain v hv hid hkept
    · trivial

end Context

namespace Session

/-- Setting up again takes the same context and the same home and changes nothing, where the
environments are still there and safe nodes have their names. -/
theorem setUp_again {config : Config} {lang home : String} (hlang : config.langName = some lang)
    (hhome : config.homeName = some home) {u : Universe} (hu : u.CoherentClosed) :
    Ends (setUp config) u (fun x w => ∀ v : Universe, v.Coherent → (∀ id ∈ w.members, id ∈ v.members) →
      (∀ s n, w.Safe x.1 n → w.Calls s n → v.Calls s n) → setUp config v = .ok x v) fun _ _ => True := by
  have hgrowing := Universe.growing_keeps Universe.lasting_true
  have hdemand := (hgrowing u).demandEnvironment (some lang) u ⟨⟨hu, trivial⟩, .refl u⟩
  unfold setUp Context.bootstrap
  simp only [hlang, hhome, ends_bind]
  refine (hdemand.and (Universe.demandEnvironment_calls hu lang)).mono ?_ fun _ _ _ => trivial
  rintro id u₁ ⟨⟨hu₁, -⟩, hcalls₁, hid₁⟩
  have hroles := (hgrowing u₁).bindAll id Role.all (.empty (some id)) u₁ ⟨hu₁, .refl u₁⟩
  refine (hroles.and (Context.bindAll_rebinds id Role.all (.empty (some id)) hu₁.toCoherentClosed)).mono ?_
    fun _ _ _ => trivial
  rintro c u₂ ⟨⟨hu₂, hk₂⟩, -, hagain⟩
  have hdemand := (hgrowing u₂).demandEnvironment (some home) u₂ ⟨hu₂, .refl u₂⟩
  refine (hdemand.and (Universe.demandEnvironment_calls hu₂.toCoherentClosed home)).mono ?_ fun _ _ _ => trivial
  rintro h w ⟨⟨-, hk⟩, hcalls, hh⟩ v hv hmembers hkept
  have hid : id ∈ w.members := hk.members id (hk₂.members id hid₁)
  have hlangv : v.Calls lang ⟨rootId, id⟩ :=
    hkept _ _ (.inr ⟨rfl, hid⟩) (hk.calls _ _ (hk₂.calls _ _ hcalls₁))
  have hrolesv := hagain v hv (hmembers id hid) fun s n hn hs => hkept s n (.inl hn) (hk.calls s n hs)
  have hhomev : v.Calls home ⟨rootId, h⟩ := hkept _ _ (.inr ⟨rfl, hh⟩) hcalls
  have hbootstrap : Context.bootstrap (some lang) v = .ok c.close v := by
    unfold Context.bootstrap
    rw [bind_of_ok (Universe.demandEnvironment_found hv hlangv (hmembers id hid)), bind_of_ok hrolesv]
    rfl
  change (Context.bootstrap (some lang) >>= _) v = _
  rw [bind_of_ok hbootstrap, bind_of_ok (Universe.demandEnvironment_found hv hhomev (hmembers h hh))]
  rfl

end Session

/-! ## What turns leave -/

/-- What a turn is given is sound: the structure to run, and what its agent has bound. -/
structure Turn.Sound (t : Turn) : Prop where
  state : t.state.Like false t.state
  program : t.program.Sound false

theorem Turn.play_sound {c : Context} (hc : c.OfNodes) {t : Turn} (ht : t.Sound) {u : Universe}
    (hu : u.Sound false) : (t.play c u).Sound false := by
  have hstep := Evaluator.step_agree (fun r s => hc.sound r s) ht.state t.depth (.refl ht.program)
  have hleft := hstep.after ((Universe.like_iff u u).2 ⟨rfl, hu, hu⟩)
  rw [Turn.play_eq]
  exact ((Universe.like_iff _ _).1 hleft).2.1

namespace Session

variable {config : Config} {label : String} {f f' : Folder} {s : Session} {ts : List Turn}

theorem played_sound (hs : s.store.Sound false) (hc : s.context.OfNodes) (hts : ∀ t ∈ ts, t.Sound) :
    (s.played ts).Sound false := by
  unfold played
  generalize s.store = u at hs
  induction ts generalizing u with
  | nil => exact hs
  | cons t ts ih =>
    obtain ⟨ht, hts⟩ := List.forall_mem_cons.1 hts
    exact ih hts _ (Turn.play_sound hc ht hs)

/-- Turns take no name away from safe nodes, and no environments. -/
theorem played_calls (hs : Universe.CoherentClosedWith (fun u => u.Unnamed ∧ u.Writable) s.store) (ts : List Turn) :
    (∀ id ∈ s.store.members, id ∈ (s.played ts).members) ∧
      ∀ x n, s.store.Safe s.context n → s.store.Calls x n → (s.played ts).Calls x n := by
  unfold played
  generalize s.store = u at hs
  induction ts generalizing u with
  | nil => exact ⟨fun _ h => h, fun _ _ _ h => h⟩
  | cons t ts ih =>
    obtain ⟨hmembers, hcalls⟩ := t.play_calls s.context hs
    obtain ⟨hmembers', hcalls'⟩ :=
      ih _ (t.play_lasts (Universe.lasting_unnamed.and Universe.lasting_writable) And.right s.context hs)
    refine ⟨fun id hid => hmembers' id (hmembers id hid), fun x n hsafe hn => ?_⟩
    exact hcalls' x n (hsafe.imp_right fun h => ⟨h.1, hmembers _ h.2⟩) (hcalls x n hn hsafe)

/-- A session that starts from its folder sets up the universe that is in it, and leaves the folder alone. -/
theorem start_ok_iff (hdir : config.snapshotDir.isSome) (hreset : config.reset = false) :
    start config label f = .ok s f' ↔
      f' = f ∧ ∃ u, Universe.load label f = .ok u ∧ ofUniverse config u = .ok s := by
  rw [start_eq, if_pos hdir, hreset]
  cases hu : Universe.load label f with
  | error fault => simp [bind, EStateM.bind, Universe.start, hu]
  | ok u =>
    have hload : Universe.start label false f = .ok u f := by simp [Universe.start, hu]
    rw [bind_of_ok hload]
    unfold opened
    cases hs : ofUniverse config u with
    | error fault => exact iff_of_false (fun h => by cases h) (by simp [hs])
    | ok s' =>
      simp only [pure, EStateM.pure, EStateM.Result.ok.injEq, Except.ok.injEq, exists_eq_left', hs]
      exact and_comm.trans (and_congr_left' eq_comm)

end Session

/-! ## Checkpoints -/

namespace Environment

/-- JSON can spell the record of an environment: it is not too deep, no number in it is too long, and every
text in it spells characters. -/
def Spelled (e : Environment) : Prop :=
  ∀ p, e.toRecord = .ok p → p.depth ≤ Snapshot.maxDepth .json ∧ p.isWritable = true ∧ p.isSpelled = true

instance (e : Environment) : Decidable e.Spelled :=
  match h : e.toRecord with
  | .ok p =>
    decidable_of_iff (p.depth ≤ Snapshot.maxDepth .json ∧ p.isWritable = true ∧ p.isSpelled = true) <| by
      simp [Spelled, h]
  | .error _ => .isTrue (by simp [Spelled, h])

theorem Spelled.snapshot {e : Environment} (he : e.Tabled) (hs : e.Sound false) (h : e.Spelled) :
    ∃ b, e.snapshot (some "json") = .ok b := by
  obtain ⟨p, hp⟩ := exists_record he hs
  obtain ⟨hdepth, hwritable, ht⟩ := h p hp
  unfold Environment.snapshot
  rw [hp]
  exact Snapshot.exists_bytes (native_toRecord hp) hdepth hwritable ht

end Environment

namespace Universe

variable {u : Universe}

/-- JSON can spell every environment. -/
def Spelled (u : Universe) : Prop := ∀ e ∈ u.environments, e.Spelled

instance : Decidable u.Spelled := inferInstanceAs (Decidable (∀ e ∈ u.environments, e.Spelled))

/-- What keeps a sound universe from being saved: it cannot be spelled, or a folder is in the way of a file. -/
def Hindered (u : Universe) (f : Folder) : Prop :=
  ¬u.Spelled ∨ ∃ id ∈ u.members, f[Folder.nameOfId id .json]? = some .folder

/-- Saving a sound universe stops only if it is hindered. -/
theorem saveAs_sound_ends (hu : u.Coherent) (hids : ∀ id ∈ u.members, 0 ≤ id) (hs : u.Sound false) (f : Folder) :
    Ends (u.saveAs .json) f (fun names g => names = u.fileNames ∧ u.SavedIn f g) fun _ g =>
      u.Hindered f ∧ Stopped u.environments f g := by
  refine (saveAs_ends hu hids f).mono (fun _ _ h => h) fun _ g h => ⟨?_, h⟩
  obtain ⟨done, e, rest, heq, hunsaved, -⟩ := h
  have hmem : e ∈ u.environments := heq ▸ List.mem_append_right _ (.head _)
  obtain ⟨id, he⟩ := (mem_environments e).1 hmem
  rcases hunsaved with ⟨fault, hfault⟩ | hfolder
  · refine .inl fun h => ?_
    obtain ⟨b, hb⟩ := (h e hmem).snapshot (hu.tabled id e he) (hs.members id e he)
    cases hfault.symm.trans hb
  · rw [hu.ids id e he] at hfolder
    exact .inr ⟨id, mem_of_getElem? he, hfolder⟩

theorem calls_flattened {s : String} {n : Node} (h : u.Calls s n) : u.flattened.Calls s n := by
  obtain ⟨e, he, hs⟩ := h
  refine ⟨e.flattened, ?_, hs⟩
  rw [getElem?_flattened, he]
  rfl

end Universe

/-! ## Starting again -/

/-- The second environment is the first one, but for the scopes of procedures, which show the same in one
level. -/
structure Environment.Resumes (e e' : Environment) : Prop where
  id : e'.id = e.id
  next : e'.nodes.next = e.nodes.next
  names : e'.nodes.names = e.nodes.names
  nameOf : e'.nodes.nameOf = e.nodes.nameOf
  imports : e'.nodes.imports = e.nodes.imports
  triples : e'.triples = e.triples
  /-- The same handles are live, and they stand for the same. -/
  cells : ∀ h : Int, e'.nodes.cells[h]? = e.nodes.cells[h]?.map Cell.flattened
  contents : ∀ (h : Int) (a : Structure), e.nodes.cells[h]? = some (.plain (some a)) →
    ∃ b, e'.nodes.cells[h]? = some (.plain (some b)) ∧ b = a.flattened ∧ a.same b = true

theorem Environment.resumes_flattened (e : Environment) : e.Resumes e.flattened where
  id := rfl
  next := rfl
  names := rfl
  nameOf := rfl
  imports := rfl
  triples := rfl
  cells _ := ExtTreeMap.getElem?_map
  contents h a ha := by
    refine ⟨a.flattened, ?_, rfl, a.same_own_flattened⟩
    refine ExtTreeMap.getElem?_map.trans ?_
    rw [ha]
    rfl

namespace Session

/-- The second session is the first one, taken up where its universe has come to. -/
structure Resumes (s : Session) (u : Universe) (s' : Session) : Prop where
  config : s'.config = s.config
  context : s'.context = s.context
  home : s'.home = s.home
  members : ∀ id, id ∈ s'.store.members ↔ id ∈ u.members
  each : ∀ (id : Int) (e e' : Environment), u.members[id]? = some e → s'.store.members[id]? = some e' →
    e.Resumes e'
  references : s'.store.references = u.references

/-- Sessions with this configuration keep their universe in a folder, in JSON, and their two
environments have names. -/
structure Durable (config : Config) : Prop where
  dir : config.snapshotDir.isSome
  format : config.snapshotFormat = "json"
  kept : config.reset = false
  lang : config.langName.isSome
  home : config.homeName.isSome

variable {config : Config} {label : String} {f f' : Folder} {s : Session} {ts : List Turn}

/-- A session is set up again the same way for a universe that has kept its environments and the names of
safe nodes. -/
theorem ofUniverse_again (hconfig : Durable config) {u v : Universe} (hu : u.CoherentClosed)
    (hs : ofUniverse config u = .ok s) (hv : v.Coherent) (hmembers : ∀ id ∈ s.store.members, id ∈ v.members)
    (hkept : ∀ x n, s.store.Safe s.context n → s.store.Calls x n → v.Calls x n) :
    ofUniverse config v = .ok { s with store := v } := by
  obtain ⟨lang, hlang⟩ := Option.isSome_iff_exists.1 hconfig.lang
  obtain ⟨home, hhome⟩ := Option.isSome_iff_exists.1 hconfig.home
  unfold ofUniverse at hs ⊢
  split at hs
  · next c h w heq =>
    cases hs
    have hsetup := (setUp_again hlang hhome hu).of_ok heq
    rw [hsetup v hv hmembers hkept]
  · cases hs

/-- After any turns, a checkpoint leaves the snapshots of the universe and no other ones in the folder,
whatever is in it by then, and a session that is started from them is the same session with the same
universe. It fails only if JSON cannot spell the universe or a folder is in the way of a file; then the snapshots
of the environments before the one at fault have been written, and nothing else has been touched. -/
theorem restarts (hconfig : Durable config) (hs : start config label f = .ok s f') (hts : ∀ t ∈ ts, t.Sound)
    (now : Folder) :
    Ends (checkpoint config (s.played ts)) now
      (fun names g => names = (s.played ts).fileNames ∧ (s.played ts).SavedIn now g ∧
        ∀ label', ∃ s', start config label' g = .ok s' g ∧ s.Resumes (s.played ts) s')
      fun _ g => (s.played ts).Hindered now ∧ Universe.Stopped (s.played ts).environments now g := by
  obtain ⟨-, u, hu, hset⟩ := (start_ok_iff hconfig.dir hconfig.kept).1 hs
  have hclosed : u.CoherentClosed := ⟨(Universe.load_loading hu).1.coherent, (Universe.load_loading hu).2⟩
  have hempty : Universe.Storable .empty := ⟨Universe.empty_loading.unnamed, Universe.empty_loading.unpinned⟩
  have hstore := start_lasts Universe.lasting_storable hempty
    (fun _ h => ⟨(Universe.load_loading h).1.unnamed, (Universe.load_loading h).1.unpinned⟩) hs
  obtain ⟨hsound, hnodes⟩ := ofUniverse_sound (Universe.load_sound hu) hset
  obtain ⟨hcoherent, hmembers, hadvances⟩ := played_advances hstore.coherent ts
  have hids : ∀ id ∈ (s.played ts).members, 0 ≤ id := fun id hid => hstore.id_nonneg ((hmembers id).1 hid)
  unfold checkpoint
  rw [if_pos hconfig.dir, hconfig.format]
  refine (Universe.saveAs_sound_ends hcoherent hids (played_sound hsound hnodes hts) now).mono ?_ fun _ _ h => h
  rintro names g ⟨rfl, hsaved⟩
  refine ⟨rfl, hsaved, fun label' => ?_⟩
  -- the counters are in the snapshots, so every change was recorded and taken back if its turn failed
  have hwritable : s.store.Writable := hadvances.writable hstore.toCoherentClosed fun id e he =>
    have ⟨_, hb, _⟩ := hsaved.saved id e he
    Snapshot.writable_of_snapshot hb
  have hplayed := (played_lasts (Universe.lasting_storable.and Universe.lasting_writable) And.right
    ⟨hstore.toCoherentClosed, hstore.prop, hwritable⟩ ts)
  -- what is loaded is the universe with its scopes flattened, which has kept all names
  have hload := Universe.load_saved ⟨hplayed.toCoherentClosed, hplayed.prop.1⟩ hsaved label'
  obtain ⟨hmembers, hcalls⟩ := played_calls ⟨hstore.toCoherentClosed, hstore.prop.1, hwritable⟩ ts
  have hagain := ofUniverse_again hconfig hclosed hset hplayed.flattened.coherent
    (fun id hid => (Universe.mem_flattened _ id).2 (hmembers id hid))
    fun x n hsafe hn => Universe.calls_flattened (hcalls x n hsafe hn)
  refine ⟨_, (start_ok_iff hconfig.dir hconfig.kept).2 ⟨rfl, _, hload, hagain⟩, rfl, rfl, rfl,
    Universe.mem_flattened _, fun id e e' he he' => ?_, rfl⟩
  rw [Universe.getElem?_flattened, he] at he'
  cases he'
  exact e.resumes_flattened

/-- A folder with a file that is no snapshot. -/
def notes : Folder := (∅ : Folder).insert "notes.txt" (.file .empty)

/-- The folder with a snapshot of an environment that is gone. -/
def littered : Folder := notes.insert "env-9.yml" (.file .empty)

/-- A configuration that keeps snapshots. -/
def keeping : Config := ⟨some "store", "json", false, some "lang", some "home"⟩

/-- An agent at home that names a closure whose scope has two levels. -/
def closing : Turn where
  state := (Agent.spawn 2 (.node ⟨2, selfHandle⟩)).state
  depth := 9
  program := .list [.sym "def", .sym "adder", .list [.sym "let", .list [.list [.sym "x", .int 1]],
    .list [.sym "let", .list [.list [.sym "y", .int 2]],
      .list [.sym "lambda", .list [.sym "z"], .list [.sym "+", .sym "x", .sym "y", .sym "z"]]]]]

theorem closure_restarts : ∃ s g s', start keeping "" notes = .ok s notes ∧
    checkpoint keeping (s.played [closing]) littered = .ok ["env-0.json", "env-1.json", "env-2.json"] g ∧
    g["env-9.yml"]? = none ∧ g["notes.txt"]? = some (.file .empty) ∧
    start keeping "" g = .ok s' g ∧ s.Resumes (s.played [closing]) s' := by
  have hrun : passes (start keeping "") notes (fun s _ =>
      decide (s.played [closing]).Spelled &&
        (s.played [closing]).fileNames == ["env-0.json", "env-1.json", "env-2.json"]) = true := by
    decide +kernel
  have hdurable : Durable keeping := ⟨rfl, rfl, rfl, rfl, rfl⟩
  have hclosing : closing.Sound := by
    refine ⟨⟨rfl, .node _, Level.like_nil, Scope.like_nil⟩, ?_⟩
    repeat' constructor
  have hfiles : ∀ name : String, littered[name]? ≠ some .folder := by
    intro name
    simp only [littered, notes, ExtTreeMap.getElem?_insert]
    split <;> [skip; split] <;> simp
  obtain ⟨s, f, hs, hrun⟩ := exists_of_passes hrun
  rw [Bool.and_eq_true, decide_eq_true_eq, beq_iff_eq] at hrun
  obtain ⟨hspelled, hnames⟩ := hrun
  obtain ⟨rfl, -⟩ := (start_ok_iff hdurable.dir hdurable.kept).1 hs
  have hends := restarts hdurable hs (List.forall_mem_singleton.2 hclosing) littered
  obtain ⟨names, g, hg, rfl, hsaved, hagain⟩ := (hends.mono (fun _ _ h => h) fun _ _ h =>
    h.1.elim (· hspelled) fun ⟨_, _, hfolder⟩ => hfiles _ hfolder).exists_ok
  rw [hnames] at hg
  have hkept := hsaved.others "notes.txt" (by rw [hnames]; decide)
    fun ⟨_, _, hid⟩ => absurd hid (by decide +kernel)
  have hgone := hsaved.gone "env-9.yml" (by rw [hnames]; decide)
    ⟨.empty, ExtTreeMap.getElem?_insert_self, by decide +kernel⟩
  obtain ⟨s', hs', hresumes⟩ := hagain ""
  refine ⟨s, g, s', hs, hg, hgone, ?_, hs', hresumes⟩
  rw [hkept, littered, ExtTreeMap.getElem?_insert, if_neg (by decide +kernel), notes,
    ExtTreeMap.getElem?_insert_self]

end Session

end GraphLisp
