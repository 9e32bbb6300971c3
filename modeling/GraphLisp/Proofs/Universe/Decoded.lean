import GraphLisp.Proofs.Universe.Flattened
import GraphLisp.Proofs.Universe.Load
/-!
# What is read is sound

Whatever a payload says, the structure that it stands for is whole, and its levels bind each name once
(`Plain.decode_sound`). So is everything in an environment that is read from a record, and in a universe
that is loaded from a folder (`Universe.load_sound`).
-/

namespace GraphLisp

open Std

/-! ## Payloads -/

namespace Plain

/-- A decoder gives sound structures only. -/
def Decoder.Sound (inner : Decoder) : Prop := ∀ p s, inner p = .ok s → s.Sound false

variable {inner : Decoder} {s : Structure}

theorem decodeNil_sound {tag : String} (h : decodeNil tag = .ok s) : s.Sound false := by
  unfold decodeNil at h
  split at h
  · cases h
    exact .nil
  · cases h

theorem decodeTwo_sound (hinner : inner.Sound) {tag : String} {a d : Plain} (h : decodeTwo inner tag a d = .ok s) :
    s.Sound false := by
  unfold decodeTwo at h
  split at h
  · split at h
    · cases h
      exact .node _
    · cases h
  split at h
  · rw [except_bind_ok] at h
    obtain ⟨car, hcar, h⟩ := h
    split at h
    · cases h
    · rw [except_bind_ok] at h
      obtain ⟨cdr, hcdr, h⟩ := h
      cases h
      exact .pair (hinner a car hcar) (hinner d cdr hcdr)
  · exact decodeNil_sound h

/-- A level that binds each name once, to a sound value. -/
structure SoundLevel (level : Level Structure) : Prop where
  distinct : level.Distinct
  values : ∀ b ∈ level, b.2.Sound false

theorem decodeBinding_sound (hinner : inner.Sound) {whole binding : Plain} {level level' : Level Structure}
    (hl : SoundLevel level) (h : decodeBinding inner whole level binding = .ok level') : SoundLevel level' := by
  unfold decodeBinding at h
  split at h
  · split at h
    · rw [except_bind_ok] at h
      obtain ⟨value, hvalue, h⟩ := h
      cases h
      refine ⟨hl.distinct.bind _ _, fun b hb => ?_⟩
      rcases Level.mem_bind hb with rfl | hb
      · exact hinner _ _ hvalue
      · exact hl.values b hb
    · cases h
  · cases h

theorem decodeFrame_sound (hinner : inner.Sound) {whole : Plain} {entries : List (Plain × Plain)}
    {level : Level Structure} (h : decodeFrame inner whole entries = .ok level) : SoundLevel level := by
  have hnil : SoundLevel [] := ⟨Level.distinct_nil, fun _ hb => by cases hb⟩
  unfold decodeFrame at h
  split at h
  · cases h
    exact hnil
  · split at h
    · exact foldlM_keeps (fun _ _ _ hl hb => decodeBinding_sound hinner hl hb) _ hnil h
    · cases h

theorem decodeProcedure_sound (hinner : inner.Sound) {whole : Plain} {entries : List (Plain × Plain)}
    (h : decodeProcedure inner whole entries = .ok s) : s.Sound false := by
  unfold decodeProcedure at h
  split at h
  · cases h
  · rw [except_bind_ok] at h
    obtain ⟨level, hlevel, h⟩ := h
    split at h
    · cases h
    · rw [except_bind_ok] at h
      obtain ⟨body, hbody, h⟩ := h
      cases h
      have hl := decodeFrame_sound hinner hlevel
      refine Structure.sound_proc_iff.2 ⟨hinner _ _ hbody, ?_⟩
      split
      · exact Scope.sound_nil
      · exact ⟨by simpa [Scope.Distinct] using hl.distinct, by simpa using hl.values⟩

theorem decodeBody_sound (hinner : inner.Sound) {tag : String} {body : Plain}
    (h : decodeBody inner tag body = .ok s) : s.Sound false := by
  unfold decodeBody at h
  split at h
  · split at h
    · cases h
      exact .bool _
    · exact decodeNil_sound h
  · split at h
    · cases h
      exact .int _
    · exact decodeNil_sound h
  · split at h
    · cases h
      exact .str _
    split at h
    · cases h
      exact .sym _
    · exact decodeNil_sound h
  · exact decodeTwo_sound hinner h
  · split at h
    · exact decodeProcedure_sound hinner h
    · exact decodeNil_sound h
  · exact decodeNil_sound h

theorem decodeWithin_sound (limit : Nat) : Decoder.Sound (decodeWithin limit) := by
  induction limit with
  | zero => exact nofun
  | succ limit ih =>
    intro p s h
    unfold decodeWithin at h
    split at h
    · exact decodeBody_sound ih h
    · cases h
    · cases h

/-- What a payload stands for is sound. -/
theorem decode_sound {p : Plain} (h : p.decode = .ok s) : s.Sound false := decodeWithin_sound _ p s h

end Plain

/-! ## Records -/

namespace Environment

variable {e e' : Environment} {ps ps' : Pending}

theorem sound_proxy (t : Node) : (Cell.proxy t).Sound false := by
  intro s hs
  cases hs
  exact .node t

theorem readNode_sound {found : Plain} (hp : ∀ x ∈ ps, x.2.Sound false)
    (h : readNode (e, ps) found = .ok (e', ps')) : ∀ x ∈ ps', x.2.Sound false := by
  unfold readNode at h
  split at h
  · next heq _ =>
    cases heq
    simp only [except_bind_ok] at h
    obtain ⟨_, _, _, _, h⟩ := h
    split at h
    · cases h
      exact hp
    · rw [except_bind_ok] at h
      obtain ⟨s, hs, h⟩ := h
      cases h
      refine List.forall_mem_append.2 ⟨hp, List.forall_mem_singleton.2 fun t ht => ?_⟩
      cases ht
      exact Plain.decode_sound hs
  · cases h

theorem readImport_sound {found : Plain} (hp : ∀ x ∈ ps, x.2.Sound false)
    (h : readImport (e, ps) found = .ok (e', ps')) : ∀ x ∈ ps', x.2.Sound false := by
  unfold readImport at h
  split at h
  · next heq _ =>
    cases heq
    rw [except_bind_ok] at h
    obtain ⟨⟨_, _⟩, _, h⟩ := h
    dsimp only at h
    split at h
    · split at h
      · cases h
      · rw [except_bind_ok] at h
        obtain ⟨_, _, h⟩ := h
        cases h
        exact List.forall_mem_append.2 ⟨hp, List.forall_mem_singleton.2 (sound_proxy _)⟩
    · cases h
  · cases h

theorem readTriple_nodes {found : Plain} (h : readTriple e found = .ok e') : e'.nodes = e.nodes := by
  unfold readTriple at h
  split at h
  · simp only [except_bind_ok] at h
    obtain ⟨_, _, _, _, _, _, h⟩ := h
    split at h
    · cases h
      rfl
    · cases h
    · cases h
  · cases h

theorem fillAll_sound {l l' : Locale} (hl : l.env.Sound false) (hp : ∀ x ∈ ps, x.2.Sound false)
    (h : ps.foldlM fill l = .ok l') : l'.env.Sound false := by
  induction ps generalizing l with
  | nil =>
    cases h
    exact hl
  | cons x ps ih =>
    rw [List.foldlM_cons, except_bind_ok] at h
    obtain ⟨l₁, h₁, h⟩ := h
    obtain ⟨hx, hp⟩ := List.forall_mem_cons.1 hp
    refine ih (fun k c hc => ?_) hp h
    unfold fill at h₁
    dsimp only at h₁
    split at h₁
    · cases h₁
    · cases h₁
      have hcells : (l.hold x.1 x.2).env.nodes.cells = l.env.nodes.cells.insert x.1 x.2 :=
        (Locale.hold_reindexed l x.1 x.2).cells_eq
      rw [hcells] at hc
      rcases (getElem?_insert_iff _ _ _ _ _).1 hc with ⟨-, rfl⟩ | ⟨-, hc⟩
      · exact hx
      · exact hl k c hc

/-- Everything in an environment that was read from a record is sound. -/
theorem fromRecord_sound {found : Plain} (h : fromRecord found = .ok e) : e.Sound false := by
  obtain ⟨id, next, nodes, imports, triples, hr⟩ := fromRecord_rows h
  unfold fromRows at hr
  simp only [except_bind_ok] at hr
  obtain ⟨⟨e₁, ps₁⟩, h₁, ⟨e₂, ps⟩, h₂, e₃, h₃, e₄, h₄, hr⟩ := hr
  split at hr
  · cases hr
  obtain ⟨l, h₅, hr⟩ := except_bind_ok.1 hr
  cases hr
  -- until they are filled in, cells are empty, and what is pending is sound
  have hd₁ := foldlM_keeps (I := fun x => Draft id next x.1 x.2 ∧ ∀ y ∈ x.2, y.2.Sound false)
    (fun _ _ _ hd hr => ⟨readNode_draft hd.1 hr, readNode_sound hd.2 hr⟩) nodes ⟨draft_start id next, nofun⟩ h₁
  obtain ⟨hd, hp⟩ := foldlM_keeps (I := fun x => Draft id next x.1 x.2 ∧ ∀ y ∈ x.2, y.2.Sound false)
    (fun _ _ _ hd hr => ⟨readImport_draft hd.1 hr, readImport_sound hd.2 hr⟩) imports hd₁ h₂
  obtain ⟨hs, -, -, -, cells, rfl, hcells⟩ := reserveTriples_ok triples h₃
  have hnodes := foldlM_keeps (I := fun e => e.nodes = { e₂.nodes with cells }) (fun _ _ _ he hr => (readTriple_nodes hr).trans he)
    triples rfl h₄
  refine fillAll_sound (fun k c hc => ?_) hp h₅
  rw [hnodes] at hc
  rcases (hcells k c).1 hc with ⟨-, rfl⟩ | ⟨-, hc⟩
  · exact nofun
  · rw [(hd.cells k c hc).1]
    exact nofun

end Environment

/-! ## Folders -/

namespace Universe

variable {u u' : Universe}

theorem restore_sound {source : Snapshot.Source} {name : Option String} {e : Environment}
    (h : Environment.restore source name = .ok e) : e.Standalone ∧ e.Sound false := by
  unfold Environment.restore at h
  rw [except_bind_ok] at h
  obtain ⟨found, -, h⟩ := h
  exact ⟨Environment.fromRecord_standalone h, Environment.fromRecord_sound h⟩

/-- A universe that is being loaded, and that is sound so far. -/
structure SoundLoading (u : Universe) : Prop where
  loading : u.Loading
  members : ∀ (id : Int) (e : Environment), u.members[id]? = some e → e.Sound false

theorem SoundLoading.sound (h : u.SoundLoading) : u.Sound false :=
  ⟨h.members, by rw [h.loading.coherent.heirs]; exact nofun⟩

theorem ofRoot_sound {e : Environment} (he : e.Standalone) (hs : e.Sound false) (h : ofRoot e = .ok u) :
    u.SoundLoading := by
  refine ⟨ofRoot_loading he h, fun id d hd => ?_⟩
  unfold ofRoot at h
  split at h
  · cases h
  · cases h
    rcases (getElem?_insert_iff _ _ _ _ _).1 hd with ⟨-, rfl⟩ | ⟨-, hd⟩
    · exact hs
    · simp at hd

theorem loadMember_sound (hu : u.SoundLoading) {id : Int} {file : String × ByteArray}
    (h : loadMember u id file = .ok u') : u'.SoundLoading := by
  refine ⟨loadMember_loading hu.loading h, fun k d hd => ?_⟩
  unfold loadMember at h
  rw [except_bind_ok] at h
  obtain ⟨e, he, h⟩ := h
  split at h
  · cases h
  split at h
  · cases h
  have hends := attach_ends hu.loading.coherent e
  split at h
  · next heq =>
    cases h
    obtain ⟨-, -, rfl⟩ := hends.of_ok heq
    rcases (getElem?_insert_iff _ _ _ _ _).1 hd with ⟨-, rfl⟩ | ⟨-, hd⟩
    · exact (restore_sound he).2
    · exact hu.members k d hd
  · cases h

theorem empty_soundLoading : empty.SoundLoading :=
  ofRoot_sound (fresh_standalone rootId) (Environment.fresh_sound rootId) rfl

/-- Everything in a universe that was loaded from a folder is sound. -/
theorem load_sound {label : String} {f : Folder} (h : load label f = .ok u) : u.Sound false := by
  unfold load at h
  dsimp only at h
  split at h
  · split at h
    · cases h
      exact empty_soundLoading.sound
    · cases h
  · simp only [except_bind_ok] at h
    obtain ⟨e, he, h⟩ := h
    split at h
    · cases h
    · simp only [except_bind_ok] at h
      obtain ⟨u₀, h₀, u₁, h₁, -, -, h⟩ := h
      cases h
      obtain ⟨hstand, hsound⟩ := restore_sound he
      have hu₀ := ofRoot_sound hstand hsound h₀
      exact (foldlM_keeps (fun _ _ _ hu hf => loadMember_sound hu hf) _ hu₀ h₁).sound

end Universe

end GraphLisp
