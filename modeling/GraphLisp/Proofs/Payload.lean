import GraphLisp.Proofs.Plain
import GraphLisp.Proofs.Structure.Flattened
/-!
# Payloads read back

Decoding the payload of a whole structure gives the flattened structure (`decode_encode`): the
payload of a procedure keeps the visible bindings in order, each name once, so that reading them one
by one binds them again in that order. Nothing else of a scope is in the payload, so the flattened structure
has the same payload (`Structure.encode_flattened`), and saving again what was read back writes the same
(`Structure.payload_read_back`).
-/

namespace GraphLisp

namespace Plain

/-! ## Depths -/

theorem depth_tagged (tag : String) (body : Plain) : (tagged tag body).depth = body.depth + 1 := by
  rw [tagged, depth, depthOfEntries, depthOfEntries, Nat.max_zero]

theorem depth_lt_of_field {f : String × Plain} {fields : List (String × Plain)} {limit : Nat}
    (h : (object fields).depth ≤ limit) (hf : f ∈ fields) : f.2.depth < limit := by
  rw [object, depth] at h
  have hentry : ((.text f.1, f.2) : Plain × Plain) ∈ fields.map (fun f => (.text f.1, f.2)) :=
    List.mem_map.2 ⟨f, hf, rfl⟩
  exact Nat.lt_of_le_of_lt (depth_le_entries hentry) h

theorem depth_lt_of_item {p : Plain} {items : List Plain} {limit : Nat}
    (h : depth (.list items) ≤ limit) (hp : p ∈ items) : p.depth < limit := by
  rw [depth] at h
  exact Nat.lt_of_le_of_lt (depth_le_items hp) h

/-! ## Decoding -/

open Structure

theorem brokenPair?_encode (s : Structure) : s.encode.brokenPair? = none := by
  cases s <;> rfl

theorem parameters?_texts (params : List String) :
    parameters? (.list (params.map .text)) = some params := by
  have hwritable : areWritable (params.map .text) = true := by
    induction params with
    | nil => rfl
    | cons name rest ih => rwa [List.map_cons, areWritable]
  have htexts : (params.map Plain.text).map asText = params := by
    rw [List.map_map]
    exact List.map_id params
  have hlisted : listed? (.list (params.map .text)) = some (params.map .text) := rfl
  unfold parameters?
  rw [hlisted, Option.bind_eq_bind, Option.bind_some, if_pos hwritable, htexts]
  rfl

/-- The entry of a binding in a payload. -/
def bindingEntry (b : String × Structure) : Plain := .list [.text b.1, b.2.encode]

/-- The payload of a procedure, with the bindings that its scope shows. -/
theorem encode_proc (params : List String) (body : Structure) (scope : Scope Structure) :
    encode (.proc params body scope) = tagged "proc" (.object [("params", .list (params.map .text)),
      ("body", body.encode), ("frame", .list (scope.flatten.map bindingEntry))]) := by
  rw [encode, encodeScope_eq, Scope.flatten_mapValues, Level.mapValues, List.map_map]
  rfl

theorem foldlM_decodeBinding {inner : Decoder} (whole : Plain) {bindings : Level Structure}
    (h : ∀ b ∈ bindings, inner b.2.encode = .ok b.2.flattened) (level : Level Structure) :
    (bindings.map bindingEntry).foldlM (decodeBinding inner whole) level =
      .ok (level.update (bindings.mapValues flattened)) := by
  induction bindings generalizing level with
  | nil => rfl
  | cons b rest ih =>
    have hb : decodeBinding inner whole level (bindingEntry b) = .ok (level.bind b.1 b.2.flattened) := by
      have hname : (text b.1).isWritable = true := rfl
      unfold decodeBinding bindingEntry listed? opened
      dsimp only
      rw [if_pos hname, h b (.head _)]
      rfl
    rw [List.map_cons, List.foldlM_cons, hb]
    exact ih (fun b hb => h b (.tail _ hb)) _

theorem decodeFrame_bindings {inner : Decoder} (whole params body : Plain) {bindings : Level Structure}
    (hd : bindings.Distinct) (h : ∀ b ∈ bindings, inner b.2.encode = .ok b.2.flattened) :
    decodeFrame inner whole [(.text "params", params), (.text "body", body),
      (.text "frame", .list (bindings.map bindingEntry))] = .ok (bindings.mapValues flattened) := by
  have hfind : find? [(.text "params", params), (.text "body", body),
      (.text "frame", .list (bindings.map bindingEntry))] "frame" =
      some (.list (bindings.map bindingEntry)) := by
    rfl
  unfold decodeFrame
  rw [hfind]
  cases bindings with
  | nil => rfl
  | cons b rest =>
    exact (foldlM_decodeBinding whole h []).trans
      (congrArg Except.ok (Level.ofPairs_of_distinct (hd.mapValues flattened)))

theorem decodeTwo_pair {inner : Decoder} {a d : Plain} {car cdr : Structure} (ha : inner a = .ok car)
    (hbroken : d.brokenPair? = none) (hd : inner d = .ok cdr) :
    decodeTwo inner "pair" a d = .ok (.pair car cdr) := by
  unfold decodeTwo
  rw [if_neg (by decide), if_pos rfl, ha]
  simp only [bind, Except.bind, hbroken, hd]
  rfl

theorem decodeProcedure_bindings {inner : Decoder} (whole : Plain) (params : List String)
    {body : Structure} {bindings : Level Structure} (hbody : inner body.encode = .ok body.flattened)
    (hd : bindings.Distinct) (h : ∀ b ∈ bindings, inner b.2.encode = .ok b.2.flattened) :
    decodeProcedure inner whole [(.text "params", .list (params.map .text)),
        (.text "body", body.encode), (.text "frame", .list (bindings.map bindingEntry))] =
      .ok (.proc params body.flattened (Scope.single (bindings.mapValues flattened))) := by
  have hparams : (find? [(.text "params", .list (params.map .text)), (.text "body", body.encode),
      (.text "frame", .list (bindings.map bindingEntry))] "params").bind parameters? = some params :=
    parameters?_texts params
  have hfind : find? [(.text "params", .list (params.map .text)), (.text "body", body.encode),
      (.text "frame", .list (bindings.map bindingEntry))] "body" = some body.encode := rfl
  unfold decodeProcedure
  rw [hparams, hfind]
  dsimp only
  rw [decodeFrame_bindings whole _ _ hd h, hbody]
  rfl

/-- The payload of a whole structure is read back as the flattened structure. -/
theorem decodeWithin_encode {s : Structure} (hs : s.isWhole = true) {limit : Nat}
    (hl : s.encode.depth ≤ limit) : s.encode.decodeWithin limit = .ok s.flattened := by
  induction s using induct generalizing limit with
  | nothing => cases hs
  | pair car cdr ihcar ihcdr =>
    rw [isWhole, Bool.and_eq_true] at hs
    rw [encode, depth_tagged] at hl
    obtain ⟨limit, rfl⟩ : ∃ n, limit = n + 1 := ⟨limit - 1, by omega⟩
    have hl := Nat.le_of_succ_le_succ hl
    have hcar : car.encode.depth < limit := depth_lt_of_item hl (.head _)
    have hcdr : cdr.encode.depth < limit := depth_lt_of_item hl (.tail _ (.head _))
    exact decodeTwo_pair (ihcar hs.1 (Nat.le_of_lt hcar)) (brokenPair?_encode cdr)
      (ihcdr hs.2 (Nat.le_of_lt hcdr))
  | proc params body scope ihbody ihscope =>
    rw [isWhole_proc, Bool.and_eq_true, List.all_eq_true] at hs
    rw [encode_proc, depth_tagged] at hl
    obtain ⟨limit, rfl⟩ : ∃ n, limit = n + 1 := ⟨limit - 1, by omega⟩
    have hl := Nat.le_of_succ_le_succ hl
    have hbody : body.encode.depth < limit := depth_lt_of_field hl (.tail _ (.head _))
    have hframe : depth (.list (scope.flatten.map bindingEntry)) < limit :=
      depth_lt_of_field hl (.tail _ (.tail _ (.head _)))
    rw [encode_proc, flattened_proc, Scope.collapse, Scope.flatten_mapValues]
    refine decodeProcedure_bindings _ params (ihbody hs.2 (Nat.le_of_lt hbody))
      (Scope.distinct_flatten scope) fun b hb => ?_
    obtain ⟨level, hlevel, hbl⟩ := Scope.mem_flatten hb
    have hentry : (bindingEntry b).depth < limit :=
      depth_lt_of_item (Nat.le_of_lt hframe) (List.mem_map.2 ⟨b, hb, rfl⟩)
    have hvalue : b.2.encode.depth < limit :=
      depth_lt_of_item (Nat.le_of_lt hentry) (.tail _ (.head _))
    exact ihscope level hlevel b hbl (hs.1 b hb) (Nat.le_of_lt hvalue)
  | _ =>
    rw [encode, depth_tagged] at hl
    obtain ⟨limit, rfl⟩ : ∃ n, limit = n + 1 := ⟨limit - 1, by omega⟩
    rfl

theorem encode_ne_null {s : Structure} (hs : s.isWhole = true) : s.encode ≠ .null := by
  intro h
  cases s with
  | nothing => cases hs
  | _ => cases h

/-- Decoding the payload of a whole structure gives the flattened structure. -/
theorem decode_encode {s : Structure} (hs : s.isWhole = true) : s.encode.decode = .ok s.flattened :=
  decodeWithin_encode hs (Nat.le_add_right _ _)

end Plain

namespace Structure

/-- Flattening a structure does not change its payload. -/
@[simp] theorem encode_flattened (s : Structure) : s.flattened.encode = s.encode := by
  induction s using induct with
  | pair car cdr ihcar ihcdr => rw [flattened, encode, encode, ihcar, ihcdr]
  | proc params body scope ihbody ihscope =>
    have hscope : (scope.flatten.mapValues flattened).mapValues encode = scope.flatten.mapValues encode :=
      visible_congr ihscope
    rw [flattened_proc, encode, encode, encodeScope_eq, encodeScope_eq, Scope.flatten_mapValues,
      Scope.flatten_mapValues, flatten_flattened, hscope, ihbody]
  | _ => rfl

theorem payload_of_isWhole {s : Structure} (hs : s.isWhole = true) : s.payload = .ok s.encode := if_pos hs

/-- Every whole structure has a payload. What is read back from it is the flattened structure: the same
program, which has the same payload. -/
theorem payload_read_back {s : Structure} (hs : s.isWhole = true) :
    ∃ p, s.payload = .ok p ∧ p.decode = .ok s.flattened ∧ s.same s.flattened = true ∧
      s.flattened.payload = .ok p := by
  have hagain : s.flattened.payload = .ok s.encode := by
    rw [payload_of_isWhole ((isWhole_flattened s).trans hs), encode_flattened]
  exact ⟨s.encode, payload_of_isWhole hs, Plain.decode_encode hs, same_own_flattened s, hagain⟩

/-- A procedure made in three levels, of which one binds nothing and one hides a binding further out. It
closes over a procedure, and its body ends in no list. -/
def layered : Structure :=
  .proc ["x", "y"] (.pair (.sym "x") (.pair (.proc [] (.bool true) [[("k", .int 1)], [("j", .str "k")]]) (.int 1)))
    [[("k", .bool true), ("n", .node ⟨-3, 9223372036854775808⟩)], [],
      [("f", .proc ["k"] .nil [[("k", .nil)], [("k", .int 2), ("m", .sym "m")]]), ("k", .int 0)]]

/-- The procedure as it is read back: what was bound further out comes first. -/
def layeredFlat : Structure :=
  .proc ["x", "y"] (.pair (.sym "x") (.pair (.proc [] (.bool true) [[("j", .str "k"), ("k", .int 1)]]) (.int 1)))
    [[("f", .proc ["k"] .nil [[("k", .nil), ("m", .sym "m")]]), ("k", .bool true),
      ("n", .node ⟨-3, 9223372036854775808⟩)]]

theorem layered_read_back :
    layered.isWhole = true ∧ ∃ p, layered.payload = .ok p ∧ p.decode = .ok layeredFlat ∧
      layered.same layeredFlat = true ∧ layeredFlat.payload = .ok p :=
  ⟨rfl, payload_read_back rfl⟩

end Structure

end GraphLisp
