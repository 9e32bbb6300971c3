import GraphLisp.Proofs.Environment.Record
import GraphLisp.Proofs.Json.Spelling
import GraphLisp.Snapshot
/-!
# Snapshots read back

The snapshot in JSON of an environment that is coherent on its own gives back the flattened environment
(`Environment.restore_snapshot`). A snapshot is written only if its numbers are short enough and it is
not too deep, and that is all it takes to read it.
-/

namespace GraphLisp

open Json

/-! ## Records in JSON -/

theorem native_texts (names : List String) : Native (.list (names.map .text)) := by
  refine .list fun p hp => ?_
  obtain ⟨name, -, rfl⟩ := List.mem_map.mp hp
  exact .text name

theorem native_tagged (tag : String) {body : Plain} (h : Native body) : Native (tagged tag body) := by
  change Native (.object [(tag, body)])
  refine .map (by simp) fun f hf => ?_
  rw [List.mem_singleton.mp hf]
  exact h

theorem native_numbers (m n : Int) : Native (.list [.int m, .int n]) := by
  refine .list fun p hp => ?_
  simp only [List.mem_cons, List.not_mem_nil, or_false] at hp
  rcases hp with rfl | rfl <;> exact .int _

/-- Payloads are data of JSON's own kinds. -/
theorem native_encode (s : Structure) : Native s.encode := by
  induction s using Structure.induct with
  | int n => exact native_tagged "int" (.int n)
  | bool b => exact native_tagged "bool" (.bool b)
  | str s => exact native_tagged "str" (.text s)
  | sym name => exact native_tagged "sym" (.text name)
  | nil => exact native_tagged "nil" .null
  | nothing => exact .null
  | node n => exact native_tagged "node" (native_numbers n.env n.id)
  | pair car cdr ihcar ihcdr =>
    refine native_tagged "pair" (.list fun p hp => ?_)
    simp only [List.mem_cons, List.not_mem_nil, or_false] at hp
    rcases hp with rfl | rfl
    · exact ihcar
    · exact ihcdr
  | proc params body scope ihbody ihscope =>
    refine native_tagged "proc" (.map (by simp) fun f hf => ?_)
    simp only [List.mem_cons, List.not_mem_nil, or_false] at hf
    rcases hf with rfl | rfl | rfl
    · exact native_texts params
    · exact ihbody
    · refine .list fun p hp => ?_
      obtain ⟨b, hb, rfl⟩ := List.mem_map.mp hp
      rw [Structure.encodeScope_eq, Scope.flatten_mapValues] at hb
      obtain ⟨c, hc, rfl⟩ := List.mem_map.mp hb
      obtain ⟨level, hlevel, hcl⟩ := Scope.mem_flatten hc
      refine .list fun q hq => ?_
      simp only [List.mem_cons, List.not_mem_nil, or_false] at hq
      rcases hq with rfl | rfl
      · exact .text _
      · exact ihscope level hlevel c hcl

namespace Environment

theorem native_nameEntry (e : Environment) (handle : Int) : Native (e.nameEntry handle) := by
  unfold nameEntry
  cases e.nodes.nameOf[handle]? with
  | none => exact .null
  | some name => exact .text name

/-- The rows of a record are data of JSON's own kinds. -/
theorem IsRow.native {e : Environment} {x : Int × Cell} {row : Plain} (h : e.IsRow x row) : Native row := by
  obtain ⟨handle, c⟩ := x
  cases c with
  | plain o =>
    obtain ⟨rfl, -⟩ := isRow_plain h
    refine .map (by simp) fun f hf => ?_
    simp only [List.mem_cons, List.not_mem_nil, or_false] at hf
    rcases hf with rfl | rfl | rfl
    · exact .int handle
    · exact e.native_nameEntry handle
    · cases o with
      | none => exact .null
      | some s => exact native_encode s
  | proxy target =>
    cases h
    refine .map (by simp) fun f hf => ?_
    simp only [List.mem_cons, List.not_mem_nil, or_false] at hf
    rcases hf with rfl | rfl | rfl
    · exact .int handle
    · exact e.native_nameEntry handle
    · exact native_numbers target.env target.id
  | triple =>
    obtain ⟨st, -, rfl⟩ := isRow_triple h
    refine .map (by simp) fun f hf => ?_
    simp only [List.mem_cons, List.not_mem_nil, or_false] at hf
    rcases hf with rfl | rfl | rfl | rfl <;> exact .int _

theorem native_rows {e : Environment} {xs : List (Int × Cell)} {rows : List Plain}
    (h : List.Forall₂ e.IsRow xs rows) : Native (.list rows) := by
  refine .list fun p hp => ?_
  induction h with
  | nil => cases hp
  | cons hx _ ih =>
    rcases List.mem_cons.mp hp with rfl | hp
    · exact hx.native
    · exact ih hp

theorem native_toRecord {e : Environment} {p : Plain} (h : e.toRecord = .ok p) : Native p := by
  obtain ⟨nodes, imports, triples, rfl, hnodes, himports, htriples⟩ := toRecord_sections h
  refine .map (by simp) fun f hf => ?_
  simp only [List.mem_cons, List.not_mem_nil, or_false] at hf
  rcases hf with rfl | rfl | rfl | rfl | rfl | rfl | rfl
  · exact .text _
  · exact .int _
  · exact .int _
  · exact .int _
  · exact native_rows hnodes
  · exact native_rows himports
  · exact native_rows htriples

end Environment

namespace Snapshot

/-! ## Texts -/

/-- In JSON, everything is written that is not too deep and has no number that is too long. -/
theorem serialize_json (p : Plain) :
    serialize p (some "json") true =
      if maxDepth .json < p.depth then .error .endless
      else if p.isWritable then .ok (Json.pretty 0 p)
      else .error (.numeral none) := by
  have hformat : ((some "json").bind fun word => Format.ofWord? (Text.lower word)) = some .json := by
    decide +kernel
  unfold serialize
  rw [hformat]
  rfl

/-- What is written in JSON for data of its own kinds is read back, and was not too long or too deep. -/
theorem parse_serialize {p : Plain} (h : Native p) {s : String} (hs : serialize p (some "json") true = .ok s) :
    s = Json.pretty 0 p ∧ parse .json s = .ok p := by
  rw [serialize_json] at hs
  split at hs
  · cases hs
  · next hdepth =>
    split at hs
    · next hwritable =>
      cases hs
      refine ⟨rfl, ?_⟩
      rw [parse, Json.parse_pretty h hwritable (Nat.not_lt.mp hdepth)]
      rfl
    · cases hs

/-- Data of JSON's own kinds has bytes if its texts do, unless it is too deep or a number is too long. -/
theorem exists_bytes {p : Plain} (h : Native p) (hdepth : p.depth ≤ maxDepth .json)
    (hwritable : p.isWritable = true) (ht : p.isSpelled = true) :
    ∃ b, (serialize p (some "json") true >>= bytes) = .ok b := by
  obtain ⟨b, hb⟩ := Text.toBytes?_of_spelling (Json.pretty_spelling h ht 0)
  rw [serialize_json, if_neg (Nat.not_lt.2 hdepth), if_pos hwritable]
  refine ⟨b, ?_⟩
  change bytes (Json.pretty 0 p) = .ok b
  rw [bytes, hb]

/-- An environment has a snapshot only if its counter can be written. -/
theorem writable_of_snapshot {e : Environment} {b : ByteArray} (h : e.snapshot (some "json") = .ok b) :
    Decimal.isWritable e.nodes.next = true := by
  unfold Environment.snapshot at h
  cases hp : e.toRecord with
  | error fault => rw [hp] at h; cases h
  | ok p =>
    rw [hp] at h
    change (serialize p (some "json") true >>= bytes) = .ok b at h
    rw [serialize_json] at h
    split at h
    · cases h
    split at h
    · next hwritable =>
      obtain ⟨nodes, imports, triples, rfl, -⟩ := Environment.toRecord_sections hp
      simp only [Plain.object, List.map_cons, Plain.isWritable, Plain.haveWritable, Bool.and_eq_true] at hwritable
      exact hwritable.2.2.2.1.2
    · cases h

/-- A written map that is not empty is read back from its bytes. -/
theorem deserialize_bytes {f : String × Plain} {fs : List (String × Plain)}
    (h : Native (.object (f :: fs))) {s : String} {b : ByteArray}
    (hs : serialize (.object (f :: fs)) (some "json") true = .ok s) (hb : bytes s = .ok b) :
    deserialize (.bytes b) none = .ok (.object (f :: fs)) := by
  obtain ⟨rfl, hparse⟩ := parse_serialize h hs
  have htext := pretty_object 0 f fs
  have hlast : (Json.pretty 0 (.object (f :: fs))).toList.getLast? ≠ some Text.mark := by
    rw [htext, ← List.cons_append, ← List.append_assoc, ← List.append_assoc, List.getLast?_concat]
    decide
  have hread : Text.ofBytes? b = some (Json.pretty 0 (.object (f :: fs))) := by
    refine Text.ofBytes?_of_toBytes? hlast ?_
    unfold bytes at hb
    split at hb
    · next heq =>
      cases hb
      exact heq
    · cases hb
  have hdetect : Format.detect (Json.pretty 0 (.object (f :: fs))) = some .json := by
    rw [Format.detect, htext]
    rfl
  unfold deserialize Source.read
  dsimp only
  rw [hread]
  dsimp only [bind, Except.bind, Option.filter_none]
  rw [hdetect]
  exact hparse

end Snapshot

namespace Environment

/-- The snapshot of an environment that is coherent on its own gives back the flattened environment. -/
theorem restore_snapshot {e : Environment} (he : e.Standalone) {b : ByteArray}
    (hb : e.snapshot (some "json") = .ok b) : restore (.bytes b) none = .ok e.flattened := by
  unfold snapshot at hb
  simp only [except_bind_ok] at hb
  obtain ⟨p, hp, s, hs, hb⟩ := hb
  obtain ⟨nodes, imports, triples, hsections, -⟩ := toRecord_sections hp
  have hread : Snapshot.deserialize (.bytes b) none = .ok p := by
    subst hsections
    exact Snapshot.deserialize_bytes (native_toRecord hp) hs hb
  rw [restore, hread]
  exact fromRecord_toRecord he hp

end Environment

end GraphLisp
