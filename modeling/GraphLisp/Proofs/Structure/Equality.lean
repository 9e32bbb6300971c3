import Mathlib.Data.List.Forall2
import GraphLisp.Proofs.Payload
/-!
# Equality of structures

Structures are equal (`Structure.same`) exactly if their payloads are, up to the bindings of procedures
(`same_iff_payload`). Being an equality of images, it is an equivalence. It goes down to all parts: structures
that are equal have equal parts in the same places (`same_parts`), the same elements and the same end
(`same_spine_iff`), and a structure that was saved and read back is equal to the same structures as before.
-/

namespace GraphLisp

namespace Plain

mutual

/-- A value without the bindings of the procedures whose payloads occur in it. -/
def unframed : Plain → Plain
  | .map [(.text "proc", .map entries)] => .map [(.text "proc", .map (unframedProcedure entries))]
  | .list items => .list (unframedItems items)
  | .map entries => .map (unframedEntries entries)
  | p => p

/-- The items of a list without the bindings of procedures. -/
def unframedItems : List Plain → List Plain
  | [] => []
  | p :: rest => unframed p :: unframedItems rest

/-- The entries of a map without the bindings of procedures in their values. -/
def unframedEntries : List (Plain × Plain) → List (Plain × Plain)
  | [] => []
  | (key, p) :: rest => (key, unframed p) :: unframedEntries rest

/-- The entries of a procedure without its bindings. -/
def unframedProcedure : List (Plain × Plain) → List (Plain × Plain)
  | [] => []
  | (.text "frame", _) :: rest => unframedProcedure rest
  | (key, p) :: rest => (key, unframed p) :: unframedProcedure rest

end

theorem unframed_texts (names : List String) : unframed (.list (names.map .text)) = .list (names.map .text) := by
  have hitems : unframedItems (names.map .text) = names.map .text := by
    induction names with
    | nil => rfl
    | cons name rest ih => rw [List.map_cons, unframedItems, ih, unframed] <;> simp
  rw [unframed, hitems]

end Plain

namespace Structure

open Plain

/-! ## Payloads without bindings -/

/-- The payload of a structure without the bindings of procedures, part by part. -/
def skeleton : Structure → Plain
  | .pair a d => tagged "pair" (.list [skeleton a, skeleton d])
  | .proc params body _ =>
    tagged "proc" (.object [("params", .list (params.map .text)), ("body", skeleton body)])
  | s => s.encode

theorem unframed_encode (s : Structure) : s.encode.unframed = s.skeleton := by
  induction s using induct with
  | pair car cdr ihcar ihcdr =>
    rw [skeleton, ← ihcar, ← ihcdr]
    rfl
  | proc params body scope ihbody _ =>
    rw [encode_proc, skeleton]
    change tagged "proc" (.object [("params", Plain.unframed (.list (params.map .text))),
      ("body", body.encode.unframed)]) = _
    rw [unframed_texts, ihbody]
  | _ => rfl

theorem texts_injective {names names' : List String} (h : names.map Plain.text = names'.map Plain.text) :
    names = names' :=
  List.map_injective_iff.2 (fun _ _ h => Plain.text.inj h) h

/-- Structures are equal if their payloads are, the bindings of procedures left aside. -/
theorem same_iff_skeleton (a b : Structure) : a.same b = true ↔ a.skeleton = b.skeleton := by
  induction a using induct generalizing b with
  | pair car cdr ihcar ihcdr =>
    cases b with
    | pair car' cdr' => simp [same, skeleton, tagged, ihcar, ihcdr]
    | _ => simp [same, skeleton, encode, tagged, object]
  | proc params body scope ihbody _ =>
    cases b with
    | proc params' body' scope' =>
      simp only [same, skeleton, tagged, object, Bool.and_eq_true, beq_iff_eq, ihbody, List.map_cons, List.map_nil]
      constructor
      · rintro ⟨rfl, hbody⟩
        rw [hbody]
      · intro h
        simp only [Plain.map.injEq, List.cons.injEq, Prod.mk.injEq, Plain.list.injEq] at h
        exact ⟨texts_injective h.1.2.1.2, h.1.2.2.1.2⟩
    | _ => simp [same, skeleton, encode, tagged, object]
  -- a node is compared as a whole, its payload number by number
  | node n =>
    obtain ⟨env, id⟩ := n
    cases b with
    | node m =>
      obtain ⟨env', id'⟩ := m
      simp [same, skeleton, encode, tagged]
    | _ => simp [same, skeleton, encode, tagged, object]
  | _ => cases b <;> simp [same, skeleton, encode, tagged, object]

/-- Equality is payload equality, so it is an equivalence. -/
theorem same_equivalence : Equivalence fun a b : Structure => a.same b = true where
  refl a := (same_iff_skeleton a a).2 rfl
  symm h := (same_iff_skeleton _ _).2 ((same_iff_skeleton _ _).1 h).symm
  trans h h' := (same_iff_skeleton _ _).2 (((same_iff_skeleton _ _).1 h).trans ((same_iff_skeleton _ _).1 h'))

/-- Equal structures are equal to the same structures. -/
theorem same_congr {a b : Structure} (h : a.same b = true) (c : Structure) :
    a.same c = b.same c ∧ c.same a = c.same b := by
  have hskeleton := (same_iff_skeleton a b).1 h
  constructor
  · rw [Bool.eq_iff_iff, same_iff_skeleton, same_iff_skeleton, hskeleton]
  · rw [Bool.eq_iff_iff, same_iff_skeleton, same_iff_skeleton, hskeleton]

/-! ## Parts -/

/-- The ways from a structure to its parts. -/
inductive Way where
  | car
  | cdr
  | body

/-- The part of a structure at the end of a path, if the path leads anywhere. -/
def part? : List Way → Structure → Option Structure
  | [], s => some s
  | .car :: path, .pair a _ => part? path a
  | .cdr :: path, .pair _ d => part? path d
  | .body :: path, .proc _ body _ => part? path body
  | _ :: _, _ => none

/-- Equal structures have the same places, with equal parts there. -/
theorem same_parts {a b : Structure} (h : a.same b = true) (path : List Way) :
    Option.Rel (fun x y => x.same y = true) (part? path a) (part? path b) := by
  induction path generalizing a b with
  | nil => exact .some h
  | cons way path ih =>
    cases a with
    | pair car cdr =>
      cases b with
      | pair car' cdr' =>
        rw [same, Bool.and_eq_true] at h
        cases way with
        | car => exact ih h.1
        | cdr => exact ih h.2
        | body => exact .none
      | _ => cases h
    | proc params body scope =>
      cases b with
      | proc params' body' scope' =>
        rw [same, Bool.and_eq_true] at h
        cases way with
        | body => exact ih h.2
        | _ => exact .none
      | _ => cases h
    | _ =>
      cases b with
      | pair car cdr => cases h
      | proc params body scope => cases h
      | _ => cases way <;> exact .none

/-- Structures with parts in one place that are not equal are not equal. -/
theorem differ_of_parts {a b x y : Structure} {path : List Way} (hx : part? path a = some x)
    (hy : part? path b = some y) (h : x.same y = false) : a.same b = false := by
  apply Bool.eq_false_iff.2
  intro hsame
  have hparts := same_parts hsame path
  rw [hx, hy] at hparts
  cases hparts with
  | some hxy => exact Bool.false_ne_true (h.symm.trans hxy)

/-- Lists are equal if they have as many elements, equal one by one, and equal ends. -/
theorem same_spine_iff (a b : Structure) :
    a.same b = true ↔ List.Forall₂ (fun x y => x.same y = true) a.spine.1 b.spine.1 ∧
      a.spine.2.same b.spine.2 = true := by
  induction a using induct generalizing b with
  | pair car cdr _ ihcdr =>
    cases b with
    | pair car' cdr' => rw [same, Bool.and_eq_true, ihcdr, spine, spine, List.forall₂_cons, and_assoc]
    | _ => simp [same, spine]
  | _ =>
    cases b with
    | pair car cdr => simp [same, spine]
    | _ => simp [spine]

/-! ## Equality -/

/-- Equality of structures is an equivalence; it is the equality of payloads from which the bindings of
procedures are taken away. In particular a truth value in one structure where there is a number in the other
makes them differ, however deep, and so does a symbol where there is a string. Lists are equal if they have as
many elements, equal one by one, and equal ends. A structure that was saved and read back is equal to the same
structures as before. Where the stack of the host is deep enough to compare structures, this is what comparing
them says. -/
theorem same_iff_payload :
    (Equivalence fun a b : Structure => a.same b = true) ∧ ∀ a b : Structure,
      (a.same b = true ↔ a.encode.unframed = b.encode.unframed) ∧
      (∀ path v n, part? path a = some (.bool v) → part? path b = some (.int n) → a.same b = false) ∧
      (∀ path s t, part? path a = some (.sym s) → part? path b = some (.str t) → a.same b = false) ∧
      (∀ path, a.same b = true → Option.Rel (fun x y => x.same y = true) (part? path a) (part? path b)) ∧
      (a.same b = true ↔ List.Forall₂ (fun x y => x.same y = true) a.spine.1 b.spine.1 ∧
        a.spine.2.same b.spine.2 = true) ∧
      (a.isWhole = true → a.payload = .ok a.encode ∧
        ∃ a', a.encode.decode = .ok a' ∧ a'.same b = a.same b ∧ b.same a' = b.same a) ∧
      (a.compared b = .ok (a.same b) ∨ a.compared b = .error .endless ∧ maxNesting < min a.nesting b.nesting) := by
  refine ⟨same_equivalence, fun a b => ⟨?_, ?_, ?_, ?_, same_spine_iff a b, ?_, ?_⟩⟩
  · rw [unframed_encode, unframed_encode]
    exact same_iff_skeleton a b
  · intro path v n ha hb
    exact differ_of_parts ha hb rfl
  · intro path s t ha hb
    exact differ_of_parts ha hb rfl
  · intro path h
    exact same_parts h path
  · intro hwhole
    obtain ⟨hback, hback'⟩ := same_congr (same_own_flattened a) b
    exact ⟨payload_of_isWhole hwhole, a.flattened, Plain.decode_encode hwhole, hback.symm, hback'.symm⟩
  · unfold compared
    split
    · next hdeep => exact .inr ⟨rfl, hdeep⟩
    · exact .inl rfl

/-- A procedure made in two levels. -/
def closure : Structure := .proc ["x"] (list [.bool true, .sym "k"]) [[("k", .int 1)], [("n", .nil)]]

/-- The same procedure made in no level. -/
def bare : Structure := .proc ["x"] (list [.bool true, .sym "k"]) []

/-- A procedure with a number for the truth value and a string for the symbol. -/
def recast : Structure := .proc ["x"] (list [.int 1, .str "k"]) []

theorem closure_compared :
    closure.same bare = true ∧ closure.encode.unframed = bare.encode.unframed ∧
      Option.Rel (fun x y => x.same y = true) (part? [.body, .cdr] closure) (part? [.body, .cdr] bare) ∧
      part? [.body, .car] closure = some (.bool true) ∧ part? [.body, .car] recast = some (.int 1) ∧
      part? [.body, .cdr, .car] closure = some (.sym "k") ∧ part? [.body, .cdr, .car] recast = some (.str "k") ∧
      closure.same recast = false ∧ bare.same recast = false ∧ closure.isWhole = true ∧
      ∃ a', closure.encode.decode = .ok a' ∧ a'.same bare = true ∧ bare.same a' = true := by
  obtain ⟨-, hpairs⟩ := same_iff_payload
  have hsame : closure.same bare = true := rfl
  obtain ⟨hpayload, -, -, hparts, -, hread, -⟩ := hpairs closure bare
  obtain ⟨-, hnumber, -⟩ := hpairs closure recast
  obtain ⟨-, -, hstring, -⟩ := hpairs bare recast
  obtain ⟨-, a', hdecode, hback, hback'⟩ := hread rfl
  refine ⟨hsame, hpayload.1 hsame, hparts _ hsame, rfl, rfl, rfl, rfl, hnumber [.body, .car] true 1 rfl rfl,
    hstring [.body, .cdr, .car] "k" "k" rfl rfl, rfl, a', hdecode, ?_, ?_⟩
  · rw [hback, hsame]
  · rw [hback']
    rfl

end Structure

end GraphLisp
