import GraphLisp.Proofs.Environment.Likeness
import GraphLisp.Region
/-!
# Regions of environments alike

Writing a region as a list looks at triples only, and building one puts structures into new nodes
as they are. Both agree on environments alike and structures alike.
-/

namespace GraphLisp

open Std

variable {lax : Bool}

/-! ## Regions as lists -/

namespace Environment

variable {e e' : Environment}

theorem lookupName_likes (h : e.Like lax e') (name : String) : e'.lookupName name = e.lookupName name := by
  cases h; rfl

theorem edges_likes (h : e.Like lax e') (selected : Option (List Node)) (n : Node) :
    Answers Eq (e.edges selected n) (e'.edges selected n) := by
  refine (ask_likes h (.some (.node n)) .none .none).bind ?_
  rintro all _ rfl
  cases selected <;> exact .ok rfl

theorem unfoldFrom_likes (h : e.Like lax e') (selected : Option (List Node)) (fuel : Nat) :
    ∀ path n, Answers (Structure.Like lax) (e.unfoldFrom selected fuel path n)
      (e'.unfoldFrom selected fuel path n) := by
  induction fuel with
  | zero =>
    intro path n
    unfold unfoldFrom
    split
    · exact .error rfl
    · refine (edges_likes h selected n).bind ?_
      rintro ts _ rfl
      split
      · exact .ok (.node n)
      · exact .error rfl
  | succ fuel ih =>
    intro path n
    unfold unfoldFrom
    split
    · exact .error rfl
    · refine (edges_likes h selected n).bind ?_
      rintro ts _ rfl
      split
      · exact .ok (.node n)
      · have hts : List.Forall₂ Eq ts ts := List.forall₂_refl _
        refine (answers_mapM (S := Structure.Like lax) hts ?_).bind fun cs ds hcs =>
          .ok (.list (.cons (.node n) hcs))
        rintro t _ rfl
        exact (ih (n :: path) t.object).bind fun _ _ hs =>
          .ok (.list (.cons (.node t.predicate) (.cons hs .nil)))

theorem unfold_likes (h : e.Like lax e') (n : Node) (selected : Option (List Node)) :
    Answers (Structure.Like lax) (e.unfold (.node n) selected) (e'.unfold (.node n) selected) := by
  unfold Environment.unfold
  rw [show e'.triples = e.triples by cases h; rfl]
  exact unfoldFrom_likes h selected _ [] n

end Environment

/-! ## Building -/

namespace Building

/-- Two regions are built alike. -/
inductive Like (lax : Bool) : Building → Building → Prop where
  | intro {l l' : Locale} (h : l.Like lax l') (created : List Node) (heads : ExtTreeMap Node Node) :
    Like lax ⟨l, created, heads⟩ ⟨l', created, heads⟩

variable (around : Surroundings) {s s' : Structure}

theorem lift_agree {α β : Type} {Q : α → β → Prop} {op : Op α} {op' : Op β}
    (h : Agree (Locale.Like lax) Q op op') : Agree (Like lax) Q (lift op) (lift op') := by
  rintro _ _ ⟨hl, created, heads⟩
  have h := h _ _ hl
  unfold lift
  dsimp only
  generalize op _ = x at h ⊢
  generalize op' _ = y at h ⊢
  cases h with
  | ok ha hl => exact .ok ha (.intro hl created heads)
  | error hf hl => exact .error hf (.intro hl created heads)

theorem note_agree (n : Node) : Agree (Like lax) (fun _ _ => True) (note n) (note n) :=
  agree_modify fun _ _ hb => by cases hb with | intro hl created heads => exact .intro hl _ heads

theorem freshNode_agree {o o' : Option Structure} (h : Option.Rel (Structure.Like lax) o o') :
    Agree (Like lax) Eq (freshNode around o) (freshNode around o') := by
  refine (lift_agree (Locale.createNode_agree around none h)).bind ?_
  rintro n _ rfl
  exact (note_agree n).bind fun _ _ _ => agree_pure rfl

theorem head_agree (h : s.Like lax s') : Agree (Like lax) Eq (head around s) (head around s') := by
  cases h.shape with
  | node n =>
    refine agree_get.bind fun b b' hb => ?_
    cases hb with | intro hl created heads =>
    dsimp only
    split
    · exact agree_pure rfl
    · refine agree_get.bind fun b b' hb => ?_
      cases hb with | intro hl _ _ =>
      refine (freshNode_agree around (Environment.content?_likes hl.env n)).bind ?_
      rintro made _ rfl
      refine (agree_modify fun b b' hb => ?_).bind fun _ _ _ => agree_pure rfl
      cases hb with | intro hl created heads => exact .intro hl created _
  | pair _ _ => exact agree_throw (congrArg Fault.regionHead h.same)
  | _ => exact freshNode_agree around h.given

theorem predicate_agree (h : s.Like lax s') : Agree (Like lax) Eq (predicate s) (predicate s') := by
  cases h.shape with
  | node n => exact agree_pure rfl
  | sym name =>
    refine agree_get.bind fun b b' hb => ?_
    cases hb with | intro hl _ _ =>
    dsimp only
    rw [Environment.lookupName_likes hl.env]
    split
    · exact agree_pure rfl
    · exact agree_throw rfl
  | _ => exact agree_throw (congrArg Fault.notAPredicate h.same)

mutual

theorem build_agree (s s' : Structure) (h : s.Like lax s') :
    Agree (Like lax) Eq (build around s) (build around s') := by
  cases h.shape with
  | node n => exact agree_pure rfl
  | nothing => exact agree_throw rfl
  | @pair car car' cdr cdr' hcar hcdr =>
    unfold build
    refine (head_agree around hcar).bind ?_
    rintro made _ rfl
    exact (buildEntries_agree h made cdr cdr' hcdr).bind fun _ _ _ => agree_pure rfl
  | _ => exact freshNode_agree around (.some h)
termination_by sizeOf s

theorem buildEntries_agree {whole whole' : Structure} (hw : whole.Like lax whole') (made : Node)
    (s s' : Structure) (h : s.Like lax s') :
    Agree (Like lax) (fun _ _ => True) (buildEntries around whole made s)
      (buildEntries around whole' made s') := by
  cases h.shape with
  | nil => exact agree_pure trivial
  | @pair entry entry' rest rest' hentry hrest =>
    have hrefuse : Fault.flattened (.regionEntry entry) = Fault.flattened (.regionEntry entry') :=
      congrArg Fault.regionEntry hentry.same
    cases hentry.shape with
    | @pair p p' tail tail' hp htail =>
      cases htail.shape with
      | @pair child child' last last' hchild hlast =>
        cases hlast.shape with
        | nil =>
          unfold buildEntries
          refine (predicate_agree hp).bind ?_
          rintro relation _ rfl
          refine (build_agree child child' hchild).bind ?_
          rintro value _ rfl
          refine (lift_agree (Locale.insertTriple_agree (.node made) (.node relation) (.node value))).bind ?_
          rintro ⟨n, new⟩ _ rfl
          have hgo := buildEntries_agree hw made rest rest' hrest
          dsimp only
          split
          · exact (note_agree n).bind fun _ _ _ => hgo
          · exact hgo
        | _ => exact agree_throw hrefuse
      | _ => exact agree_throw hrefuse
    | _ => exact agree_throw hrefuse
  | _ => exact agree_throw (congrArg Fault.improperRegion hw.same)
termination_by sizeOf s

end

end Building

namespace Locale

/-- What is made of regions alike, and how making them ends. -/
theorem raise_agree (around : Surroundings) {s s' : Structure} (h : s.Like lax s') :
    Agree (Locale.Like lax) (fun r r' => Answers Eq r.1 r'.1 ∧ r.2 = r'.2) (raise around s)
      (raise around s') := by
  intro l l' hl
  have hb := Building.build_agree around s s' h _ _ (.intro hl [] ∅)
  unfold raise
  generalize Building.build around s ⟨l, [], ∅⟩ = x at hb ⊢
  generalize Building.build around s' ⟨l', [], ∅⟩ = y at hb ⊢
  rcases hb with ⟨ha, hb⟩ | ⟨hf, hb⟩ <;> obtain ⟨hl, created, heads⟩ := hb
  · exact .ok ⟨.ok ha, rfl⟩ hl
  · exact .ok ⟨.error hf, rfl⟩ hl

end Locale

end GraphLisp
