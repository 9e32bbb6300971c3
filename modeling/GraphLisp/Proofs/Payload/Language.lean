import Mathlib.Data.List.Forall2
import GraphLisp.Proofs.Payload
import GraphLisp.Proofs.Tree
/-!
# The language of payloads

`StandsFor strict p s` says by rules that a tree is read as a structure. It is about the tree alone; with
`strict` it is about the trees that are written as they should be, without it about all that are read. The
two differ only where a rule asks for something in the strict case: any body goes with the tag of the empty
list, anything that can be listed or written goes for the parameters and names of a procedure, and repeated
names and unknown entries are passed over.
-/

namespace GraphLisp

namespace Plain

open Structure

/-- An item of a procedure's frame, and what its payload stands for. -/
structure FrameItem where
  name : Plain
  payload : Plain
  value : Structure

namespace FrameItem

/-- The item as it is found in a frame. -/
def toPlain (b : FrameItem) : Plain := .list [b.name, b.payload]

/-- The binding that the item makes. -/
def binding (b : FrameItem) : String × Structure := (b.name.asText, b.value)

end FrameItem

/-- What is listed in the frame of a procedure: nothing, if it is absent or void. -/
inductive IsFrame : Option Plain → List FrameItem → Prop where
  | absent : IsFrame none []
  | void {p : Plain} (h : p.isVoid = true) : IsFrame (some p) []
  | list {items : List FrameItem} (h : ∀ b ∈ items, b.name.isWritable = true) :
    IsFrame (some (.list (items.map FrameItem.toPlain))) items

/-- The entries of a procedure are written as they should be: no entry is unknown or repeated, parameters
and names are texts, each name is bound once, and a frame without items is an empty list or null. -/
structure Proper (entries : List (Plain × Plain)) (items : List FrameItem) : Prop where
  keys : (entries.map (·.1)).Subperm [.text "params", .text "body", .text "frame"]
  params : ∃ names : List String, find? entries "params" = some (.list (names.map .text))
  void : ∀ p, find? entries "frame" = some p → p.isVoid = true → p = .null ∨ p = .list []
  names : ∃ names : List String, items.map (·.name) = names.map .text ∧ names.Nodup

/-- A payload and the structure that it stands for. -/
inductive StandsFor (strict : Prop) : Plain → Structure → Prop where
  | int (n : Int) : StandsFor strict (tagged "int" (.int n)) (.int n)
  | bool (b : Bool) : StandsFor strict (tagged "bool" (.bool b)) (.bool b)
  | str (s : String) : StandsFor strict (tagged "str" (.text s)) (.str s)
  | sym (name : String) : StandsFor strict (tagged "sym" (.text name)) (.sym name)
  | nil {body : Plain} (hbody : strict → body = .null) : StandsFor strict (tagged "nil" body) .nil
  | node (n : Node) : StandsFor strict (tagged "node" (.list [.int n.env, .int n.id])) (.node n)
  | pair {a d : Plain} {car cdr : Structure} (ha : StandsFor strict a car) (hd : StandsFor strict d cdr) :
    StandsFor strict (tagged "pair" (.list [a, d])) (.pair car cdr)
  | proc {entries : List (Plain × Plain)} {params : List String} {p : Plain} {body : Structure}
      {items : List FrameItem} (hparams : (find? entries "params").bind parameters? = some params)
      (hframe : IsFrame (find? entries "frame") items) (hitems : ∀ b ∈ items, StandsFor strict b.payload b.value)
      (hfind : find? entries "body" = some p) (hbody : StandsFor strict p body)
      (hproper : strict → Proper entries items) :
    StandsFor strict (tagged "proc" (.map entries))
      (.proc params body (Scope.single (Level.ofPairs (items.map FrameItem.binding))))

section
variable {strict : Prop} {p : Plain} {s : Structure}

/-- What is written as it should be is read. -/
theorem StandsFor.lenient (h : p.StandsFor True s) : p.StandsFor False s := by
  induction h with
  | int n => exact .int n
  | bool b => exact .bool b
  | str s => exact .str s
  | sym name => exact .sym name
  | nil _ => exact .nil nofun
  | node n => exact .node n
  | pair _ _ iha ihd => exact .pair iha ihd
  | proc hparams hframe _ hfind _ _ ihitems ihbody => exact .proc hparams hframe ihitems hfind ihbody nofun

theorem StandsFor.not_scalar (h : p.StandsFor strict s) : p.isScalar = false := by
  cases h <;> rfl

theorem StandsFor.brokenPair?_eq (h : p.StandsFor strict s) : p.brokenPair? = none := by
  cases h <;> rfl

/-! ## What is read stands for what is given -/

/-- What a decoder gives for a tree is what the tree stands for. -/
def Decoder.Faithful (inner : Decoder) : Prop :=
  ∀ (p : Plain) (s : Structure), p.Tree → inner p = .ok s → p.StandsFor False s

variable {inner : Decoder}

theorem decodeNil_stands {tag : String} (body : Plain) (h : decodeNil tag = .ok s) :
    (tagged tag body).StandsFor False s := by
  unfold decodeNil at h
  split at h
  · next htag =>
    cases h
    exact htag ▸ .nil nofun
  · cases h

theorem decodeTwo_stands (hinner : inner.Faithful) {tag : String} {a d : Plain} (ha : a.Tree) (hd : d.Tree)
    (h : decodeTwo inner tag a d = .ok s) : (tagged tag (.list [a, d])).StandsFor False s := by
  unfold decodeTwo at h
  split at h
  · next htag =>
    subst htag
    split at h
    · next env id =>
      cases h
      exact .node ⟨env, id⟩
    · cases h
  split at h
  · next htag =>
    subst htag
    obtain ⟨car, hcar, h⟩ := except_bind_ok.1 h
    split at h
    · cases h
    · obtain ⟨cdr, hcdr, h⟩ := except_bind_ok.1 h
      cases h
      exact .pair (hinner a car ha hcar) (hinner d cdr hd hcdr)
  · exact decodeNil_stands _ h

/-- Items bound one after the other are listed with what their payloads stand for. -/
theorem decodeItems_stand (hinner : inner.Faithful) (whole : Plain) {items : List Plain}
    (hitems : ∀ q ∈ items, q.Tree) {level level' : Level Structure}
    (h : items.foldlM (decodeBinding inner whole) level = .ok level') :
    ∃ bs : List FrameItem, bs.map FrameItem.toPlain = items ∧ (∀ b ∈ bs, b.name.isWritable = true) ∧
      (∀ b ∈ bs, b.payload.StandsFor False b.value) ∧ level' = level.update (bs.map FrameItem.binding) := by
  induction items generalizing level with
  | nil =>
    cases h
    exact ⟨[], rfl, nofun, nofun, rfl⟩
  | cons q rest ih =>
    rw [List.foldlM_cons] at h
    obtain ⟨next, hnext, h⟩ := except_bind_ok.1 h
    obtain ⟨bs, hbs, hwritable, hstands, rfl⟩ := ih (fun q hq => hitems q (.tail _ hq)) h
    have hq := hitems q (.head _)
    unfold decodeBinding at hnext
    split at hnext
    · next name payload hlisted =>
      have hpayload := (part_listed? hq hlisted (.tail _ (.head _))).tree
      split at hnext
      · next hname =>
        obtain ⟨value, hvalue, hnext⟩ := except_bind_ok.1 hnext
        cases hnext
        have hvalue := hinner payload value hpayload hvalue
        have hq : q = .list [name, payload] :=
          eq_list_of_listed? hq hlisted (.tail _ (.head _)) hvalue.not_scalar
        subst hq hbs
        exact ⟨⟨name, payload, value⟩ :: bs, rfl, List.forall_mem_cons.2 ⟨hname, hwritable⟩,
          List.forall_mem_cons.2 ⟨hvalue, hstands⟩, rfl⟩
      · cases hnext
    · cases hnext

theorem decodeFrame_stands (hinner : inner.Faithful) {whole : Plain} {entries : List (Plain × Plain)}
    (ht : (map entries).Tree) {level : Level Structure} (h : decodeFrame inner whole entries = .ok level) :
    ∃ items, IsFrame (find? entries "frame") items ∧ (∀ b ∈ items, b.payload.StandsFor False b.value) ∧
      level = Level.ofPairs (items.map FrameItem.binding) := by
  unfold decodeFrame at h
  split at h
  · next hvoid =>
    cases h
    refine ⟨[], ?_, nofun, rfl⟩
    cases hfind : find? entries "frame" with
    | none => exact .absent
    | some p =>
      rw [hfind, Option.filter_eq_none_iff] at hvoid
      exact .void (by simpa using hvoid p rfl)
  · next p hp =>
    obtain ⟨hfind, hvoid⟩ := Option.filter_eq_some_iff.1 hp
    have htree := (part_find? ht hfind).1.tree
    split at h
    · next items hlisted =>
      have hitems : ∀ q ∈ items, q.Tree := fun q hq => (part_listed? htree hlisted hq).tree
      obtain ⟨bs, hbs, hwritable, hstands, hlevel⟩ := decodeItems_stand hinner whole hitems h
      refine ⟨bs, ?_, hstands, hlevel⟩
      cases bs with
      | nil =>
        cases hbs
        rw [isVoid_of_listed? htree hlisted] at hvoid
        cases hvoid
      | cons b rest =>
        have hlist : p = .list items :=
          eq_list_of_listed? htree hlisted (hbs ▸ List.mem_map.2 ⟨b, .head _, rfl⟩) rfl
        rw [hfind, hlist, ← hbs]
        exact .list hwritable
    · cases h

theorem decodeProcedure_stands (hinner : inner.Faithful) {whole : Plain} {entries : List (Plain × Plain)}
    (ht : (map entries).Tree) (h : decodeProcedure inner whole entries = .ok s) :
    (tagged "proc" (.map entries)).StandsFor False s := by
  unfold decodeProcedure at h
  split at h
  · cases h
  next params hparams =>
  obtain ⟨level, hlevel, h⟩ := except_bind_ok.1 h
  obtain ⟨items, hframe, hitems, rfl⟩ := decodeFrame_stands hinner ht hlevel
  split at h
  · cases h
  next p hfind =>
  obtain ⟨body, hbody, h⟩ := except_bind_ok.1 h
  cases h
  exact .proc hparams hframe hitems hfind (hinner p body (part_find? ht hfind).1.tree hbody) nofun

theorem decodeBody_stands (hinner : inner.Faithful) {tag : String} {body : Plain} (ht : body.Tree)
    (h : decodeBody inner tag body = .ok s) : (tagged tag body).StandsFor False s := by
  unfold decodeBody at h
  rw [ht.opened] at h
  split at h
  · next b =>
    split at h
    · next htag =>
      cases h
      exact htag ▸ .bool b
    · exact decodeNil_stands _ h
  · next n =>
    split at h
    · next htag =>
      cases h
      exact htag ▸ .int n
    · exact decodeNil_stands _ h
  · next text =>
    split at h
    · next htag =>
      cases h
      exact htag ▸ .str text
    split at h
    · next htag =>
      cases h
      exact htag ▸ .sym text
    · exact decodeNil_stands _ h
  · next a d =>
    exact decodeTwo_stands hinner (tree_list_iff.1 ht a (.head _)) (tree_list_iff.1 ht d (.tail _ (.head _))) h
  · next entries =>
    split at h
    · next htag => exact htag ▸ decodeProcedure_stands hinner ht h
    · exact decodeNil_stands _ h
  · exact decodeNil_stands _ h

theorem decodeWithin_stands (limit : Nat) : Decoder.Faithful (decodeWithin limit) := by
  induction limit with
  | zero => exact fun _ _ _ h => nomatch h
  | succ limit ih =>
    intro p s ht h
    unfold decodeWithin at h
    rw [ht.opened] at h
    split at h
    · exact decodeBody_stands ih (part_entry ht (.head _)).2.1.tree h
    · cases h
    · cases h

/-! ## What a tree stands for is read from it -/

theorem decodeNil_any (inner : Decoder) (body : Plain) : decodeBody inner "nil" body = .ok .nil := by
  have hnil : decodeNil "nil" = .ok .nil := rfl
  unfold decodeBody
  split
  · exact hnil
  · exact hnil
  · exact hnil
  · exact hnil
  · exact hnil
  · exact hnil

theorem foldlM_items {whole : Plain} {items : List FrameItem} (hwritable : ∀ b ∈ items, b.name.isWritable = true)
    (hitems : ∀ b ∈ items, inner b.payload = .ok b.value) (level : Level Structure) :
    (items.map FrameItem.toPlain).foldlM (decodeBinding inner whole) level =
      .ok (level.update (items.map FrameItem.binding)) := by
  induction items generalizing level with
  | nil => rfl
  | cons b rest ih =>
    have hb : decodeBinding inner whole level b.toPlain = .ok (level.bind b.name.asText b.value) := by
      unfold decodeBinding FrameItem.toPlain listed? opened
      dsimp only
      rw [if_pos (hwritable b (.head _)), hitems b (.head _)]
      rfl
    rw [List.map_cons, List.foldlM_cons, hb]
    exact ih (fun b hb => hwritable b (.tail _ hb)) (fun b hb => hitems b (.tail _ hb)) _

theorem decodeFrame_items {whole : Plain} {entries : List (Plain × Plain)} {items : List FrameItem}
    (hframe : IsFrame (find? entries "frame") items) (hitems : ∀ b ∈ items, inner b.payload = .ok b.value) :
    decodeFrame inner whole entries = .ok (Level.ofPairs (items.map FrameItem.binding)) := by
  unfold decodeFrame
  generalize find? entries "frame" = found at hframe
  cases hframe with
  | absent => rfl
  | void h =>
    rw [Option.filter_some, h]
    rfl
  | list hwritable =>
    cases items with
    | nil => rfl
    | cons b rest => exact foldlM_items hwritable hitems []

/-- What is listed in the frame of a tree are parts of it. -/
theorem IsFrame.part {entries : List (Plain × Plain)} {items : List FrameItem}
    (h : IsFrame (find? entries "frame") items) (ht : (map entries).Tree) {b : FrameItem} (hb : b ∈ items) :
    b.payload.Tree ∧ b.payload.depth < (map entries).depth := by
  generalize hfind : find? entries "frame" = found at h
  cases h with
  | absent => cases hb
  | void _ => cases hb
  | list _ =>
    obtain ⟨hframe, hdepth⟩ := part_find? ht hfind
    obtain ⟨hitem, -⟩ := part_item hframe.tree (List.mem_map.2 ⟨b, hb, rfl⟩)
    have hpayload := (part_item hitem.tree (.tail _ (.head _))).1
    exact ⟨hpayload.tree, Nat.lt_of_le_of_lt (hitem.trans hpayload).depth hdepth⟩

/-- What a tree stands for is read from it. -/
theorem StandsFor.decodeWithin_eq (h : p.StandsFor strict s) (ht : p.Tree) {limit : Nat} (hl : p.depth < limit) :
    p.decodeWithin limit = .ok s := by
  induction h generalizing limit with
  | pair ha hd iha ihd =>
    obtain ⟨limit, rfl⟩ : ∃ n, limit = n + 1 := ⟨limit - 1, by omega⟩
    obtain ⟨-, hbody, hdepth⟩ := part_entry ht (.head _)
    obtain ⟨hpa, hda⟩ := part_item hbody.tree (.head _)
    obtain ⟨hpd, hdd⟩ := part_item hbody.tree (.tail _ (.head _))
    have hl := Nat.lt_of_lt_of_le hdepth (Nat.le_of_lt_succ hl)
    exact decodeTwo_pair (iha hpa.tree (Nat.lt_trans hda hl)) hd.brokenPair?_eq (ihd hpd.tree (Nat.lt_trans hdd hl))
  | @proc entries params q body items hparams hframe hitems hfind hbody _ ihitems ihbody =>
    obtain ⟨limit, rfl⟩ : ∃ n, limit = n + 1 := ⟨limit - 1, by omega⟩
    obtain ⟨-, hpart, hdepth⟩ := part_entry ht (.head _)
    have hl := Nat.lt_of_lt_of_le hdepth (Nat.le_of_lt_succ hl)
    obtain ⟨hq, hqdepth⟩ := part_find? hpart.tree hfind
    have hframe : decodeFrame (Plain.decodeWithin limit) (map entries) entries =
        .ok (Level.ofPairs (items.map FrameItem.binding)) :=
      decodeFrame_items hframe fun b hb =>
        have ⟨htree, hdepth⟩ := hframe.part hpart.tree hb
        ihitems b hb htree (Nat.lt_trans hdepth hl)
    have hbody : q.decodeWithin limit = .ok body := ihbody hq.tree (Nat.lt_trans hqdepth hl)
    change decodeProcedure _ (map entries) entries = _
    unfold decodeProcedure
    rw [hparams, hfind, hframe]
    simp only [bind, Except.bind, hbody]
    rfl
  | nil _ =>
    obtain ⟨limit, rfl⟩ : ∃ n, limit = n + 1 := ⟨limit - 1, by omega⟩
    exact decodeNil_any _ _
  | _ =>
    obtain ⟨limit, rfl⟩ : ∃ n, limit = n + 1 := ⟨limit - 1, by omega⟩
    rfl

/-- A tree is read as what it stands for. -/
theorem decode_ok_iff (ht : p.Tree) : p.decode = .ok s ↔ p.StandsFor False s :=
  ⟨decodeWithin_stands _ p s ht, fun h => h.decodeWithin_eq ht (Nat.lt_add_of_pos_right (by decide))⟩

end

end Plain

end GraphLisp
