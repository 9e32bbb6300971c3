import Mathlib.Data.List.Nodup
import Mathlib.Data.List.Perm.Subperm
import GraphLisp.Proofs.Payload.Language
/-!
# Payloads written as they should be

A tree that is written as it should be is the payload of what it stands for, up to the order of entries, with
a frame that is absent or null in place of an empty one (`Plain.standsFor_of_amountsTo`). So what is read from any
other tree is another structure's payload misread, and `Plain.decode_language` says which these are.
-/

namespace GraphLisp

namespace Plain

open Structure

/-! ## Entries found by their keys -/

section
variable {entries : List (Plain × Plain)} {key : String} {p : Plain}

theorem mem_of_find? (h : find? entries key = some p) : (.text key, p) ∈ entries := by
  unfold find? at h
  obtain ⟨⟨k, q⟩, he, rfl⟩ := Option.map_eq_some_iff.1 h
  have hkey := List.find?_some he
  dsimp only at hkey
  split at hkey
  · next name =>
    rw [← eq_of_beq hkey]
    exact List.mem_of_find?_eq_some he
  · cases hkey

theorem find?_of_mem (hn : (entries.map (·.1)).Nodup) (h : (.text key, p) ∈ entries) :
    find? entries key = some p := by
  cases hfind : find? entries key with
  | none =>
    unfold find? at hfind
    rw [Option.map_eq_none_iff, List.find?_eq_none] at hfind
    exact absurd (beq_self_eq_true key) (hfind _ h)
  | some q =>
    have hkeys := List.inj_on_of_nodup_map hn (mem_of_find? hfind) h rfl
    rw [(Prod.mk.inj hkeys).2]

/-- The order of entries does not matter. -/
theorem find?_perm {given : List (Plain × Plain)} (h : entries.Perm given) (hn : (given.map (·.1)).Nodup)
    (key : String) :
    find? entries key = find? given key := by
  have hn' : (entries.map (·.1)).Nodup := (h.map _).nodup_iff.2 hn
  refine Option.ext fun p => ⟨fun hp => ?_, fun hp => ?_⟩
  · exact find?_of_mem hn (h.mem_iff.1 (mem_of_find? hp))
  · exact find?_of_mem hn' (h.mem_iff.2 (mem_of_find? hp))

end

/-! ## Equal up to order -/

theorem perm_last {α : Type} (a b c : α) : [a, b, c].Perm [c, a, b] :=
  (List.perm_append_comm : ([a, b] ++ [c]).Perm ([c] ++ [a, b]))

/-- The payload `p` is `q`, except that entries may come in another order, and that a procedure may have a
null frame or none where it has an empty list in `q`. -/
inductive AmountsTo : Plain → Plain → Prop where
  | refl (p : Plain) : AmountsTo p p
  | list {ps qs : List Plain} (h : List.Forall₂ AmountsTo ps qs) : AmountsTo (.list ps) (.list qs)
  | map {es fs gs : List (Plain × Plain)} (horder : es.Perm fs) (hkeys : fs.map (·.1) = gs.map (·.1))
      (hvalues : List.Forall₂ AmountsTo (fs.map (·.2)) (gs.map (·.2))) : AmountsTo (.map es) (.map gs)
  | unframed {es rest : List (Plain × Plain)} {q : Plain}
      (hes : es = rest ∨ es.Perm ((.text "frame", .null) :: rest))
      (h : AmountsTo (.map ((.text "frame", .list []) :: rest)) q) :
    AmountsTo (tagged "proc" (.map es)) (tagged "proc" q)

/-- What is listed in a frame that is written as it should be. -/
inductive IsProperFrame : Option Plain → List Plain → Prop where
  | absent : IsProperFrame none []
  | null : IsProperFrame (some .null) []
  | list (ps : List Plain) : IsProperFrame (some (.list ps)) ps

section
variable {p q : Plain}

theorem AmountsTo.of_scalar (h : p.AmountsTo q) (hq : q.isScalar = true) : p = q := by
  cases h with
  | refl => rfl
  | list _ => cases hq
  | map _ _ _ => cases hq
  | unframed _ _ => cases hq

theorem AmountsTo.of_list {qs : List Plain} (h : p.AmountsTo (.list qs)) :
    ∃ ps, p = .list ps ∧ List.Forall₂ AmountsTo ps qs := by
  cases h with
  | refl => exact ⟨qs, rfl, List.forall₂_same.2 fun q _ => .refl q⟩
  | list h => exact ⟨_, rfl, h⟩

theorem AmountsTo.of_two {a b : Plain} (h : p.AmountsTo (.list [a, b])) :
    ∃ a' b', p = .list [a', b'] ∧ a'.AmountsTo a ∧ b'.AmountsTo b := by
  obtain ⟨ps, rfl, hps⟩ := h.of_list
  obtain ⟨a', _, ha, hrest, rfl⟩ := List.forall₂_cons_right_iff.1 hps
  obtain ⟨b', _, hb, hnil, rfl⟩ := List.forall₂_cons_right_iff.1 hrest
  cases List.forall₂_nil_right_iff.1 hnil
  exact ⟨a', b', rfl, ha, hb⟩

/-- Texts are listed in one way. -/
theorem AmountsTo.of_texts {names : List String} (h : p.AmountsTo (.list (names.map .text))) :
    p = .list (names.map .text) := by
  obtain ⟨ps, rfl, hps⟩ := h.of_list
  clear h
  congr 1
  induction names generalizing ps with
  | nil =>
    cases hps
    rfl
  | cons name rest ih =>
    cases hps with
    | cons hp hps => rw [hp.of_scalar rfl, ih _ hps, List.map_cons]

theorem AmountsTo.of_procedure {params body frame : Plain}
    (h : p.AmountsTo (.object [("params", params), ("body", body), ("frame", frame)])) :
    ∃ es params' body' frame', p = .map es ∧
      es.Perm [(.text "params", params'), (.text "body", body'), (.text "frame", frame')] ∧
      params'.AmountsTo params ∧ body'.AmountsTo body ∧ frame'.AmountsTo frame := by
  generalize hgs : object [("params", params), ("body", body), ("frame", frame)] = q at h
  cases h with
  | refl => exact ⟨_, params, body, frame, hgs.symm, .refl _, .refl _, .refl _, .refl _⟩
  | list _ => cases hgs
  | unframed _ _ => simp [object, tagged] at hgs
  | @map es fs gs horder hkeys hvalues =>
    cases hgs
    obtain _ | ⟨⟨k₁, v₁⟩, _ | ⟨⟨k₂, v₂⟩, _ | ⟨⟨k₃, v₃⟩, _ | ⟨_, _⟩⟩⟩⟩ := fs
    all_goals simp only [List.map_cons, List.map_nil, List.cons.injEq, reduceCtorEq, and_true, and_false] at hkeys
    obtain ⟨rfl, rfl, rfl⟩ := hkeys
    simp only [List.map_cons, List.map_nil, List.forall₂_cons, List.forall₂_nil_right_iff, and_true] at hvalues
    exact ⟨es, v₁, v₂, v₃, rfl, horder, hvalues⟩

theorem AmountsTo.of_tagged {tag : String} (h : p.AmountsTo (tagged tag q)) : ∃ body, p = tagged tag body ∧
    (body.AmountsTo q ∨ (tag = "proc" ∧ ∃ es rest, body = .map es ∧
      (es = rest ∨ es.Perm ((.text "frame", .null) :: rest)) ∧
      AmountsTo (.map ((.text "frame", .list []) :: rest)) q)) := by
  generalize hgs : tagged tag q = whole at h
  cases h with
  | refl => exact ⟨q, hgs.symm, .inl (.refl q)⟩
  | list _ => cases hgs
  | unframed hes h =>
    cases hgs
    exact ⟨_, rfl, .inr ⟨rfl, _, _, rfl, hes, h⟩⟩
  | @map es fs gs horder hkeys hvalues =>
    cases hgs
    obtain _ | ⟨⟨k, v⟩, _ | ⟨_, _⟩⟩ := fs
    all_goals simp only [List.map_cons, List.map_nil, List.cons.injEq, reduceCtorEq, and_true, and_false] at hkeys
    subst hkeys
    simp only [List.map_cons, List.map_nil, List.forall₂_cons, List.forall₂_nil_right_iff, and_true] at hvalues
    rw [List.perm_singleton.1 horder]
    exact ⟨v, rfl, .inl hvalues⟩

/-- Atoms are written in one way. -/
theorem AmountsTo.of_atom {tag : String} (h : p.AmountsTo (tagged tag q)) (hq : q.isScalar = true)
    (htag : tag ≠ "proc") : p = tagged tag q := by
  obtain ⟨body, rfl, hbody | ⟨hproc, -⟩⟩ := h.of_tagged
  · rw [hbody.of_scalar hq]
  · exact absurd hproc htag

/-- A pair and a node are lists of two. -/
theorem AmountsTo.of_tagged_two {tag : String} {a b : Plain} (h : p.AmountsTo (tagged tag (.list [a, b])))
    (htag : tag ≠ "proc") : ∃ a' b', p = tagged tag (.list [a', b']) ∧ a'.AmountsTo a ∧ b'.AmountsTo b := by
  obtain ⟨body, rfl, hbody | ⟨hproc, -⟩⟩ := h.of_tagged
  · obtain ⟨a', b', rfl, ha, hb⟩ := hbody.of_two
    exact ⟨a', b', rfl, ha, hb⟩
  · exact absurd hproc htag

/-- The entries of a procedure, in any order, with its frame or without one that is empty. -/
theorem AmountsTo.of_proc {params : List String} {body : Plain} {items : List Plain}
    (h : p.AmountsTo (tagged "proc" (.object [("params", .list (params.map .text)), ("body", body),
      ("frame", .list items)]))) :
    ∃ es q ps, p = tagged "proc" (.map es) ∧
      (es.map (·.1)).Subperm [.text "params", .text "body", .text "frame"] ∧
      find? es "params" = some (.list (params.map .text)) ∧ find? es "body" = some q ∧ q.AmountsTo body ∧
      IsProperFrame (find? es "frame") ps ∧ List.Forall₂ AmountsTo ps items := by
  obtain ⟨_, rfl, h | ⟨-, es, rest, rfl, hes, h⟩⟩ := h.of_tagged
  · obtain ⟨es, _, q, _, rfl, horder, hparams, hbody, hframe⟩ := h.of_procedure
    obtain ⟨ps, rfl, hitems⟩ := hframe.of_list
    rw [hparams.of_texts] at horder
    have hfound := find?_perm horder (by simp)
    refine ⟨es, q, ps, rfl, (horder.map _).subperm, hfound "params", hfound "body", hbody, ?_, hitems⟩
    rw [hfound "frame"]
    exact .list ps
  · obtain ⟨_, _, q, frame, hframed, horder, hparams, hbody, hframe⟩ := h.of_procedure
    cases hframed
    rw [hparams.of_texts] at horder
    -- the empty frame that was added is the frame that is found
    obtain rfl : frame = .list [] := by
      have hframed := find?_perm horder (by simp) "frame"
      exact (Option.some.inj hframed).symm
    obtain ⟨_, hnil, hitems⟩ := hframe.of_list
    cases hnil
    have hrest := (horder.trans (perm_last _ _ _)).cons_inv
    refine ⟨es, q, [], rfl, ?_⟩
    rcases hes with rfl | hes
    · have hfound := find?_perm hrest (by simp)
      refine ⟨(hrest.map _).subperm.trans ?_, hfound "params", hfound "body", hbody, ?_, hitems⟩
      · exact (List.sublist_append_left [_, _] [_]).subperm
      · rw [hfound "frame"]
        exact .absent
    · have horder := hes.trans (hrest.cons _)
      have hfound := find?_perm horder (by simp)
      refine ⟨((horder.trans (perm_last _ _ _).symm).map _).subperm, hfound "params", hfound "body",
        hbody, ?_, hitems⟩
      rw [hfound "frame"]
      exact .null

end

/-! ## What is written as it should be -/

section
variable {strict : Prop} {p : Plain} {s : Structure}

/-- What a procedure that is read shows is what its frame binds. -/
theorem flatten_items (items : List FrameItem) :
    Scope.flatten (Scope.single (Level.ofPairs (items.map FrameItem.binding))) =
      Level.ofPairs (items.map FrameItem.binding) :=
  Scope.flatten_single (Level.distinct_ofPairs _)

theorem mem_items {items : List FrameItem} {b : String × Structure}
    (h : b ∈ Level.ofPairs (items.map FrameItem.binding)) : ∃ item ∈ items, item.binding = b :=
  List.mem_map.1 ((Level.mem_update h).resolve_left List.not_mem_nil)

/-- What is read is whole. -/
theorem StandsFor.isWhole (h : p.StandsFor strict s) : s.isWhole = true := by
  induction h with
  | pair _ _ iha ihd => rw [Structure.isWhole, iha, ihd, Bool.and_self]
  | proc _ _ _ _ _ _ ihitems ihbody =>
    rw [isWhole_proc, ihbody, Bool.and_true, List.all_eq_true, flatten_items]
    intro b hb
    obtain ⟨item, hitem, rfl⟩ := mem_items hb
    exact ihitems item hitem
  | _ => rfl

/-- What is read is flat. -/
theorem StandsFor.flattened_eq (h : p.StandsFor strict s) : s.flattened = s := by
  induction h with
  | pair _ _ iha ihd => rw [flattened, iha, ihd]
  | @proc _ params _ _ items _ _ _ _ _ _ ihitems ihbody =>
    have hvalues : (Level.ofPairs (items.map FrameItem.binding)).mapValues flattened =
        Level.ofPairs (items.map FrameItem.binding) := by
      refine (List.map_congr_left fun b hb => ?_).trans (List.map_id _)
      obtain ⟨item, hitem, rfl⟩ := mem_items hb
      exact congrArg (Prod.mk item.binding.1) (ihitems item hitem)
    rw [flattened_proc, ihbody, Scope.mapValues_single, hvalues, Scope.collapse, flatten_items]
  | _ => rfl

theorem Proper.nodup {entries : List (Plain × Plain)} {items : List FrameItem} (h : Proper entries items) :
    (entries.map (·.1)).Nodup := by
  obtain ⟨keys, hperm, hsub⟩ := h.keys
  exact hperm.nodup_iff.1 (List.Nodup.sublist hsub (by simp))

/-- The entries of a procedure: its parameters, its body, and a frame if it has one. -/
theorem Proper.perm {entries : List (Plain × Plain)} {items : List FrameItem} (h : Proper entries items)
    {params body : Plain} (hparams : find? entries "params" = some params)
    (hbody : find? entries "body" = some body) :
    match find? entries "frame" with
    | none => entries.Perm [(.text "params", params), (.text "body", body)]
    | some frame => entries.Perm [(.text "params", params), (.text "body", body), (.text "frame", frame)] := by
  have hn := h.nodup
  have hlength : ∀ ks : List Plain, entries.map (·.1) ⊆ ks → entries.length ≤ ks.length := by
    intro ks hks
    rw [← List.length_map (·.1)]
    exact (hn.subperm hks).length_le
  -- what is found is among the entries, and there are no more entries than are found
  cases hframe : find? entries "frame" with
  | none =>
    have hsub : [(.text "params", params), (.text "body", body)] ⊆ entries := by
      simp [mem_of_find? hparams, mem_of_find? hbody]
    refine ((List.Nodup.subperm (by simp) hsub).perm_of_length_le (hlength [.text "params", .text "body"] ?_)).symm
    intro k hk
    have hkey := h.keys.subset hk
    simp only [List.mem_cons, List.not_mem_nil, or_false] at hkey ⊢
    refine hkey.imp_right fun hkey => hkey.resolve_right ?_
    rintro rfl
    obtain ⟨⟨k, frame⟩, he, rfl⟩ := List.mem_map.1 hk
    rw [find?_of_mem hn he] at hframe
    cases hframe
  | some frame =>
    have hsub : [(.text "params", params), (.text "body", body), (.text "frame", frame)] ⊆ entries := by
      simp [mem_of_find? hparams, mem_of_find? hbody, mem_of_find? hframe]
    exact ((List.Nodup.subperm (by simp) hsub).perm_of_length_le (hlength _ h.keys.subset)).symm

theorem AmountsTo.under {p q : Plain} (h : p.AmountsTo q) (tag : String) : (tagged tag p).AmountsTo (tagged tag q) :=
  .map (.refl _) rfl (.cons h .nil)

/-- A proper frame binds its names in order. -/
theorem frame_binding {items : List FrameItem} {names : List String} (hnames : items.map (·.name) = names.map .text)
    (hn : names.Nodup) : Level.ofPairs (items.map FrameItem.binding) = items.map FrameItem.binding := by
  have htexts : Level.names (items.map FrameItem.binding) = names := by
    have hmap := congrArg (List.map asText) hnames
    rw [List.map_map, List.map_map] at hmap
    unfold Level.names
    rw [List.map_map]
    exact hmap.trans (List.map_id _)
  refine Level.ofPairs_of_distinct ?_
  unfold Level.Distinct
  rwa [htexts]

theorem frame_amountsTo {items : List FrameItem} {names : List String} (hnames : items.map (·.name) = names.map .text)
    (hitems : ∀ b ∈ items, b.payload.AmountsTo b.value.encode) :
    List.Forall₂ AmountsTo (items.map FrameItem.toPlain) ((items.map FrameItem.binding).map bindingEntry) := by
  induction items generalizing names with
  | nil => exact .nil
  | cons b rest ih =>
    cases names with
    | nil => cases hnames
    | cons name names =>
      obtain ⟨hname, hnames⟩ := List.cons.inj hnames
      have hname : b.name = .text name := hname
      have hentry : bindingEntry b.binding = .list [b.name, b.value.encode] := by
        unfold bindingEntry FrameItem.binding
        rw [hname]
        rfl
      refine .cons ?_ (ih hnames fun b hb => hitems b (.tail _ hb))
      rw [hentry]
      exact .list (.cons (.refl _) (.cons (hitems b (.head _)) .nil))

/-- What is written as it should be is the payload of what it stands for. -/
theorem StandsFor.amountsTo (h : p.StandsFor True s) : p.AmountsTo s.encode := by
  induction h with
  | pair _ _ iha ihd => exact .under (.list (.cons iha (.cons ihd .nil))) "pair"
  | nil hbody =>
    rw [hbody trivial]
    exact .refl _
  | @proc entries params q body items hparams hframe _ hfind _ hproper ihitems ihbody =>
    have hproper := hproper trivial
    obtain ⟨texts, htexts⟩ := hproper.params
    obtain ⟨names, hnames, hn⟩ := hproper.names
    obtain rfl : texts = params := by
      rw [htexts, Option.bind_some, parameters?_texts] at hparams
      exact Option.some.inj hparams
    rw [encode_proc, flatten_items, frame_binding hnames hn]
    have hitems := frame_amountsTo hnames ihitems
    have hentries : ∀ {es : List (Plain × Plain)},
        es.Perm [(.text "params", .list (texts.map .text)), (.text "body", q),
          (.text "frame", .list (items.map FrameItem.toPlain))] → (map es).AmountsTo (.object [
          ("params", .list (texts.map .text)), ("body", body.encode),
          ("frame", .list ((items.map FrameItem.binding).map bindingEntry))]) := fun horder =>
      .map horder rfl (.cons (.refl _) (.cons ihbody (.cons (.list hitems) .nil)))
    have hvoid := hproper.void
    have hperm := hproper.perm htexts hfind
    generalize find? entries "frame" = found at hframe hvoid hperm
    cases hframe with
    | absent => exact .unframed (.inl rfl) (hentries ((hperm.cons _).trans (perm_last _ _ _).symm))
    | @void p hp =>
      rcases hvoid p rfl hp with rfl | rfl
      · exact .unframed (.inr (hperm.trans (perm_last _ _ _)))
          (hentries (perm_last _ _ _).symm)
      · exact .under (hentries hperm) "proc"
    | list _ => exact .under (hentries hperm) "proc"
  | _ => exact .refl _

/-! ## What is the payload of a structure -/

/-- Payloads of bindings are the items of a frame that binds them. -/
theorem exists_items {bindings : Level Structure} {ps : List Plain}
    (h : List.Forall₂ AmountsTo ps (bindings.map bindingEntry))
    (hvalues : ∀ b ∈ bindings, ∀ p : Plain, p.AmountsTo b.2.encode → p.StandsFor True b.2) :
    ∃ items : List FrameItem, items.map FrameItem.toPlain = ps ∧ items.map (·.name) = bindings.names.map .text ∧
      items.map FrameItem.binding = bindings ∧ ∀ b ∈ items, b.payload.StandsFor True b.value := by
  induction bindings generalizing ps with
  | nil =>
    cases h
    exact ⟨[], rfl, rfl, rfl, nofun⟩
  | cons b rest ih =>
    cases h with
    | cons hb h =>
      obtain ⟨items, rfl, hnames, hbindings, hstands⟩ := ih h fun c hc => hvalues c (.tail _ hc)
      obtain ⟨_, _, rfl, hname, hvalue⟩ := hb.of_two
      rw [hname.of_scalar rfl]
      refine ⟨⟨.text b.1, _, b.2⟩ :: items, rfl, ?_, ?_, List.forall_mem_cons.2 ⟨hvalues b (.head _) _ hvalue, hstands⟩⟩
      · rw [List.map_cons, hnames, Level.names_cons, List.map_cons]
      · rw [List.map_cons, hbindings]
        rfl

theorem standsFor_proc {entries : List (Plain × Plain)} {params names : List String} {q : Plain} {body : Structure}
    {items : List FrameItem} (hkeys : (entries.map (·.1)).Subperm [.text "params", .text "body", .text "frame"])
    (hparams : find? entries "params" = some (.list (params.map .text))) (hfind : find? entries "body" = some q)
    (hbody : q.StandsFor True body) (hframe : IsProperFrame (find? entries "frame") (items.map FrameItem.toPlain))
    (hnames : items.map (·.name) = names.map .text) (hn : names.Nodup)
    (hitems : ∀ b ∈ items, b.payload.StandsFor True b.value) :
    (tagged "proc" (.map entries)).StandsFor True
      (.proc params body (Scope.single (Level.ofPairs (items.map FrameItem.binding)))) := by
  have hwritable : ∀ b ∈ items, b.name.isWritable = true := by
    intro b hb
    have hname : b.name ∈ items.map (·.name) := List.mem_map.2 ⟨b, hb, rfl⟩
    rw [hnames] at hname
    obtain ⟨name, -, hname⟩ := List.mem_map.1 hname
    rw [← hname]
    rfl
  have hframe : IsFrame (find? entries "frame") items ∧
      ∀ p, find? entries "frame" = some p → p.isVoid = true → p = .null ∨ p = .list [] := by
    generalize hlisted : items.map FrameItem.toPlain = ps at hframe
    generalize find? entries "frame" = found at hframe
    cases hframe with
    | absent =>
      cases List.map_eq_nil_iff.1 hlisted
      exact ⟨.absent, nofun⟩
    | null =>
      cases List.map_eq_nil_iff.1 hlisted
      exact ⟨.void rfl, fun p hp _ => .inl (Option.some.inj hp).symm⟩
    | list =>
      subst hlisted
      refine ⟨.list hwritable, fun p hp hvoid => .inr ?_⟩
      cases hp
      cases items with
      | nil => rfl
      | cons b rest => cases hvoid
  have hgiven : (find? entries "params").bind parameters? = some params := by
    rw [hparams, Option.bind_some, parameters?_texts]
  exact .proc hgiven hframe.1 hitems hfind hbody fun _ => ⟨hkeys, ⟨params, hparams⟩, hframe.2, names, hnames, hn⟩

/-- The payload of a flat structure, up to the order of entries and empty frames, is written as it should be. -/
theorem standsFor_of_amountsTo (hs : s.isWhole = true) (hflat : s.flattened = s) (h : p.AmountsTo s.encode) :
    p.StandsFor True s := by
  induction s using induct generalizing p with
  | nothing => cases hs
  | pair car cdr ihcar ihcdr =>
    rw [Structure.isWhole, Bool.and_eq_true] at hs
    rw [flattened] at hflat
    obtain ⟨hcar, hcdr⟩ := Structure.pair.inj hflat
    obtain ⟨_, _, rfl, ha, hd⟩ := h.of_tagged_two (by decide)
    exact .pair (ihcar hs.1 hcar ha) (ihcdr hs.2 hcdr hd)
  | node n =>
    obtain ⟨_, _, rfl, henv, hid⟩ := h.of_tagged_two (by decide)
    rw [henv.of_scalar rfl, hid.of_scalar rfl]
    exact .node n
  | proc params body scope ihbody ihscope =>
    rw [isWhole_proc, Bool.and_eq_true, List.all_eq_true] at hs
    rw [flattened_proc] at hflat
    obtain ⟨-, hbody, hscope⟩ := Structure.proc.inj hflat
    have hvalues : scope.flatten.mapValues flattened = scope.flatten := by
      rw [← flatten_flattened, hscope]
    have hsingle : scope = Scope.single (Level.ofPairs scope.flatten) := by
      rw [Level.ofPairs_of_distinct (Scope.distinct_flatten scope), ← hvalues, ← Scope.flatten_mapValues]
      exact hscope.symm
    have hstands : ∀ b ∈ scope.flatten, ∀ p : Plain, p.AmountsTo b.2.encode → p.StandsFor True b.2 := by
      intro b hb p hp
      obtain ⟨level, hl, hbl⟩ := Scope.mem_flatten hb
      have heq : (b.1, b.2.flattened) = b := List.map_inj_left.1 (hvalues.trans (List.map_id _).symm) b hb
      exact ihscope level hl b hbl (hs.1 b hb) (congrArg Prod.snd heq) hp
    have hn : scope.flatten.names.Nodup := Scope.distinct_flatten scope
    rw [encode_proc] at h
    rw [hsingle]
    obtain ⟨es, q, ps, rfl, hkeys, hparams, hfind, hq, hframe, hps⟩ := h.of_proc
    obtain ⟨items, rfl, hnames, hbindings, hitems⟩ := exists_items hps hstands
    rw [← hbindings]
    exact standsFor_proc hkeys hparams hfind (ihbody hs.2 hbody hq) hframe hnames hn hitems
  | nil => exact h.of_atom rfl (by decide) ▸ .nil fun _ => rfl
  | _ => exact h.of_atom rfl (by decide) ▸ by constructor

/-! ## The language -/

/-- A tree is read as what it stands for, which is whole and flat, or it is refused as damaged, and only a number
that is too long to be written can keep that from being told. The payloads of all structures are written as they
should be and read as those structures, flattened, and what is read from any other tree has another payload. -/
theorem decode_language (ht : p.Tree) :
    (∀ f, p.decode = .error f → f.kind = .corruptSnapshot ∧
      (f.told = f ∨ (p.isWritable ≠ true ∧ f.told = .numeral none))) ∧
    (∀ s, p.decode = .ok s ↔ p.StandsFor False s) ∧
    (∀ s, p.decode = .ok s → s.payload = .ok s.encode ∧ s.flattened = s ∧
      (p.AmountsTo s.encode ↔ p.StandsFor True s)) ∧
    ∀ s : Structure, s.isWhole = true → p.AmountsTo s.encode →
      p.StandsFor True s.flattened ∧ p.decode = .ok s.flattened := by
  refine ⟨fun f hf => (decode_tells ht).checks.told_or_untold hf, fun s => decode_ok_iff ht, fun s hs => ?_,
    fun s hs h => ?_⟩
  · have hs := (decode_ok_iff ht).1 hs
    exact ⟨payload_of_isWhole hs.isWhole, hs.flattened_eq, standsFor_of_amountsTo hs.isWhole hs.flattened_eq,
      fun h => h.amountsTo⟩
  · rw [← encode_flattened] at h
    have hstands := standsFor_of_amountsTo ((isWhole_flattened s).trans hs) (flattened_flattened s) h
    exact ⟨hstands, (decode_ok_iff ht).2 hstands.lenient⟩

end

/-- A procedure that binds nothing, without a frame and with its body in front. -/
def frameless : Plain :=
  tagged "proc" (.object [("body", tagged "sym" (.text "x")), ("params", .list [.text "x"])])

theorem frameless_language : frameless.Tree ∧ frameless.decode = .ok (.proc ["x"] (.sym "x") []) ∧
    frameless.AmountsTo (encode (.proc ["x"] (.sym "x") [])) ∧
    frameless.StandsFor True (.proc ["x"] (.sym "x") []) := by
  have ht : frameless.Tree := by simp [frameless, tagged, tree_map_iff, isScalar]
  have hread : frameless.decode = .ok (.proc ["x"] (.sym "x") []) := rfl
  have hamounts : frameless.AmountsTo (encode (.proc ["x"] (.sym "x") [])) :=
    .unframed (.inl rfl) (.map (List.reverse_perm [_, _, _]).symm rfl
      (.cons (.refl _) (.cons (.refl _) (.cons (.refl _) .nil))))
  obtain ⟨-, -, hstands, -⟩ := decode_language ht
  exact ⟨ht, hread, hamounts, (hstands _ hread).2.2.1 hamounts⟩

/-- A procedure whose parameters are a text, whose frame binds a name twice and has a truth value for a name, whose
body is an empty list with something in it, and with an entry that no procedure has. -/
def sloppy : Plain := tagged "proc" (.object [("params", .text "xy"), ("body", tagged "nil" (.int 5)),
  ("frame", .list [.list [.text "k", tagged "int" (.int 1)], .list [.text "k", tagged "int" (.int 2)],
    .list [.bool true, tagged "int" (.int 4)]]), ("note", .null)])

/-- What is read from it. -/
def sloppyRead : Structure := .proc ["x", "y"] .nil [[("k", .int 2), ("True", .int 4)]]

/-- Trees that no structure has as its payload are read all the same, and what is told of a number that is too
long to be written is no damage. -/
theorem sloppy_misread : (sloppy.Tree ∧ sloppy.decode = .ok sloppyRead ∧ ¬sloppy.AmountsTo sloppyRead.encode) ∧
    ((tagged "nil" (.int 5)).decode = .ok .nil ∧ ¬(tagged "nil" (.int 5)).AmountsTo (encode .nil)) ∧
    ∃ f, (Plain.int Decimal.firstTooLong).decode = .error f ∧ f.told.kind = .misuse := by
  have ht : sloppy.Tree := by simp [sloppy, tagged, tree_map_iff, isScalar]
  have huntold : ((Fault.corrupt (.payload (.int Decimal.firstTooLong))).told.kind == .misuse) = true := by
    decide +kernel
  refine ⟨⟨ht, rfl, fun h => ?_⟩, ⟨rfl, fun h => ?_⟩, _, rfl, eq_of_beq huntold⟩
  · obtain ⟨es, -, -, hes, -, hparams, -⟩ := AmountsTo.of_proc (encode_proc _ _ _ ▸ h)
    cases hes
    cases hparams
  · cases h.of_atom rfl (by decide)

end Plain

end GraphLisp
