/-
# Printing is faithful

Two records that fit one shape are the same if they are printed alike.  What is found under the key
of a slot tells its cell (`Slot.eq_of_rel_json?`): a value of the kind of the slot tells itself, and
nothing that holds something is printed as `null` or left out.  What is found under the key of the
leaves that fill no slot tells these leaves (`Leftovers.eq_of_rel_json?`).  The records inside of a
record are told one by one, so the proof goes by induction on the record (`Fits.eq_of_same`).

Everything that a response is decoded into fits its shape, so responses to one action that are
printed alike are the same (`toJson_faithful`).
-/
import CloudCodec.Proofs.Numeral.Decimals
import CloudCodec.Proofs.Response.Cells
import CloudCodec.Proofs.Response.Printing
import CloudCodec.Response.Answer

namespace CloudCodec.Response

open Decode

variable {node node' : Node} {slot : Slot} {cell cell' : Cell Node} {kind : Kind}
  {v v' : Scalar} {field field' text text' : String} {value : Json}

/-! ### Values of leaves -/

lemma scalarJson_ne_null (v : Scalar) : scalarJson v ≠ .null := by
  cases v <;> exact Json.noConfusion

/-- What is printed for a value is the same as nothing else. -/
lemma eq_of_same_scalarJson (h : (scalarJson v).Same value) : value = scalarJson v := by
  cases v <;> cases h <;> rfl

/-- Values of one kind are printed differently. -/
lemma eq_of_same_read (hread : kind.read field text = .ok v)
    (hread' : kind.read field' text' = .ok v') (h : (scalarJson v).Same (scalarJson v')) :
    v = v' := by
  have hjson := (eq_of_same_scalarJson h).symm
  cases kind with
  | text =>
    cases hread
    cases hread'
    exact congrArg Scalar.text (Json.text.inj hjson)
  | boolean =>
    obtain ⟨b, rfl⟩ := exists_of_map_eq_ok hread
    obtain ⟨b', rfl⟩ := exists_of_map_eq_ok hread'
    exact congrArg Scalar.boolean (Json.boolean.inj hjson)
  | integer word =>
    obtain ⟨n, rfl⟩ := exists_of_map_eq_ok hread
    obtain ⟨n', rfl⟩ := exists_of_map_eq_ok hread'
    exact congrArg Scalar.integer (Json.integer.inj hjson)
  | decimal =>
    obtain ⟨d, rfl⟩ := exists_of_map_eq_ok hread
    obtain ⟨d', rfl⟩ := exists_of_map_eq_ok hread'
    exact congrArg Scalar.decimal (Numeral.Decimal.text_injective (Json.text.inj hjson))

/-! ### Cells -/

lemma Node.toJson_ne_null (node : Node) : node.toJson ≠ .null := by
  by_cases hcollector : ∃ marker entity, node.shape = .collector marker entity
  · obtain ⟨marker, entity, hshape⟩ := hcollector
    obtain ⟨nodes, -, hjson⟩ := Node.exists_toJson_eq_array hshape
    rw [hjson]
    exact Json.noConfusion
  · rw [Node.toJson_eq_object (by simpa using hcollector)]
    exact Json.noConfusion

/-- What is printed for something is neither left out nor `null`. -/
lemma Slot.not_rel_blank? (slot : Slot) (hvalue : value ≠ .null) :
    ¬ Option.Rel Json.Same slot.blank? (some value) := by
  rw [Slot.blank?]
  split_ifs
  · exact Option.not_rel_none_some
  · rw [Option.rel_some_some]
    exact fun h => hvalue h.eq_null

lemma Slot.not_blank?_rel (slot : Slot) (hvalue : value ≠ .null) :
    ¬ Option.Rel Json.Same (some value) slot.blank? := by
  rw [Slot.blank?]
  split_ifs
  · exact Option.not_rel_some_none
  · rw [Option.rel_some_some]
    exact fun h => hvalue h.eq_null_of_right

/-- Lists whose members are printed alike, one by one. -/
lemma eq_of_same_array {nodes nodes' : List Node}
    (hnodes : ∀ child ∈ nodes, ∀ child' ∈ nodes', child.toJson.Same child'.toJson → child = child')
    (h : (Json.array (nodes.reverse.map Node.toJson)).Same
      (.array (nodes'.reverse.map Node.toJson))) : nodes = nodes' := by
  rw [Json.Same.array_iff, List.map_reverse, List.map_reverse, List.forall₂_reverse_iff] at h
  induction nodes generalizing nodes' with
  | nil => cases nodes' with
    | nil => rfl
    | cons child' nodes' => cases h
  | cons child nodes ih =>
    cases nodes' with
    | nil => cases h
    | cons child' nodes' =>
      rw [List.map_cons, List.map_cons, List.forall₂_cons] at h
      rw [hnodes child List.mem_cons_self child' List.mem_cons_self h.1,
        ih (fun c hc c' hc' => hnodes c (List.mem_cons_of_mem _ hc) c' (List.mem_cons_of_mem _ hc'))
          h.2]

/-- What is printed for a slot tells the cell, as far as it tells the records in it. -/
theorem Slot.eq_of_rel_json? (hcell : slot.content.Admits cell) (hcell' : slot.content.Admits cell')
    (hnodes : ∀ child ∈ cell.nodes, ∀ child' ∈ cell'.nodes, child.shape = child'.shape →
      child.toJson.Same child'.toJson → child = child')
    (h : Option.Rel Json.Same (slot.json? cell) (slot.json? cell')) : cell = cell' := by
  obtain ⟨key, names, content, isOmitted⟩ := slot
  cases hcell with
  | noLeaf kind =>
    cases hcell' with
    | noLeaf => rfl
    | leaf hread' => exact absurd h (not_rel_blank? _ (scalarJson_ne_null _))
  | leaf hread =>
    cases hcell' with
    | noLeaf => exact absurd h (not_blank?_rel _ (scalarJson_ne_null _))
    | leaf hread' => rw [eq_of_same_read hread hread' (Option.rel_some_some.1 h)]
  | flag b =>
    cases hcell' with
    | flag b' =>
      have hjson := eq_of_same_scalarJson (Option.rel_some_some.1 h)
      rw [Json.boolean.inj hjson]
  | noRecord entity =>
    cases hcell' with
    | noRecord => rfl
    | record hshape' => exact absurd h (not_rel_blank? _ (Node.toJson_ne_null _))
  | record hshape =>
    cases hcell' with
    | noRecord => exact absurd h (not_blank?_rel _ (Node.toJson_ne_null _))
    | record hshape' =>
      rw [hnodes _ List.mem_cons_self _ List.mem_cons_self (hshape.trans hshape'.symm)
        (Option.rel_some_some.1 h)]
  | list hshape =>
    cases hcell' with
    | list hshape' =>
      rw [hnodes _ List.mem_cons_self _ List.mem_cons_self (hshape.trans hshape'.symm)
        (Option.rel_some_some.1 h)]
  | members hshapes =>
    cases hcell' with
    | members hshapes' =>
      refine congrArg Cell.records (eq_of_same_array ?_ (Option.rel_some_some.1 h))
      intro child hchild child' hchild' hsame
      exact hnodes child hchild child' hchild'
        ((hshapes child hchild).trans (hshapes' child' hchild').symm) hsame

/-! ### Leaves that fill no slot -/

lemma lookup_map_text (pairs : List (String × String)) (name : String) :
    (pairs.map fun p => (p.1, Json.text p.2)).lookup name = (pairs.lookup name).map .text := by
  induction pairs with
  | nil => rfl
  | cons p pairs ih =>
    rw [List.map_cons, List.lookup_cons, List.lookup_cons, ih]
    cases name == p.1 <;> rfl

/-- A map is told by the object of its pairs. -/
lemma eq_of_same_ofPairs {m m' : TextMap}
    (h : (Json.ofPairs m.entries).Same (.ofPairs m'.entries)) : m = m' := by
  refine TextMap.ext_get? fun name t => ?_
  have hrel := Json.Same.object_iff.1 h name
  rw [lookup_map_text, lookup_map_text] at hrel
  rw [TextMap.get?, TextMap.get?]
  cases hm : m.entries.lookup name with
  | none =>
    cases hm' : m'.entries.lookup name with
    | none => rfl
    | some t' =>
      rw [hm, hm'] at hrel
      cases hrel
  | some s =>
    cases hm' : m'.entries.lookup name with
    | none =>
      rw [hm, hm'] at hrel
      cases hrel
    | some t' =>
      rw [hm, hm'] at hrel
      rw [Json.Same.text_iff.1 (Option.rel_some_some.1 hrel)]

/-- What is printed for the leaves that fill no slot tells them. -/
theorem Leftovers.eq_of_rel_json? {key : String} {isOmitted : Bool} {m m' : TextMap}
    (h : Option.Rel Json.Same (Leftovers.json? (.kept key isOmitted) m)
      (Leftovers.json? (.kept key isOmitted) m')) : m = m' := by
  rw [Leftovers.json?, Leftovers.json?] at h
  split_ifs at h with hleft hleft' hleft'
  · rw [TextMap.eq_empty_of_isEmpty (Bool.and_eq_true_iff.1 hleft).2,
      TextMap.eq_empty_of_isEmpty (Bool.and_eq_true_iff.1 hleft').2]
  · cases h
  · cases h
  · exact eq_of_same_ofPairs (Option.rel_some_some.1 h)

/-! ### Records -/

namespace Node

variable {i : Nat} {marker : String} {entity : Entity}

/-- What is printed for the only slot of a list is what is printed for the list. -/
lemma Fits.json?_of_collector (h : node.Fits) (hshape : node.shape = .collector marker entity)
    (hslot : node.shape.slots[i]? = some slot) (hcell : node.cells[i]? = some cell) :
    slot.json? cell = some node.toJson := by
  obtain ⟨shape, cells, unknown⟩ := node
  cases hshape
  have hadmits := h.admits hslot hcell
  obtain ⟨only, hcells⟩ := List.length_eq_one_iff.1 h.isComplete
  subst hcells
  cases i with
  | succ i => cases hcell
  | zero =>
    cases hslot
    cases hcell
    cases hadmits with
    | members hnodes =>
      rw [toJson_collector]
      rfl

/-- Records of a shape that are printed alike are printed alike slot by slot. -/
lemma Fits.rel_json?_of_same (h : node.Fits) (h' : node'.Fits) (hshape : node.shape = node'.shape)
    (hsame : node.toJson.Same node'.toJson) (hslot : node.shape.slots[i]? = some slot)
    (hcell : node.cells[i]? = some cell) (hcell' : node'.cells[i]? = some cell') :
    Option.Rel Json.Same (slot.json? cell) (slot.json? cell') := by
  have hslot' : node'.shape.slots[i]? = some slot := hshape ▸ hslot
  by_cases hcollector : ∃ marker entity, node.shape = .collector marker entity
  · obtain ⟨marker, entity, hlist⟩ := hcollector
    rw [h.json?_of_collector hlist hslot hcell,
      h'.json?_of_collector (hshape ▸ hlist) hslot' hcell']
    exact .some hsame
  · rw [toJson_eq_object (by simpa using hcollector),
      toJson_eq_object (by simpa [hshape] using hcollector)] at hsame
    rw [← lookup_fields hslot hcell, ← lookup_fields hslot' hcell']
    exact Json.Same.object_iff.1 hsame slot.key

/-- Records of a shape that are printed alike keep the same leaves by name. -/
lemma Fits.unknown_eq_of_same (h : node.Fits) (h' : node'.Fits)
    (hshape : node.shape = node'.shape) (hsame : node.toJson.Same node'.toJson) :
    node.unknown = node'.unknown := by
  cases hleft : node.shape.leftovers with
  | dropped => rw [h.unknown hleft, h'.unknown (hshape ▸ hleft)]
  | kept key isOmitted =>
    have hleft' : node'.shape.leftovers = .kept key isOmitted := hshape ▸ hleft
    -- lists forget such leaves
    have hobject : ∀ marker entity, node.shape ≠ .collector marker entity := by
      intro marker entity hlist
      rw [hlist] at hleft
      cases hleft
    rw [toJson_eq_object hobject, toJson_eq_object (hshape ▸ hobject)] at hsame
    have hrel := Json.Same.object_iff.1 hsame key
    rw [lookup_leftovers (by rw [hleft]; rfl), lookup_leftovers (by rw [hleft']; rfl), hleft,
      hleft'] at hrel
    exact Leftovers.eq_of_rel_json? hrel

/-- Records of a shape that are printed alike are the same. -/
theorem eq_of_same (h : node.All Fits) (h' : node'.All Fits) (hshape : node.shape = node'.shape)
    (hsame : node.toJson.Same node'.toJson) : node = node' := by
  induction node using Node.induction generalizing node' with
  | step node ih =>
    obtain ⟨hfits, hinside⟩ := all_iff.1 h
    obtain ⟨hfits', hinside'⟩ := all_iff.1 h'
    refine hfits.isComplete.eq_of_cells hfits'.isComplete hshape ?_
      (hfits.unknown_eq_of_same hfits' hshape hsame)
    intro i slot hslot
    have hslot' : node'.shape.slots[i]? = some slot := hshape ▸ hslot
    obtain ⟨cell, hcell⟩ := hfits.isComplete.exists_cell_of_slot hslot
    obtain ⟨cell', hcell'⟩ := hfits'.isComplete.exists_cell_of_slot hslot'
    have heq : cell = cell' := by
      refine Slot.eq_of_rel_json? (hfits.admits hslot hcell) (hfits'.admits hslot' hcell') ?_
        (hfits.rel_json?_of_same hfits' hshape hsame hslot hcell hcell')
      intro child hchild child' hchild' hshapes hsames
      have hmem := List.mem_of_getElem? hcell
      exact ih cell hmem child hchild (hinside cell hmem child hchild)
        (hinside' cell' (List.mem_of_getElem? hcell') child' hchild') hshapes hsames
    rw [hcell, hcell', heq]

end Node

/-! ### Responses -/

namespace Answer

/-- A response is what a document was decoded into that was fresh before. -/
lemma reached_of_decode {settings : Settings} {action : Action} {bytes : List UInt8}
    (h : decode settings action bytes = .ok node) : Node.Reached (ofAction action).shape node := by
  rw [decode] at h
  cases hdecode : Decode.decode settings bytes (Node.fresh (ofAction action).shape) with
  | ok _ root =>
    rw [hdecode] at h
    cases h
    rw [← leave_of_eq_ok hdecode]
    exact .decode settings bytes .fresh
  | error e root =>
    rw [hdecode] at h
    cases h

/-- Two responses to one action that are printed alike are the same, the scales of their decimals
included, whatever documents they come from; and no record is printed with a key twice in one
object. -/
theorem toJson_faithful (action : Action) (settings settings' : Settings)
    (bytes bytes' : List UInt8) :
    (∀ node node' : Node, decode settings action bytes = .ok node →
      decode settings' action bytes' = .ok node' → node.toJson.Same node'.toJson → node = node') ∧
    ∀ node : Node, node.toJson.HasDistinctNames := by
  refine ⟨?_, Node.hasDistinctNames_toJson⟩
  intro node node' h h' hsame
  have hreached := reached_of_decode h
  have hreached' := reached_of_decode h'
  exact Node.eq_of_same (Node.persists_fits.all_of_reached hreached)
    (Node.persists_fits.all_of_reached hreached')
    (hreached.shape_eq.trans hreached'.shape_eq.symm) hsame

/-- A listing of a tariff with one instance. -/
def sampleTariffs (ccus : Numeral.Decimal) : Node :=
  ⟨.page itemMarker .tariff,
    [.records [⟨.entity .tariff,
      [.value (some (.text "t")), .value none, .value none,
        .records [Node.collectorOf itemMarker .instanceOffering
          [⟨.entity .instanceOffering,
            [.value none, .value none, .value (some (.decimal ccus)), .value none,
              .records [Node.emptyCollector itemMarker .service]],
            .ofList [("a", "1"), ("b", "")]⟩]],
        .records [Node.emptyCollector itemMarker .instanceTypeOffering],
        .records [Node.emptyCollector itemMarker .volumeOffering],
        .records [Node.emptyCollector itemMarker .service],
        .records [Node.emptyCollector itemMarker .systemOffering],
        .records [Node.emptyCollector itemMarker .hostOffering]], ∅⟩],
      .value none, .value none, .value none], ∅⟩

/-- A document of such a listing. -/
def sampleOffer : String :=
  "<r><item><name>t</name><instances><item><a>1</a><b/><ccus>1.50</ccus></item></instances>"
    ++ "</item></r>"

/-- The same with the leaves in another order and in a wrapper. -/
def sampleOfferWrapped : String :=
  "<r><x><item><instances><item><ccus>1.50</ccus><b/><a>1</a></item></instances><name>t</name>"
    ++ "</item></x></r>"

/-- The same with a shorter fraction. -/
def sampleOfferShort : String :=
  "<r><item><name>t</name><instances><item><a>1</a><b/><ccus>1.5</ccus></item></instances>"
    ++ "</item></r>"

theorem toJson_faithful_sample : ∃ node node' node'' : Node,
    decode ⟨true, none⟩ .describeTariffs (Utf8.encode sampleOffer) = .ok node ∧
    decode ⟨false, some 6⟩ .describeTariffs (Utf8.encode sampleOfferWrapped) = .ok node' ∧
    decode ⟨true, none⟩ .describeTariffs (Utf8.encode sampleOfferShort) = .ok node'' ∧
    node.toJson.Same node'.toJson ∧ node = node' ∧ ¬ node.toJson.Same node''.toJson := by
  have h : decode ⟨true, none⟩ .describeTariffs (Utf8.encode sampleOffer)
      = .ok (sampleTariffs ⟨150, 2, by decide, by decide⟩) := by cbv
  have h' : decode ⟨false, some 6⟩ .describeTariffs (Utf8.encode sampleOfferWrapped)
      = .ok (sampleTariffs ⟨150, 2, by decide, by decide⟩) := by cbv
  have h'' : decode ⟨true, none⟩ .describeTariffs (Utf8.encode sampleOfferShort)
      = .ok (sampleTariffs ⟨15, 1, by decide, by decide⟩) := by cbv
  have hne : sampleTariffs ⟨150, 2, by decide, by decide⟩
      ≠ sampleTariffs ⟨15, 1, by decide, by decide⟩ := by
    simp [sampleTariffs, Node.collectorOf]
  refine ⟨_, _, _, h, h', h'', .refl _, ?_, ?_⟩
  · exact (toJson_faithful .describeTariffs _ _ _ _).1 _ _ h h' (.refl _)
  · intro hsame
    exact hne ((toJson_faithful .describeTariffs _ _ _ _).1 _ _ h h'' hsame)

end Answer

end CloudCodec.Response
