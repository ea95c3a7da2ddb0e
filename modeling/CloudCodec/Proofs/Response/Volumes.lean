/-
# Volumes inside a volume

The record of an exported volume claims no element, not even a list of volumes.  So such a list is
not set aside: whatever stands below a volume, the leaves are taken in by the record of the volume
as if they stood in it directly, and of the leaves of one name the last one stays (`read_volume`).

Put an element among the child elements of a volume in the document of an export
(`VolumeInsertion`).  The two documents then differ in one element in scope of the list of volumes,
and this list in one element in scope of the export (`Swapped`), so what the export holds differs
exactly if the records of the two volumes do, unless a later list takes the place of this one
(`decode_volumeInsertion`).

All leaves of an export are texts.  So nothing in it is ever refused (`IsTextual`), and what a fresh
record reads is a function of the elements (`Node.read`).
-/
import CloudCodec.Proofs.Response.Completeness
import CloudCodec.Proofs.Response.Listing

namespace CloudCodec.Response

open Decode Xml Node

/-! ### Records of texts -/

/-- Records of the shape keep their leaves as texts, and so do the records inside. -/
inductive Shape.IsTextual : Shape → Prop
  | intro {shape : Shape}
      (leaf : ∀ {name : String} {i : Nat} {kind : Kind},
        shape.leafSlot? name = some (i, kind) → kind = .text)
      (inside : ∀ {name : String} {i : Nat} {content : Content} {inner : Shape},
        shape.claimingSlot? name = some (i, content) → content.shape? = some inner →
        IsTextual inner) : IsTextual shape

/-- What a fresh record of a shape is after some elements. -/
def Node.read (shape : Shape) (forest : List Element) : Node := leave (readAll forest) (fresh shape)

namespace Shape.IsTextual

variable {shape : Shape} {node : Node}

/-- It is enough that every slot is filled by leaves that are kept as texts, or by no element, or by
records that are of such a shape themselves. -/
lemma of_slots (h : ∀ slot ∈ shape.slots, slot.content = .leaf .text ∨ slot.names = [] ∨
    ∃ inner : Shape, slot.content.shape? = some inner ∧ inner.IsTextual) : shape.IsTextual := by
  constructor
  · intro name i kind hslot
    obtain ⟨slot, hi, hkind, hname⟩ := Shape.leafSlot?_eq_some_iff.1 hslot
    rcases h slot (List.mem_of_getElem? hi) with hcontent | hnames | ⟨inner, hinner, -⟩
    · rw [hcontent] at hkind
      exact (Option.some.inj hkind).symm
    · rw [hnames] at hname
      cases hname
    · cases (shape?_eq_none_iff.2 ⟨kind, hkind⟩).symm.trans hinner
  · intro name i content inner hslot hinner
    obtain ⟨slot, hi, rfl, hclaiming, hname⟩ := Shape.claimingSlot?_eq_some_iff.1 hslot
    rcases h slot (List.mem_of_getElem? hi) with hcontent | hnames | ⟨inner', hinner', htextual⟩
    · rw [hcontent] at hclaiming
      cases hclaiming
    · rw [hnames] at hname
      cases hname
    · cases hinner.symm.trans hinner'
      exact htextual

lemma exists_takeLeaf (h : shape.IsTextual) (hshape : node.shape = shape) (name text : String) :
    ∃ node', Receiver.takeLeaf name text node = .ok () node' := by
  subst hshape
  cases hslot : node.shape.leafSlot? name with
  | none => exact ⟨_, takeLeaf_of_none hslot⟩
  | some slot =>
    obtain ⟨i, kind⟩ := slot
    cases h with
    | intro leaf _ =>
      obtain rfl := leaf hslot
      exact ⟨_, takeLeaf_of_ok hslot rfl⟩

mutual

/-- An element is never refused. -/
theorem exists_readElement {shape : Shape} (h : shape.IsTextual) (e : Element) {node : Node}
    (hnode : node.IsComplete) (hlayout : node.layout = (fresh shape).layout) :
    ∃ node', readElement e node = .ok () node' := by
  have hshape : node.shape = shape := congrArg Layout.shape hlayout
  rcases e with ⟨name, attributes, children, text⟩
  cases hslot : node.shape.claimingSlot? name with
  | none =>
    have hclaim : Receiver.claim node name attributes = (false, node) := claim_of_none hslot
    by_cases hchildren : children = []
    · subst hchildren
      rw [readElement_leaf hclaim]
      exact h.exists_takeLeaf hshape name text
    · rw [readElement_of_unclaimed hclaim hchildren]
      exact exists_readAll h children hnode hlayout
  | some slot =>
    obtain ⟨i, content⟩ := slot
    have hclaim : Receiver.claim node name attributes
        = (true, node.modifyCell i (openedCell content)) := claim_of_some hslot
    by_cases hchildren : children = []
    · subst hchildren
      exact ⟨_, readElement_of_claimed_nil hclaim⟩
    · obtain ⟨inner, hinner⟩ := exists_openedShape?_of_claimingSlot hslot (node.layout.marker i)
      have htextual : inner.IsTextual := by
        rw [hlayout, marker_layout_fresh] at hinner
        cases h with
        | intro _ inside => exact inside (hshape ▸ hslot) hinner
      obtain ⟨child, hchild⟩ := exists_readAll htextual children (isComplete_fresh inner) rfl
      rw [readElement_of_claimed hclaim hchildren (hnode.child?_of_claimingSlot hslot hinner),
        hchild]
      exact ⟨_, rfl⟩

/-- Elements are never refused. -/
theorem exists_readAll {shape : Shape} (h : shape.IsTextual) (es : List Element) {node : Node}
    (hnode : node.IsComplete) (hlayout : node.layout = (fresh shape).layout) :
    ∃ node', readAll es node = .ok () node' := by
  cases es with
  | nil => exact ⟨node, rfl⟩
  | cons e rest =>
    obtain ⟨mid, hmid⟩ := exists_readElement h e hnode hlayout
    have hevolves := evolves_readElement e node
    rw [leave_of_eq_ok hmid] at hevolves
    rw [readAll_cons, hmid]
    exact exists_readAll h rest (hnode.evolves hevolves)
      ((layout_eq_of_evolves hevolves).trans hlayout)

end

lemma readAll_eq (h : shape.IsTextual) (forest : List Element) :
    readAll forest (fresh shape) = .ok () (Node.read shape forest) := by
  obtain ⟨node, hnode⟩ := h.exists_readAll forest (isComplete_fresh shape) rfl
  rw [Node.read, leave_of_eq_ok hnode, hnode]

lemma fills (h : shape.IsTextual) (forest : List Element) :
    Fills shape (leaves shape.claims forest) (claimed shape.claims forest)
      (Node.read shape forest) :=
  fills_of_readAll (h.readAll_eq forest)

end Shape.IsTextual

/-! ### What is told by the elements that fill a record -/

section Fills

variable {shape inner : Shape} {ls ls' cs cs' : List Element} {node node' : Node} {i : Nat}
  {slot : Slot}

lemma Fills.cell_text (h : Fills shape ls cs node) (hslot : shape.slots[i]? = some slot)
    (hcontent : slot.content = .leaf .text) :
    node.cells[i]? = some (.value ((lastText? slot.names ls none).map .text)) := by
  have hlast := h.value hslot (by rw [hcontent]; rfl)
  rw [lastText?, Option.or_none]
  cases hnamed : (named slot.names ls).getLast? with
  | none =>
    rw [hnamed, Slot.HoldsLast, hcontent] at hlast
    exact hlast
  | some e =>
    rw [hnamed] at hlast
    obtain ⟨value, hread, hcell⟩ := hlast
    cases hread
    exact hcell

lemma Fills.cell_records (h : Fills shape ls cs node) (hslot : shape.slots[i]? = some slot)
    (hinner : slot.content.shape? = some inner) (htextual : inner.IsTextual) :
    node.cells[i]? = some (.records
      ((slot.content.forests (named slot.names cs)).map (Node.read inner)).reverse) := by
  obtain ⟨nodes, hcell, hnodes⟩ := h.records hslot hinner
  have hread : List.Forall₂ (fun forest child => Node.read inner forest = child)
      (slot.content.forests (named slot.names cs)) nodes.reverse := by
    refine hnodes.imp fun forest child hchild => ?_
    rw [dispatch_node, htextual.readAll_eq] at hchild
    cases hchild
    rfl
  rw [← List.forall₂_map_left_iff, List.forall₂_eq_eq_eq] at hread
  rw [hread, List.reverse_reverse, hcell]

/-- Two records of a shape that are filled agree if what is in each of their slots does, and what
they keep by name. -/
lemma Fills.eq_of_cells (h : Fills shape ls cs node) (h' : Fills shape ls' cs' node')
    (hcells : ∀ {i : Nat} {slot : Slot}, shape.slots[i]? = some slot →
      node.cells[i]? = node'.cells[i]?)
    (hunknown : ∀ name, node.unknown.get? name = node'.unknown.get? name) : node = node' := by
  obtain rfl := h.shape_eq
  have hkept : node.unknown = node'.unknown := TextMap.ext_get? fun n t => by rw [hunknown n]
  have hcomplete' : node'.IsComplete := by
    rw [Node.IsComplete, h'.length_cells, h'.shape_eq]
  exact IsComplete.eq_of_cells h.length_cells hcomplete' h'.shape_eq.symm hcells hkept

end Fills

lemma named_nil (es : List Element) : named [] es = [] := by simp [named]

lemma named_claimed (name : String) (forest : List Element) :
    named [name] (claimed (· == name) forest) = claimed (· == name) forest := by
  refine List.filter_eq_self.2 fun e he => ?_
  simpa using (List.mem_filter.1 he).2

lemma ne_itemMarker_of_keeps {shape : Shape} {name : String} (h : shape.keeps name = true) :
    name ≠ itemMarker := by
  rw [Shape.keeps] at h
  split at h
  · cases h
  · exact bne_iff_ne.1 (Bool.and_eq_true_iff.1 h).1

/-! ### Volumes -/

/-- The shape of the record of an export. -/
def exportShape : Shape := .entity .instanceExport

/-- The shape of a list of exported volumes. -/
def volumeListShape : Shape := .collector itemMarker .volumeExport

/-- The shape of the record of an exported volume. -/
def volumeShape : Shape := .entity .volumeExport

/-- The leaves of some elements, however deep. -/
def allLeaves (forest : List Element) : List Element := leaves (fun _ => false) forest

lemma volumeShape_slots {slot : Slot} (h : slot ∈ volumeShape.slots) :
    (∃ name, slot.names = [name] ∧ name ≠ itemMarker ∧ slot.content = .leaf .text) ∨
      slot.names = [] ∧ slot.content = .list .volumeExport := by
  revert slot
  simp [volumeShape, Shape.slots, Entity.slots, exportTexts, Slot.text, Slot.textAs, itemMarker]

/-- A volume claims no element. -/
lemma claims_volumeShape : volumeShape.claims = fun _ => false := by
  funext name
  rw [Bool.eq_false_iff, Ne, claims_iff_exists_slot]
  rintro ⟨slot, hslot, hclaiming, hname⟩
  rcases volumeShape_slots hslot with ⟨_, -, -, hcontent⟩ | ⟨hnames, -⟩
  · rw [hcontent] at hclaiming
    cases hclaiming
  · rw [hnames] at hname
    cases hname

lemma isTextual_volumeShape : volumeShape.IsTextual := by
  refine .of_slots fun slot hslot => ?_
  rcases volumeShape_slots hslot with ⟨_, -, -, hcontent⟩ | ⟨hnames, -⟩
  · exact .inl hcontent
  · exact .inr (.inl hnames)

lemma isTextual_volumeListShape : volumeListShape.IsTextual := by
  refine .of_slots fun slot hslot => ?_
  obtain rfl := List.mem_singleton.1 hslot
  exact .inr (.inr ⟨volumeShape, rfl, isTextual_volumeShape⟩)

/-- Two volumes have the same record exactly if for every name, apart from that of the marker of
members, the last of the leaves below them has the same text. -/
theorem read_volume (a b : List Element) :
    Node.read volumeShape a = Node.read volumeShape b ↔
      ∀ name, name ≠ itemMarker →
        lastText? [name] (allLeaves a) none = lastText? [name] (allLeaves b) none := by
  have ha := isTextual_volumeShape.fills a
  have hb := isTextual_volumeShape.fills b
  rw [claims_volumeShape] at ha hb
  constructor
  · intro heq name hname
    cases hslot : volumeShape.leafSlot? name with
    | some found =>
      obtain ⟨i, kind⟩ := found
      obtain ⟨slot, hi, hkind, hmem⟩ := Shape.leafSlot?_eq_some_iff.1 hslot
      rcases volumeShape_slots (List.mem_of_getElem? hi) with
        ⟨_, hnames, -, hcontent⟩ | ⟨hnames, -⟩
      · rw [hnames, List.mem_singleton] at hmem
        have hcell := ha.cell_text hi hcontent
        rw [heq, hb.cell_text hi hcontent, hnames, ← hmem] at hcell
        have htext := (Cell.value.inj (Option.some.inj hcell)).symm
        exact Option.map_injective (fun _ _ => Scalar.text.inj) htext
      · rw [hnames] at hmem
        cases hmem
    | none =>
      have hkeeps : volumeShape.keeps name = true := by
        rw [Shape.keeps, hslot]
        simpa [volumeShape, Shape.leftovers] using hname
      have hunknown := ha.unknown name
      rw [heq, hb.unknown, hkeeps, if_pos rfl] at hunknown
      rw [lastText?, lastText?, Option.or_none, Option.or_none]
      exact hunknown.symm
  · intro hlast
    refine ha.eq_of_cells hb ?_ ?_
    · intro i slot hi
      rcases volumeShape_slots (List.mem_of_getElem? hi) with
        ⟨name, hnames, hname, hcontent⟩ | ⟨hnames, hcontent⟩
      · have htext := hlast name hname
        rw [allLeaves, allLeaves] at htext
        rw [ha.cell_text hi hcontent, hb.cell_text hi hcontent, hnames, htext]
      · have hinner : slot.content.shape? = some volumeListShape := by
          rw [hcontent]
          rfl
        rw [ha.cell_records hi hinner isTextual_volumeListShape,
          hb.cell_records hi hinner isTextual_volumeListShape, hnames, named_nil, named_nil]
    · intro name
      rw [ha.unknown, hb.unknown]
      split_ifs with hkeeps
      · have htext := hlast name (ne_itemMarker_of_keeps hkeeps)
        rwa [lastText?, lastText?, Option.or_none, Option.or_none] at htext
      · rfl

/-! ### Lists of volumes -/

lemma claims_volumeListShape : volumeListShape.claims = (· == itemMarker) := by
  funext name
  by_cases hname : name = itemMarker <;>
    simp [volumeListShape, Shape.claims, claimingSlot?_collector, hname]

/-- A list of volumes is made of the records of its marked elements. -/
lemma read_volumeList (forest : List Element) :
    Node.read volumeListShape forest
      = collectorOf itemMarker .volumeExport
          ((claimed (· == itemMarker) forest).map fun e => Node.read volumeShape e.children) := by
  have h := isTextual_volumeListShape.fills forest
  rw [claims_volumeListShape] at h
  have hcells := h.cell_records (i := 0) rfl rfl isTextual_volumeShape
  obtain ⟨cell, hcell⟩ := List.length_eq_one_iff.1 h.length_cells
  rw [named_claimed, hcell] at hcells
  have hunknown : (Node.read volumeListShape forest).unknown = ∅ := by
    refine TextMap.ext_get? fun n t => ?_
    rw [h.unknown]
    rfl
  refine Node.eq_of_parts h.shape_eq ?_ hunknown
  rw [hcell, Option.some.inj hcells, Content.forests, List.map_map]
  rfl

/-! ### Exports -/

/-- The name of the element around a list of volumes. -/
def volumesName : String := "volumeExportDetails"

/-- What stands in the last list of volumes in scope. -/
def lastVolumes (forest : List Element) : List Element :=
  ((claimed (· == volumesName) forest).getLast?.map Element.children).getD []

lemma exportShape_slots {slot : Slot} (h : slot ∈ exportShape.slots) :
    slot.content = .leaf .text ∨
      slot.names = [volumesName] ∧ slot.content = .list .volumeExport := by
  revert slot
  simp [exportShape, Shape.slots, Entity.slots, exportTexts, Slot.text, Slot.textAs, Slot.list,
    volumesName]

lemma claims_exportShape : exportShape.claims = (· == volumesName) := by
  funext name
  rw [Bool.eq_iff_iff, claims_iff_exists_slot, beq_iff_eq]
  constructor
  · rintro ⟨slot, hslot, hclaiming, hname⟩
    rcases exportShape_slots hslot with hcontent | ⟨hnames, -⟩
    · rw [hcontent] at hclaiming
      cases hclaiming
    · rw [hnames] at hname
      exact List.mem_singleton.1 hname
  · rintro rfl
    exact ⟨.list volumesName .volumeExport, by decide, rfl, List.mem_singleton_self _⟩

lemma isTextual_exportShape : exportShape.IsTextual := by
  refine .of_slots fun slot hslot => ?_
  rcases exportShape_slots hslot with hcontent | ⟨-, hcontent⟩
  · exact .inl hcontent
  · exact .inr (.inr ⟨volumeListShape, by rw [hcontent]; rfl, isTextual_volumeListShape⟩)

/-- Exports with the same leaves in scope have the same record exactly if their last lists of
volumes do. -/
theorem read_export {a b : List Element}
    (hleaves : leaves (· == volumesName) a = leaves (· == volumesName) b) :
    Node.read exportShape a = Node.read exportShape b ↔
      Node.read volumeListShape (lastVolumes a) = Node.read volumeListShape (lastVolumes b) := by
  have ha := isTextual_exportShape.fills a
  have hb := isTextual_exportShape.fills b
  rw [claims_exportShape] at ha hb
  have hlist : ∀ {forest : List Element} {node : Node} {ls : List Element} {i : Nat} {slot : Slot},
      Fills exportShape ls (claimed (· == volumesName) forest) node →
      exportShape.slots[i]? = some slot → slot.names = [volumesName] →
      slot.content = .list .volumeExport →
      node.cells[i]? = some (.records [Node.read volumeListShape (lastVolumes forest)]) := by
    intro forest node ls i slot hfills hi hnames hcontent
    have hinner : slot.content.shape? = some volumeListShape := by
      rw [hcontent]
      rfl
    rw [hfills.cell_records hi hinner isTextual_volumeListShape, hnames, named_claimed, hcontent]
    rfl
  constructor
  · intro heq
    have hcell := hlist (i := 10) ha rfl rfl rfl
    rw [heq, hlist (i := 10) hb rfl rfl rfl] at hcell
    exact (List.singleton_inj.1 (Cell.records.inj (Option.some.inj hcell))).symm
  · intro heq
    refine ha.eq_of_cells hb ?_ ?_
    · intro i slot hi
      rcases exportShape_slots (List.mem_of_getElem? hi) with hcontent | ⟨hnames, hcontent⟩
      · rw [ha.cell_text hi hcontent, hb.cell_text hi hcontent, hleaves]
      · rw [hlist ha hi hnames hcontent, hlist hb hi hnames hcontent, heq]
    · intro name
      rw [ha.unknown, hb.unknown, hleaves]

/-! ### Something more inside a volume -/

/-- Two documents of an export that differ in one volume of one of its lists of volumes: in the
second one an element stands among the child elements of the volume. -/
structure VolumeInsertion (e e' : Element) where
  /-- The elements around the list, without and with the element in it. -/
  wrapper : Element
  wrapper' : Element
  /-- The volume, without and with the element. -/
  volume : Element
  volume' : Element
  /-- The element. -/
  inserted : Element
  /-- The child elements of the volume before and behind it. -/
  before : List Element
  after : List Element
  /-- What stands behind the list. -/
  later : List Element
  /-- What stands behind the volume in the list. -/
  laterVolumes : List Element
  wrapper_name : wrapper.name = volumesName
  wrapper'_name : wrapper'.name = volumesName
  wrapper_place : Swapped (· == volumesName) wrapper wrapper' [e] [e'] later
  volume_name : volume.name = itemMarker
  volume'_name : volume'.name = itemMarker
  volume_place : Swapped (· == itemMarker) volume volume' wrapper.children wrapper'.children
    laterVolumes
  children : volume.children = before ++ after
  children' : volume'.children = before ++ inserted :: after

namespace VolumeInsertion

variable {e e' : Element}

/-- The lists of volumes agree exactly if the volume does. -/
lemma read_lists (i : VolumeInsertion e e') :
    Node.read volumeListShape i.wrapper'.children = Node.read volumeListShape i.wrapper.children ↔
      ∀ name, name ≠ itemMarker →
        lastText? [name] (allLeaves (i.before ++ i.inserted :: i.after)) none
          = lastText? [name] (allLeaves (i.before ++ i.after)) none := by
  obtain ⟨-, front, hvolumes, hvolumes'⟩ :=
    i.volume_place.exists_claimed (by simp [i.volume_name]) (by simp [i.volume'_name])
  rw [← i.children, ← i.children', ← read_volume, read_volumeList, read_volumeList, hvolumes,
    hvolumes']
  simp [collectorOf]

/-- The exports agree exactly if the list of volumes does or a later list takes its place. -/
lemma read_exports (i : VolumeInsertion e e') :
    Node.read exportShape [e'] = Node.read exportShape [e] ↔
      claimed (· == volumesName) i.later ≠ [] ∨
        Node.read volumeListShape i.wrapper'.children
          = Node.read volumeListShape i.wrapper.children := by
  obtain ⟨hleaves, front, hlists, hlists'⟩ :=
    i.wrapper_place.exists_claimed (by simp [i.wrapper_name]) (by simp [i.wrapper'_name])
  rw [read_export hleaves.symm, lastVolumes, lastVolumes, hlists, hlists']
  rcases List.eq_nil_or_concat' (claimed (· == volumesName) i.later) with hlater | ⟨_, _, hlater⟩
  · simp [hlater]
  · simp [hlater, List.getLast?_append, List.getLast?_cons]

end VolumeInsertion

/-- A document is decoded into an export, whatever it says. -/
lemma decode_export {trim : Bool} {bytes : List UInt8} {e : Element}
    (h : Event.ofDocument trim bytes = .ok e.events) :
    decode ⟨trim, none⟩ bytes (fresh exportShape) = .ok () (Node.read exportShape [e]) := by
  simp only [decode, h]
  rw [dispatch_eq_readElement _ (handsBack _), ← readAll_singleton,
    isTextual_exportShape.readAll_eq]

/-- Put an element, such as a list of volumes, among the child elements of a volume in the document
of an export.  Both documents are decoded, and into the same export exactly if a later list of
volumes takes the place of the one with this volume, or if for every name, apart from that of the
marker of members, the last of the leaves below the volume has the same text with the element as
without. -/
theorem decode_volumeInsertion {e e' : Element} (i : VolumeInsertion e e') (trim : Bool)
    (bytes bytes' : List UInt8) (h : Event.ofDocument trim bytes = .ok e.events)
    (h' : Event.ofDocument trim bytes' = .ok e'.events) :
    ∃ task task', decode ⟨trim, none⟩ bytes (fresh (.entity .instanceExport)) = .ok () task ∧
      decode ⟨trim, none⟩ bytes' (fresh (.entity .instanceExport)) = .ok () task' ∧
      (task' = task ↔ claimed (· == volumesName) i.later ≠ [] ∨
        ∀ name, name ≠ itemMarker →
          lastText? [name] (allLeaves (i.before ++ i.inserted :: i.after)) none
            = lastText? [name] (allLeaves (i.before ++ i.after)) none) := by
  refine ⟨_, _, decode_export h, decode_export h', ?_⟩
  rw [i.read_exports, i.read_lists]

/-- The document of an export with one volume. -/
def sampleExport (volume : List Element) : Element :=
  ⟨"r", ∅, [⟨"volumeExportDetails", ∅, [⟨"item", ∅, volume, ""⟩], ""⟩], ""⟩

/-- The state of a volume. -/
def sampleState (state : String) : Element := ⟨"state", ∅, [], state⟩

/-- A list of one volume inside a volume. -/
def sampleNested : Element :=
  ⟨"volumeExportDetails", ∅, [⟨"item", ∅, [sampleState "b"], ""⟩], ""⟩

/-- An element in the volume of that document. -/
def sampleInsertion (inserted : Element) (before after : List Element) :
    VolumeInsertion (sampleExport (before ++ after))
      (sampleExport (before ++ inserted :: after)) where
  wrapper := ⟨"volumeExportDetails", ∅, [⟨"item", ∅, before ++ after, ""⟩], ""⟩
  wrapper' := ⟨"volumeExportDetails", ∅, [⟨"item", ∅, before ++ inserted :: after, ""⟩], ""⟩
  volume := ⟨"item", ∅, before ++ after, ""⟩
  volume' := ⟨"item", ∅, before ++ inserted :: after, ""⟩
  inserted := inserted
  before := before
  after := after
  later := []
  laterVolumes := []
  wrapper_name := rfl
  wrapper'_name := rfl
  wrapper_place := .inside [] rfl (.here [])
  volume_name := rfl
  volume'_name := rfl
  volume_place := .here []
  children := rfl
  children' := rfl

/-- A document of an export with one volume. -/
def sampleDocument (volume : String) : List UInt8 :=
  Utf8.encode ("<r><volumeExportDetails><item>" ++ volume ++ "</item></volumeExportDetails></r>")

/-- A list of one volume inside a volume. -/
def sampleList : String :=
  "<volumeExportDetails><item><state>b</state></item></volumeExportDetails>"

lemma ofDocument_sample : Event.ofDocument true (sampleDocument "<state>a</state>")
    = .ok (sampleExport [sampleState "a"]).events := by cbv

/-- Behind the state of a volume, the state in a nested list takes its place. -/
theorem nested_list_overwrites :
    ∃ i : VolumeInsertion (sampleExport [sampleState "a"])
        (sampleExport [sampleState "a", sampleNested]),
      i.inserted.name = volumesName ∧ i.before ++ i.after ≠ [] ∧
      Event.ofDocument true (sampleDocument "<state>a</state>")
        = .ok (sampleExport [sampleState "a"]).events ∧
      Event.ofDocument true (sampleDocument ("<state>a</state>" ++ sampleList))
        = .ok (sampleExport [sampleState "a", sampleNested]).events ∧
      decode ⟨true, none⟩ (sampleDocument ("<state>a</state>" ++ sampleList))
          (fresh (.entity .instanceExport))
        ≠ decode ⟨true, none⟩ (sampleDocument "<state>a</state>")
          (fresh (.entity .instanceExport)) := by
  have hnested : Event.ofDocument true (sampleDocument ("<state>a</state>" ++ sampleList))
      = .ok (sampleExport [sampleState "a", sampleNested]).events := by cbv
  refine ⟨sampleInsertion sampleNested [sampleState "a"] [], rfl, by simp [sampleInsertion],
    ofDocument_sample, hnested, ?_⟩
  intro heq
  have hboth := (decode_export hnested).symm.trans (heq.trans (decode_export ofDocument_sample))
  have hread := (EStateM.Result.ok.inj hboth).2
  rcases (sampleInsertion sampleNested [sampleState "a"] []).read_exports.1 hread with
    hlater | hlists
  · exact hlater rfl
  · have hlast := (sampleInsertion sampleNested [sampleState "a"] []).read_lists.1 hlists
    have hstate : some "b" = some "a" := hlast "state" (by decide)
    exact absurd hstate (by decide)

theorem decode_volumeInsertion_sample :
    (Event.ofDocument true (sampleDocument "<state>a</state>")
        = .ok (sampleExport [sampleState "a"]).events ∧
      Event.ofDocument true (sampleDocument (sampleList ++ "<state>a</state>"))
        = .ok (sampleExport [sampleNested, sampleState "a"]).events) ∧
    ∃ task, decode ⟨true, none⟩ (sampleDocument "<state>a</state>")
        (fresh (.entity .instanceExport)) = .ok () task ∧
      decode ⟨true, none⟩ (sampleDocument (sampleList ++ "<state>a</state>"))
        (fresh (.entity .instanceExport)) = .ok () task := by
  have hnested : Event.ofDocument true (sampleDocument (sampleList ++ "<state>a</state>"))
      = .ok (sampleExport [sampleNested, sampleState "a"]).events := by cbv
  obtain ⟨task, task', htask, htask', hiff⟩ := decode_volumeInsertion
    (sampleInsertion sampleNested [] [sampleState "a"]) true _ _ ofDocument_sample hnested
  have hsame : task' = task := by
    refine hiff.2 (.inr fun name _ => ?_)
    change lastText? [name] [sampleState "b", sampleState "a"] none
      = lastText? [name] [sampleState "a"] none
    by_cases hname : "state" = name <;> simp [lastText?, named, sampleState, hname]
  exact ⟨⟨ofDocument_sample, hnested⟩, task, htask, hsame ▸ htask'⟩

end CloudCodec.Response
