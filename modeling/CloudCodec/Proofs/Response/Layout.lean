/-
# The layout of a record

What a record takes in changes its cells and what it keeps by name, but never its shape, and never
the names by which its lists know their members: the wrapper of a list clears the list and leaves it
its marker.  Shape and markers together are the layout of the record, and the layout is all that a
record asks when it decides what to claim and what to put into a slot (`Layout.inside`).

Each offer keeps the layout, and so does whatever becomes of a record (`layout_eq_of_evolves`).
-/
import CloudCodec.Proofs.Response.Receiving
import CloudCodec.Proofs.Response.Slots

namespace CloudCodec.Response

open Decode

/-- The shape of the record that an element opens in a slot, given the marker of the list there. -/
def Content.openedShape? (content : Content) (marker : String) : Option Shape :=
  match content with
  | .leaf _ | .flag => none
  | .optional entity | .members entity => some (.entity entity)
  | .list entity => some (.collector marker entity)

/-- The name of the elements that hold the members of the list in a slot, and the usual one if the
slot is not one of a list. -/
def Slot.markerIn (slot : Slot) (cell : Cell Node) : String :=
  match slot.content with
  | .list _ => cell.marker
  | _ => itemMarker

/-- What no document changes of a record. -/
structure Layout where
  /-- The shape of the record. -/
  shape : Shape
  /-- The markers of the lists in its slots. -/
  markers : List String
  deriving DecidableEq, Repr

/-- The layout of a record. -/
def Node.layout (node : Node) : Layout :=
  ⟨node.shape, List.zipWith Slot.markerIn node.shape.slots node.cells⟩

namespace Layout

/-- The marker of the list in a slot. -/
def marker (layout : Layout) (i : Nat) : String := layout.markers[i]?.getD itemMarker

/-- The layout of the record that owns the inside of an element, from the layout of the record that
owns the place of the element: of the record that the element opens, if it is claimed. -/
def inside (layout : Layout) (name : String) : Layout :=
  ((layout.shape.claimingSlot? name).bind fun slot =>
    slot.2.openedShape? (layout.marker slot.1)).elim layout fun shape => (Node.fresh shape).layout

end Layout

namespace Node

variable {node node' child child' : Node} {cell : Cell Node} {name text : String}
  {attributes : Xml.Attributes} {i : Nat} {slot : Slot} {content : Content} {shape : Shape}

/-! ### What an element opens -/

/-- A slot that claims elements is filled by records of some shape. -/
lemma exists_openedShape? (h : content.isClaiming = true) (marker : String) :
    ∃ shape, content.openedShape? marker = some shape := by
  cases content with
  | leaf kind => cases h
  | flag => cases h
  | optional entity => exact ⟨.entity entity, rfl⟩
  | list entity => exact ⟨.collector marker entity, rfl⟩
  | members entity => exact ⟨.entity entity, rfl⟩

lemma exists_openedShape?_of_claimingSlot (h : shape.claimingSlot? name = some (i, content))
    (marker : String) : ∃ inner, content.openedShape? marker = some inner := by
  obtain ⟨slot, -, rfl, hclaiming, -⟩ := Shape.claimingSlot?_eq_some_iff.1 h
  exact exists_openedShape? hclaiming marker

/-- An element that fills a slot of records puts a fresh record first, whatever the cell held. -/
lemma exists_openedCell_eq (h : content.openedShape? cell.marker = some shape) :
    ∃ older, openedCell content cell = .records (fresh shape :: older) := by
  cases content with
  | leaf kind => cases h
  | flag => cases h
  | optional entity =>
    cases h
    exact ⟨[], rfl⟩
  | list entity =>
    cases h
    exact ⟨[], rfl⟩
  | members entity =>
    cases h
    exact ⟨cell.nodes, rfl⟩

/-! ### The markers of cells -/

lemma markerIn_of_list {entity : Entity} (h : slot.content = .list entity) (cell : Cell Node) :
    slot.markerIn cell = cell.marker := by
  rw [Slot.markerIn, h]

lemma markerIn_of_leafKind? {kind : Kind} (h : slot.content.leafKind? = some kind)
    (cell : Cell Node) : slot.markerIn cell = itemMarker := by
  rw [Slot.markerIn]
  cases hcontent : slot.content with
  | list entity =>
    rw [hcontent] at h
    cases h
  | _ => rfl

/-- The wrapper of a list leaves the list its marker. -/
lemma markerIn_openedCell (slot : Slot) (cell : Cell Node) :
    slot.markerIn (openedCell slot.content cell) = slot.markerIn cell := by
  simp only [Slot.markerIn]
  cases slot.content <;> rfl

lemma marker_records_cons (hshape : child'.shape = child.shape) (older : List Node) :
    (Cell.records (child' :: older)).marker = (Cell.records (child :: older)).marker := by
  simp [Cell.marker, Cell.newest?, Cell.nodes, marker?, hshape]

/-! ### Offers keep the layout -/

/-- A cell may change as long as the marker of its list stays. -/
lemma layout_modifyCell {f : Cell Node → Cell Node}
    (h : ∀ {slot : Slot} {cell : Cell Node}, node.shape.slots[i]? = some slot →
      node.cells[i]? = some cell → slot.markerIn (f cell) = slot.markerIn cell) :
    (node.modifyCell i f).layout = node.layout := by
  refine (Layout.mk.injEq ..).mpr ⟨rfl, List.ext_getElem? fun j => ?_⟩
  rw [List.getElem?_zipWith, List.getElem?_zipWith, shape_modifyCell]
  by_cases hij : i = j
  · subst hij
    cases hslot : node.shape.slots[i]? with
    | none => rfl
    | some slot =>
      cases hcell : node.cells[i]? with
      | none => simp [modifyCell, hcell]
      | some cell => simp [cells_modifyCell_self hcell, h hslot hcell]
  · rw [cells_modifyCell_of_ne hij]

lemma layout_claim (node : Node) (name : String) (attributes : Xml.Attributes) :
    (Receiver.claim node name attributes).2.layout = node.layout := by
  cases hslot : node.shape.claimingSlot? name with
  | none => rw [claim_of_none hslot]
  | some found =>
    obtain ⟨i, content⟩ := found
    obtain ⟨slot, hi, rfl, -⟩ := Shape.claimingSlot?_eq_some_iff.1 hslot
    rw [claim_of_some hslot]
    refine layout_modifyCell fun hi' _ => ?_
    cases hi.symm.trans hi'
    exact markerIn_openedCell slot _

lemma layout_takeUnknown (node : Node) (name text : String) :
    (node.takeUnknown name text).layout = node.layout := by
  rw [layout, layout, shape_takeUnknown, cells_takeUnknown]

lemma layout_takeLeaf (node : Node) (name text : String) :
    (leave (Receiver.takeLeaf name text) node).layout = node.layout := by
  rw [leave]
  cases hslot : node.shape.leafSlot? name with
  | none =>
    rw [takeLeaf_of_none hslot]
    exact layout_takeUnknown node name text
  | some found =>
    obtain ⟨i, kind⟩ := found
    obtain ⟨slot, hi, hkind, -⟩ := Shape.leafSlot?_eq_some_iff.1 hslot
    cases hread : kind.read name text with
    | error e => rw [takeLeaf_of_error hslot hread]
    | ok value =>
      rw [takeLeaf_of_ok hslot hread]
      refine layout_modifyCell fun hi' _ => ?_
      cases hi.symm.trans hi'
      rw [markerIn_of_leafKind? hkind, markerIn_of_leafKind? hkind]

/-- A child may be replaced by one of its shape. -/
lemma layout_withChild (hchild : Receiver.child? node name = some child)
    (hshape : child'.shape = child.shape) :
    (Receiver.withChild node name child').layout = node.layout := by
  obtain ⟨i, content, older, hslot, hcell⟩ := child?_eq_some_iff.1 hchild
  rw [withChild_of_some hslot]
  refine layout_modifyCell fun {slot} _ _ hcell' => ?_
  cases hcell.symm.trans hcell'
  rw [Slot.markerIn, Slot.markerIn, Cell.replaceNewest, marker_records_cons hshape]

/-- Whatever becomes of a record, it keeps its layout. -/
theorem layout_eq_of_evolves (h : Evolves node node') : node'.layout = node.layout := by
  induction h with
  | refl => rfl
  | opening name attributes _ ih => rw [layout_claim, ih]
  | leaf name text _ ih => rw [layout_takeLeaf, ih]
  | @inside r s s' c c' name attributes _ hclaim hchild hc ih _ =>
    have hs' : s'.layout = s.layout := by
      rw [← layout_claim s name attributes, hclaim]
    rw [layout_withChild hchild (shape_eq_of_evolves hc), hs', ih]

lemma layout_offerOpening (node : Node) (name : String) (attributes : Xml.Attributes) :
    (leave (offerOpening name attributes) node).layout = node.layout :=
  layout_claim node name attributes

/-- An act of the record at the end of a way keeps the layout of the root, if it keeps that of every
record. -/
lemma layout_reaching {α : Type} {act : EStateM Error Node α}
    (hact : ∀ node, (leave act node).layout = node.layout) (names : List String) (node : Node) :
    (leave (reaching names act) node).layout = node.layout := by
  induction names generalizing node with
  | nil => exact hact node
  | cons name names ih =>
    cases hchild : Receiver.child? node name with
    | none => rw [leave, reaching_cons_of_none hchild]
    | some child =>
      have hin := congrArg Layout.shape (ih child)
      rw [leave] at hin
      rw [leave, reaching_cons_of_some hchild]
      cases hreach : reaching names act child with
      | ok a child' =>
        rw [hreach] at hin
        exact layout_withChild hchild hin
      | error e child' =>
        rw [hreach] at hin
        exact layout_withChild hchild hin

/-! ### What the layout says -/

/-- What an element opens in a slot is told by the layout. -/
lemma openedShape?_layout (hslot : node.shape.slots[i]? = some slot)
    (hcell : node.cells[i]? = some cell) :
    slot.content.openedShape? (node.layout.marker i)
      = slot.content.openedShape? cell.marker := by
  cases hcontent : slot.content with
  | list entity =>
    rw [Layout.marker, layout, List.getElem?_zipWith, hslot, hcell]
    simp [markerIn_of_list hcontent]
  | _ => rfl

lemma inside_layout_of_none (hslot : node.shape.claimingSlot? name = none) :
    node.layout.inside name = node.layout := by
  simp [Layout.inside, layout, hslot]

lemma inside_layout_of_some (hslot : node.shape.claimingSlot? name = some (i, content))
    (hshape : content.openedShape? (node.layout.marker i) = some shape) :
    node.layout.inside name = (fresh shape).layout := by
  have hslot' : node.layout.shape.claimingSlot? name = some (i, content) := hslot
  rw [Layout.inside, hslot', Option.bind_some, hshape, Option.elim_some]

/-- The lists of a fresh record have the usual marker. -/
lemma marker_layout_fresh (shape : Shape) (i : Nat) :
    (fresh shape).layout.marker i = itemMarker := by
  rw [Layout.marker, layout, List.getElem?_zipWith, fresh, List.getElem?_map]
  cases shape.slots[i]? with
  | none => rfl
  | some slot =>
    rw [Option.map_some, Option.getD_some, Slot.markerIn]
    cases slot.content <;> rfl

end Node

end CloudCodec.Response
