/-
# What the cells of a record hold

What a slot holds says what its cell may be: no value or one of its kind, no record or one of its
entity, one list, or any number of members (`Content.Admits`).  A record fits its shape if every
cell is one that its slot admits and if nothing is kept by name where nothing should be (`Fits`).
Fresh records fit, and what is offered to a record changes one cell to another one that is admitted,
so everything inside of a record fits that documents are decoded into (`persists_fits`).
-/
import CloudCodec.Proofs.Response.Inclusion

namespace CloudCodec.Response

open Decode Xml

variable {content : Content} {cell : Cell Node} {kind : Kind} {value : Scalar}
  {field text : String} {child child' : Node} {older : List Node}

/-- The cells that a slot may have, given what it holds. -/
inductive Content.Admits : Content → Cell Node → Prop
  | noLeaf (kind : Kind) : Admits (.leaf kind) (.value none)
  | leaf {kind : Kind} {field text : String} {value : Scalar} :
      kind.read field text = .ok value → Admits (.leaf kind) (.value (some value))
  | flag (b : Bool) : Admits .flag (.value (some (.boolean b)))
  | noRecord (entity : Entity) : Admits (.optional entity) (.records [])
  | record {entity : Entity} {node : Node} :
      node.shape = .entity entity → Admits (.optional entity) (.records [node])
  | list {entity : Entity} {node : Node} :
      node.shape = .collector itemMarker entity → Admits (.list entity) (.records [node])
  | members {entity : Entity} {nodes : List Node} :
      (∀ node ∈ nodes, node.shape = .entity entity) → Admits (.members entity) (.records nodes)

lemma exists_of_map_eq_ok {ε α β : Type} {f : α → β} {x : Except ε α} {b : β}
    (h : x.map f = .ok b) : ∃ a, f a = b := by
  cases x with
  | error e => cases h
  | ok a => exact ⟨a, Except.ok.inj h⟩

namespace Content.Admits

lemma fresh (content : Content) : content.Admits (Node.freshCell content) := by
  cases content with
  | leaf kind => exact .noLeaf kind
  | flag => exact .flag false
  | optional entity => exact .noRecord entity
  | list entity => exact .list rfl
  | members entity => exact .members (by simp)

/-- An element that opens puts a record of the shape of the slot into the cell. -/
lemma opened (h : content.Admits cell) : content.Admits (Node.openedCell content cell) := by
  cases h with
  | noLeaf kind => exact .noLeaf kind
  | leaf hread => exact .leaf hread
  | flag b => exact .flag b
  | noRecord entity => exact .record rfl
  | record _ => exact .record rfl
  | list hnode =>
    -- the list that is there has the usual marker
    refine .list ?_
    simp [Node.emptyCollector, Cell.marker, Cell.newest?, Cell.nodes, Node.marker?, hnode]
  | members hnodes =>
    refine .members ?_
    intro node hnode
    rcases List.mem_cons.1 hnode with rfl | hnode
    · rfl
    · exact hnodes node hnode

/-- A leaf gives a value of the kind of the slot. -/
lemma of_read (hkind : content.leafKind? = some kind) (hread : kind.read field text = .ok value) :
    content.Admits (.value (some value)) := by
  cases content with
  | leaf kind' =>
    cases hkind
    exact .leaf hread
  | flag =>
    cases hkind
    obtain ⟨b, rfl⟩ := exists_of_map_eq_ok hread
    exact .flag b
  | optional entity => cases hkind
  | list entity => cases hkind
  | members entity => cases hkind

/-- The record that was added last can be replaced by one of its shape. -/
lemma replaceNewest (h : content.Admits (.records (child :: older)))
    (hshape : child'.shape = child.shape) : content.Admits (.records (child' :: older)) := by
  cases h with
  | record hchild => exact .record (hshape.trans hchild)
  | list hchild => exact .list (hshape.trans hchild)
  | members hnodes =>
    refine .members ?_
    intro node hnode
    rcases List.mem_cons.1 hnode with rfl | hnode
    · exact hshape.trans (hnodes child List.mem_cons_self)
    · exact hnodes node (List.mem_cons_of_mem _ hnode)

end Content.Admits

namespace Node

variable {node node' : Node} {shape : Shape} {i : Nat} {name : String}

/-- The record is one of its shape. -/
structure Fits (node : Node) : Prop where
  isComplete : node.IsComplete
  /-- Every cell is one that its slot may have. -/
  admits : ∀ {i : Nat} {slot : Slot} {cell : Cell Node}, node.shape.slots[i]? = some slot →
    node.cells[i]? = some cell → slot.content.Admits cell
  /-- Nothing is kept where leaves that fill no slot are forgotten. -/
  unknown : node.shape.leftovers = .dropped → node.unknown = ∅

lemma fits_fresh (shape : Shape) : (fresh shape).Fits := by
  refine ⟨isComplete_fresh shape, ?_, fun _ => rfl⟩
  intro i slot cell hslot hcell
  replace hslot : shape.slots[i]? = some slot := hslot
  obtain rfl : freshCell slot.content = cell := by simpa [fresh, hslot] using hcell
  exact .fresh slot.content

/-- A cell that is changed to one that its slot admits. -/
lemma Fits.modifyCell {f : Cell Node → Cell Node} (h : node.Fits)
    (hf : ∀ {slot : Slot} {cell : Cell Node}, node.shape.slots[i]? = some slot →
      node.cells[i]? = some cell → slot.content.Admits (f cell)) : (node.modifyCell i f).Fits := by
  refine ⟨h.isComplete.modifyCell i f, ?_, h.unknown⟩
  intro j slot cell hslot hcell
  by_cases hij : i = j
  · subst hij
    cases hold : node.cells[i]? with
    | none => simp [Node.modifyCell, hold] at hcell
    | some old =>
      rw [cells_modifyCell_self hold] at hcell
      cases hcell
      exact hf hslot hold
  · rw [cells_modifyCell_of_ne hij] at hcell
    exact h.admits hslot hcell

lemma Fits.takeUnknown (h : node.Fits) (name text : String) :
    (node.takeUnknown name text).Fits := by
  refine ⟨by simpa [IsComplete] using h.isComplete, ?_, ?_⟩
  · intro i slot cell hslot hcell
    rw [shape_takeUnknown] at hslot
    rw [cells_takeUnknown] at hcell
    exact h.admits hslot hcell
  · intro hdropped
    rw [shape_takeUnknown] at hdropped
    rw [Node.takeUnknown, hdropped]
    exact h.unknown hdropped

theorem persists_fits : Persists Fits := by
  constructor
  · exact fits_fresh
  · intro node name attributes h
    cases hslot : node.shape.claimingSlot? name with
    | none => rwa [claim_of_none hslot]
    | some found =>
      obtain ⟨i, content⟩ := found
      obtain ⟨slot, hi, rfl, -⟩ := Shape.claimingSlot?_eq_some_iff.1 hslot
      rw [claim_of_some hslot]
      refine h.modifyCell fun hi' hcell => ?_
      cases hi.symm.trans hi'
      exact (h.admits hi hcell).opened
  · intro node node' name text h _ htake
    obtain ⟨-, rfl⟩ | ⟨i, kind, value, hslot, hread, rfl⟩ := of_takeLeaf_eq_ok htake
    · exact h.takeUnknown name text
    · obtain ⟨slot, hi, hkind, -⟩ := Shape.leafSlot?_eq_some_iff.1 hslot
      refine h.modifyCell fun hi' _ => ?_
      cases hi.symm.trans hi'
      exact .of_read hkind hread
  · intro node child child' name h hchild hshape
    obtain ⟨i, content, older, hslot, hcell⟩ := child?_eq_some_iff.1 hchild
    obtain ⟨slot, hi, rfl, -⟩ := Shape.claimingSlot?_eq_some_iff.1 hslot
    rw [withChild_of_some hslot]
    refine h.modifyCell fun hi' hcell' => ?_
    cases hi.symm.trans hi'
    cases hcell.symm.trans hcell'
    exact (h.admits hi hcell).replaceNewest hshape

end Node

end CloudCodec.Response
