/-
# Records inside of records

A record includes itself and the records in its cells, at every level (`Includes`).  A property that
fresh records have and that is kept by each offer to a record, and when a child is put back with its
shape, holds of everything that a record includes as long as it held before (`Persists.takes`).  So
it holds throughout every record that documents are decoded into, one after the other, however the
decodings end (`Persists.all_of_reached`).
-/
import CloudCodec.Proofs.Decode.Offering
import CloudCodec.Proofs.Response.Completeness

namespace CloudCodec.Response

open Decode Xml

namespace Node

variable {node node' root root' child : Node} {cell : Cell Node} {i : Nat}
  {name text : String} {attributes : Attributes} {content : Content} {shape : Shape}
  {P : Node → Prop}

/-- The records that a record includes: itself, and those that the records in its cells include. -/
inductive Includes : Node → Node → Prop
  | self (node : Node) : Includes node node
  | inside {node child inner : Node} {cell : Cell Node} :
      cell ∈ node.cells → child ∈ cell.nodes → Includes child inner → Includes node inner

/-- A property holds of all records that a record includes. -/
def All (P : Node → Prop) (root : Node) : Prop := ∀ node, root.Includes node → P node

lemma all_iff : root.All P ↔
    P root ∧ ∀ cell ∈ root.cells, ∀ child ∈ cell.nodes, child.All P := by
  constructor
  · intro h
    exact ⟨h root (.self root), fun cell hcell child hchild node hnode =>
      h node (.inside hcell hchild hnode)⟩
  · rintro ⟨hroot, hinside⟩ node hnode
    cases hnode with
    | self => exact hroot
    | inside hcell hchild hnode => exact hinside _ hcell _ hchild node hnode

/-- A cell of a record with a change is an old one or the changed one. -/
lemma mem_cells_modifyCell {f : Cell Node → Cell Node} (h : cell ∈ (node.modifyCell i f).cells) :
    cell ∈ node.cells ∨ ∃ old ∈ node.cells, cell = f old := by
  obtain ⟨j, hj⟩ := List.getElem?_of_mem h
  by_cases hij : i = j
  · subst hij
    cases hold : node.cells[i]? with
    | none => simp [modifyCell, hold] at hj
    | some old =>
      rw [cells_modifyCell_self hold] at hj
      cases hj
      exact .inr ⟨old, List.mem_of_getElem? hold, rfl⟩
  · rw [cells_modifyCell_of_ne hij] at hj
    exact .inl (List.mem_of_getElem? hj)

/-- What holds of a record and of what its changed cell holds, and held of everything in the other
cells, holds of all that the record includes. -/
lemma All.modifyCell {f : Cell Node → Cell Node} (h : node.All P) (hnode : P (node.modifyCell i f))
    (hf : ∀ old ∈ node.cells, ∀ child ∈ (f old).nodes, child ∈ old.nodes ∨ child.All P) :
    (node.modifyCell i f).All P := by
  obtain ⟨-, hinside⟩ := all_iff.1 h
  refine all_iff.2 ⟨hnode, ?_⟩
  intro cell hcell child hchild
  rcases mem_cells_modifyCell hcell with hcell | ⟨old, hold, rfl⟩
  · exact hinside cell hcell child hchild
  · rcases hf old hold child hchild with hchild | hchild
    · exact hinside old hold child hchild
    · exact hchild

/-- What a record does with a leaf that it takes. -/
lemma of_takeLeaf_eq_ok (h : Receiver.takeLeaf name text node = .ok () node') :
    (node.shape.leafSlot? name = none ∧ node' = node.takeUnknown name text) ∨
    ∃ i kind value, node.shape.leafSlot? name = some (i, kind) ∧ kind.read name text = .ok value ∧
      node' = node.modifyCell i fun _ => .value (some value) := by
  cases hslot : node.shape.leafSlot? name with
  | none =>
    rw [takeLeaf_of_none hslot] at h
    cases h
    exact .inl ⟨rfl, rfl⟩
  | some slot =>
    obtain ⟨i, kind⟩ := slot
    cases hread : kind.read name text with
    | ok value =>
      rw [takeLeaf_of_ok hslot hread] at h
      cases h
      exact .inr ⟨i, kind, value, rfl, hread, rfl⟩
    | error e =>
      rw [takeLeaf_of_error hslot hread] at h
      cases h

/-! ### Properties that persist -/

/-- A property that fresh records have, and that is kept by openings, by leaves of names that are
not claimed, and by a child that is put back with its shape. -/
structure Persists (P : Node → Prop) : Prop where
  fresh : ∀ shape, P (fresh shape)
  claim : ∀ {node : Node} (name : String) (attributes : Attributes),
    P node → P (Receiver.claim node name attributes).2
  takeLeaf : ∀ {node node' : Node} {name text : String},
    P node → Declines node name → Receiver.takeLeaf name text node = .ok () node' → P node'
  withChild : ∀ {node child child' : Node} {name : String},
    P node → Receiver.child? node name = some child → child'.shape = child.shape →
      P (Receiver.withChild node name child')

/-- If a fresh cell holds a record, it is a list without members. -/
lemma eq_of_mem_freshCell (h : child ∈ (freshCell content).nodes) :
    ∃ entity, child = emptyCollector itemMarker entity := by
  cases content with
  | list entity => exact ⟨entity, List.mem_singleton.1 h⟩
  | leaf kind => cases h
  | flag => cases h
  | optional entity => cases h
  | members entity => cases h

/-- A list without members has one cell, and it holds nothing. -/
lemma Persists.all_emptyCollector (h : Persists P) (marker : String) (entity : Entity) :
    (emptyCollector marker entity).All P := by
  refine all_iff.2 ⟨h.fresh (.collector marker entity), ?_⟩
  intro cell hcell child hchild
  obtain rfl : cell = .records [] := List.mem_singleton.1 hcell
  cases hchild

lemma Persists.all_fresh (h : Persists P) (shape : Shape) : (Node.fresh shape).All P := by
  refine all_iff.2 ⟨h.fresh shape, ?_⟩
  intro cell hcell child hchild
  obtain ⟨slot, -, rfl⟩ := List.mem_map.1 hcell
  obtain ⟨entity, rfl⟩ := eq_of_mem_freshCell hchild
  exact h.all_emptyCollector itemMarker entity

/-- An element that a record claims puts one fresh record into a cell. -/
lemma Persists.all_openedCell (h : Persists P) (hclaiming : content.isClaiming = true)
    (old : Cell Node) (hchild : child ∈ (openedCell content old).nodes) :
    child ∈ old.nodes ∨ child.All P := by
  cases content with
  | leaf kind => cases hclaiming
  | flag => cases hclaiming
  | optional entity =>
    obtain rfl : child = Node.fresh (.entity entity) := List.mem_singleton.1 hchild
    exact .inr (h.all_fresh _)
  | list entity =>
    obtain rfl : child = emptyCollector old.marker entity := List.mem_singleton.1 hchild
    exact .inr (h.all_emptyCollector _ _)
  | members entity =>
    rcases List.mem_cons.1 hchild with rfl | hold
    · exact .inr (h.all_fresh _)
    · exact .inl hold

lemma Persists.all_claim (h : Persists P) (hnode : node.All P) (name : String)
    (attributes : Attributes) : (Receiver.claim node name attributes).2.All P := by
  have hself := h.claim name attributes (all_iff.1 hnode).1
  cases hslot : node.shape.claimingSlot? name with
  | none =>
    rwa [claim_of_none hslot]
  | some slot =>
    obtain ⟨i, content⟩ := slot
    obtain ⟨-, -, -, hclaiming, -⟩ := Shape.claimingSlot?_eq_some_iff.1 hslot
    rw [claim_of_some hslot] at hself ⊢
    exact hnode.modifyCell hself fun old _ child hchild => h.all_openedCell hclaiming old hchild

lemma Persists.all_takeLeaf (h : Persists P) (hnode : node.All P) (hdeclines : Declines node name)
    (htake : Receiver.takeLeaf name text node = .ok () node') : node'.All P := by
  have hself := h.takeLeaf (all_iff.1 hnode).1 hdeclines htake
  obtain ⟨-, rfl⟩ | ⟨i, kind, value, -, -, rfl⟩ := of_takeLeaf_eq_ok htake
  · exact all_iff.2 ⟨hself, by simpa using (all_iff.1 hnode).2⟩
  · exact hnode.modifyCell hself (by simp [Cell.nodes])

lemma Persists.all_withChild {child' : Node} (h : Persists P) (hnode : node.All P)
    (hchild : Receiver.child? node name = some child) (hshape : child'.shape = child.shape)
    (hchild' : child'.All P) : (Receiver.withChild node name child').All P := by
  have hself := h.withChild (all_iff.1 hnode).1 hchild hshape
  obtain ⟨i, content, older, hslot, -⟩ := child?_eq_some_iff.1 hchild
  rw [withChild_of_some hslot] at hself ⊢
  refine hnode.modifyCell hself ?_
  intro old _ c hc
  cases old with
  | value value? => exact .inl hc
  | records nodes =>
    cases nodes with
    | nil => exact .inl hc
    | cons newest older =>
      rcases List.mem_cons.1 hc with rfl | hc
      · exact .inr hchild'
      · exact .inl (List.mem_cons_of_mem _ hc)

/-- The child that a record keeps is included in it. -/
lemma All.of_child? (h : node.All P) (hchild : Receiver.child? node name = some child) :
    child.All P := by
  obtain ⟨i, content, older, -, hcell⟩ := child?_eq_some_iff.1 hchild
  exact (all_iff.1 h).2 _ (List.mem_of_getElem? hcell) child List.mem_cons_self

/-- What persists holds of all that a record includes, whatever the record takes in. -/
theorem Persists.takes (h : Persists P) (ht : Takes root root') (hroot : root.All P) :
    root'.All P := by
  induction ht with
  | refl => exact hroot
  | opening name attributes _ ih => exact h.all_claim (ih hroot) name attributes
  | leaf _ hdeclines htake ih => exact h.all_takeLeaf (ih hroot) hdeclines htake
  | @inside r s s' c c' name attributes _ hclaim hchild hc ih ihc =>
    have hopened := h.all_claim (ih hroot) name attributes
    rw [hclaim] at hopened
    exact h.all_withChild hopened hchild (shape_eq_of_evolves hc.evolves)
      (ihc (hopened.of_child? hchild))

/-! ### Records that documents are decoded into -/

/-- The records that come about when documents are decoded into a fresh record, one after the other,
whether the decodings succeed or fail. -/
inductive Reached (shape : Shape) : Node → Prop
  | fresh : Reached shape (fresh shape)
  | decode {root : Node} (settings : Settings) (bytes : List UInt8) :
      Reached shape root → Reached shape (leave (decode settings bytes) root)

/-- Whether a record claims an element is decided by its shape. -/
lemma claim_fst (node : Node) (name : String) (attributes : Attributes) :
    (Receiver.claim node name attributes).1 = (node.shape.claimingSlot? name).isSome := by
  cases hslot : node.shape.claimingSlot? name with
  | none => rw [claim_of_none hslot]; rfl
  | some slot => rw [claim_of_some hslot]; rfl

lemma steady : Steady Node := by
  intro r s h name attributes attributes'
  rw [claim_fst, claim_fst, shape_eq_of_evolves h]

lemma declines_iff : Declines node name ↔ node.shape.claimingSlot? name = none := by
  simp [Declines, claim_fst]

/-- A decoding into a complete record. -/
lemma IsComplete.takes (h : root.IsComplete) (settings : Settings) (bytes : List UInt8) :
    Takes root (leave (Decode.decode settings bytes) root) :=
  takes_decode spares steady h.attaches settings bytes

lemma Reached.isComplete (h : Reached shape root) : root.IsComplete := by
  induction h with
  | fresh => exact isComplete_fresh shape
  | decode settings bytes _ ih => exact ih.evolves (ih.takes settings bytes).evolves

/-- Whatever documents are decoded, the layout stays that of the fresh record. -/
lemma Reached.layout_eq (h : Reached shape root) : root.layout = (Node.fresh shape).layout := by
  induction h with
  | fresh => rfl
  | decode settings bytes h ih => exact (h.isComplete.layout_decode settings bytes).trans ih

lemma Reached.shape_eq (h : Reached shape root) : root.shape = shape :=
  congrArg Layout.shape h.layout_eq

/-- What persists holds of all that a record includes which documents are decoded into. -/
theorem Persists.all_of_reached (h : Persists P) (hroot : Reached shape root) : root.All P := by
  induction hroot with
  | fresh => exact h.all_fresh shape
  | decode settings bytes hroot ih => exact h.takes (hroot.isComplete.takes settings bytes) ih

end Node

end CloudCodec.Response
