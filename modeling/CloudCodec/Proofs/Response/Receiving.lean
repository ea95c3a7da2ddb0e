/-
# How records receive

What a record does with the boundaries of elements, by the slots of its shape: an opening fills
the cell of the slot that claims it, a leaf fills the cell of the slot that it belongs to or is kept
by name.  The child of a claimed element is the newest record of the cell, so a record hands it
back as it was put, and a leaf that cannot be read changes nothing.  It follows what the root is
after a failed decoding (`leavesBehind_node`).
-/
import CloudCodec.Proofs.Decode.Descent
import CloudCodec.Proofs.Decode.Failure
import CloudCodec.Response.Node

namespace CloudCodec.Response

open Decode

/-- A text that cannot be read is told with its field. -/
lemma exists_of_read_eq_error {kind : Kind} {field text : String} {e : Error}
    (h : kind.read field text = .error e) : ∃ domain, e = .unexpectedValue field text domain := by
  cases kind with
  | text => cases h
  | boolean =>
    simp only [Kind.read, readBoolean] at h
    split_ifs at h <;> cases h
    exact ⟨.boolean, rfl⟩
  | integer word =>
    simp only [Kind.read, readInteger] at h
    split at h <;> cases h
    exact ⟨.integer, rfl⟩
  | decimal =>
    simp only [Kind.read, readDecimal] at h
    split at h <;> cases h
    exact ⟨.decimal, rfl⟩

namespace Node

variable {node child : Node} {name text : String} {attributes : Xml.Attributes} {i : Nat}
  {content : Content} {kind : Kind}

/-! ### Openings -/

lemma claim_of_none (h : node.shape.claimingSlot? name = none) :
    Receiver.claim node name attributes = (false, node) := by
  simp [Receiver.claim, h]

lemma claim_of_some (h : node.shape.claimingSlot? name = some (i, content)) :
    Receiver.claim node name attributes = (true, node.modifyCell i (openedCell content)) := by
  simp [Receiver.claim, h]

/-! ### Leaves -/

lemma takeLeaf_of_none (h : node.shape.leafSlot? name = none) :
    Receiver.takeLeaf name text node = .ok () (node.takeUnknown name text) := by
  simp [Receiver.takeLeaf, h]

lemma takeLeaf_of_ok {value : Scalar} (h : node.shape.leafSlot? name = some (i, kind))
    (hread : kind.read name text = .ok value) :
    Receiver.takeLeaf name text node
      = .ok () (node.modifyCell i fun _ => .value (some value)) := by
  simp [Receiver.takeLeaf, h, hread]

lemma takeLeaf_of_error {e : Error} (h : node.shape.leafSlot? name = some (i, kind))
    (hread : kind.read name text = .error e) :
    Receiver.takeLeaf name text node = .error e node := by
  simp [Receiver.takeLeaf, h, hread]

/-! ### Children -/

/-- The child under a name is the newest record in the cell of the slot that claims the name. -/
lemma child?_eq_some_iff : Receiver.child? node name = some child ↔
    ∃ i content older, node.shape.claimingSlot? name = some (i, content) ∧
      node.cells[i]? = some (.records (child :: older)) := by
  constructor
  · intro h
    simp only [Receiver.child?] at h
    split at h
    · rename_i i content hslot
      obtain ⟨cell, hcell, hnewest⟩ := Option.bind_eq_some_iff.1 h
      cases cell with
      | value value? => cases hnewest
      | records records =>
        obtain ⟨older, rfl⟩ := List.head?_eq_some_iff.1 hnewest
        exact ⟨i, content, older, hslot, hcell⟩
    · cases h
  · rintro ⟨i, content, older, hslot, hcell⟩
    simp [Receiver.child?, hslot, hcell, Cell.newest?, Cell.nodes]

lemma withChild_of_some (h : node.shape.claimingSlot? name = some (i, content)) (child : Node) :
    Receiver.withChild node name child = node.modifyCell i (Cell.replaceNewest child) := by
  simp [Receiver.withChild, h]

@[simp] lemma shape_modifyCell (node : Node) (i : Nat) (f : Cell Node → Cell Node) :
    (node.modifyCell i f).shape = node.shape := rfl

@[simp] lemma unknown_modifyCell (node : Node) (i : Nat) (f : Cell Node → Cell Node) :
    (node.modifyCell i f).unknown = node.unknown := rfl

@[simp] lemma length_cells_modifyCell (node : Node) (i : Nat) (f : Cell Node → Cell Node) :
    (node.modifyCell i f).cells.length = node.cells.length := List.length_modify ..

lemma cells_modifyCell_self {cell : Cell Node} (hcell : node.cells[i]? = some cell)
    (f : Cell Node → Cell Node) : (node.modifyCell i f).cells[i]? = some (f cell) := by
  simp [modifyCell, hcell]

lemma cells_modifyCell_of_ne {j : Nat} (h : i ≠ j) (f : Cell Node → Cell Node) :
    (node.modifyCell i f).cells[j]? = node.cells[j]? := by
  simp [modifyCell, h]

lemma modifyCell_modifyCell (node : Node) (i : Nat) (f g : Cell Node → Cell Node) :
    (node.modifyCell i f).modifyCell i g = node.modifyCell i (fun cell => g (f cell)) := by
  simp [modifyCell, List.modify_modify_eq, Function.comp_def]

/-- Changes agree on a record if they agree on the cell. -/
lemma modifyCell_congr {cell : Cell Node} {f g : Cell Node → Cell Node}
    (hcell : node.cells[i]? = some cell) (h : f cell = g cell) :
    node.modifyCell i f = node.modifyCell i g := by
  have hcells : node.cells.modify i f = node.cells.modify i g := by
    apply List.ext_getElem?
    intro j
    rw [List.getElem?_modify, List.getElem?_modify]
    by_cases hj : i = j
    · subst hj
      simp [hcell, h]
    · simp [hj]
  rw [modifyCell, modifyCell, hcells]

/-- A change that keeps what the cell holds changes nothing. -/
lemma modifyCell_eq_self {cell : Cell Node} {f : Cell Node → Cell Node}
    (hcell : node.cells[i]? = some cell) (h : f cell = cell) : node.modifyCell i f = node := by
  rw [modifyCell_congr hcell (g := id) h, modifyCell, List.modify_id]
  cases node
  rfl

/-- A record hands back the child of an element as it was put. -/
lemma keepsChild (h : Receiver.child? node name = some child) : KeepsChild node name child := by
  obtain ⟨i, content, older, hslot, hcell⟩ := child?_eq_some_iff.1 h
  constructor
  · exact h
  · rw [withChild_of_some hslot]
    exact modifyCell_eq_self hcell rfl
  · intro child' _
    rw [child?_eq_some_iff, withChild_of_some hslot]
    refine ⟨i, content, older, hslot, ?_⟩
    simp [modifyCell, hcell, Cell.replaceNewest]
  · intro child' child'' _
    rw [withChild_of_some hslot, withChild_of_some hslot, withChild_of_some (by exact hslot),
      modifyCell_modifyCell]
    congr 1
    funext cell
    cases cell with
    | value value? => rfl
    | records records => cases records <;> rfl

lemma handsBack (root : Node) : HandsBack root := handsBack_of_keepsChild keepsChild root

/-! ### Shapes -/

@[simp] lemma cells_takeUnknown (node : Node) (name text : String) :
    (node.takeUnknown name text).cells = node.cells := by
  rw [takeUnknown]
  split <;> rfl

@[simp] lemma shape_takeUnknown (node : Node) (name text : String) :
    (node.takeUnknown name text).shape = node.shape := by
  rw [takeUnknown]
  split <;> rfl

/-- Whatever becomes of a record, it keeps its shape. -/
theorem shape_eq_of_evolves {node' : Node} (h : Evolves node node') : node'.shape = node.shape := by
  have hclaim : ∀ (s : Node) (name : String) (attributes : Xml.Attributes),
      (Receiver.claim s name attributes).2.shape = s.shape := by
    intro s name attributes
    cases hslot : s.shape.claimingSlot? name with
    | none => rw [claim_of_none hslot]
    | some slot => rw [claim_of_some hslot, shape_modifyCell]
  induction h with
  | refl => rfl
  | opening name attributes _ ih => rw [hclaim, ih]
  | @leaf r s name text _ ih =>
    rw [← ih, leave]
    cases hslot : s.shape.leafSlot? name with
    | none =>
      rw [takeLeaf_of_none hslot]
      exact shape_takeUnknown s name text
    | some slot =>
      obtain ⟨i, kind⟩ := slot
      cases hread : kind.read name text with
      | ok value => rw [takeLeaf_of_ok hslot hread, shape_modifyCell]
      | error e => rw [takeLeaf_of_error hslot hread]
  | @inside r s s' c c' name attributes _ hs' _ _ ih _ =>
    have hshape : s'.shape = r.shape := by
      rw [← ih, ← hclaim s name attributes, hs']
    rw [← hshape]
    cases hslot : s'.shape.claimingSlot? name with
    | none => simp [Receiver.withChild, hslot]
    | some slot => rw [withChild_of_some hslot, shape_modifyCell]

/-! ### Failures -/

lemma spares : Spares Node := by
  constructor
  · intro node node' name text e h
    cases hslot : node.shape.leafSlot? name with
    | none =>
      rw [takeLeaf_of_none hslot] at h
      cases h
    | some slot =>
      obtain ⟨i, kind⟩ := slot
      cases hread : kind.read name text with
      | ok value =>
        rw [takeLeaf_of_ok hslot hread] at h
        cases h
      | error e' =>
        rw [takeLeaf_of_error hslot hread] at h
        cases h
        exact ⟨rfl, exists_of_read_eq_error hread⟩
  · intro node child name h
    exact (keepsChild h).withChild_self

/-- What a failed decoding of any document leaves behind in a record of any shape, whatever was
decoded into it before. -/
theorem leavesBehind_node (settings : Settings) (bytes : List UInt8) (root : Node) :
    LeavesBehind settings bytes root :=
  leavesBehind spares settings bytes root

/-- A virtual switch with a name. -/
def sampleSwitch : Node :=
  (fresh (.entity .virtualSwitch)).modifyCell 1 fun _ => .value (some (.text "n"))

theorem leavesBehind_node_sample :
    (decode ⟨true, none⟩ (Utf8.encode "<v><switchName>m</switchName>") sampleSwitch
        = .error (.malformed (.unclosedElement "v")) sampleSwitch ∧
      Xml.Event.ofDocument true (Utf8.encode "<v><switchName>m</switchName>")
        = .error (.unclosedElement "v")) ∧
    (∃ before attributes, StopsAt ⟨true, none⟩
      (Utf8.encode "<v><switchName>n</switchName><return>maybe</return></v>")
      (fresh (.entity .virtualSwitch)) sampleSwitch
      (before ++ [.opening "return" attributes]) (.closing "return" "maybe")
      (.unexpectedValue "return" "maybe" .boolean)) ∧
    ∃ before name attributes, StopsAt ⟨true, some 2⟩
      (Utf8.encode "<v><switchName>n</switchName><tagSet><item/></tagSet></v>")
      (fresh (.entity .virtualSwitch)) sampleSwitch before (.opening name attributes)
      (.depthExceeded 2) := by
  have hmalformed : decode ⟨true, none⟩ (Utf8.encode "<v><switchName>m</switchName>") sampleSwitch
      = .error (.malformed (.unclosedElement "v")) sampleSwitch := by cbv
  have hvalue : decode ⟨true, none⟩
      (Utf8.encode "<v><switchName>n</switchName><return>maybe</return></v>")
      (fresh (.entity .virtualSwitch))
      = .error (.unexpectedValue "return" "maybe" .boolean) sampleSwitch := by cbv
  have hdepth : decode ⟨true, some 2⟩
      (Utf8.encode "<v><switchName>n</switchName><tagSet><item/></tagSet></v>")
      (fresh (.entity .virtualSwitch))
      = .error (.depthExceeded 2) sampleSwitch := by cbv
  exact ⟨⟨hmalformed, ((leavesBehind_node _ _ _).malformed hmalformed).2⟩,
    (leavesBehind_node _ _ _).unexpectedValue hvalue,
    ((leavesBehind_node _ _ _).depthExceeded hdepth).2⟩

end Node

end CloudCodec.Response
