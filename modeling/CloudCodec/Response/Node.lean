/-
# The records of responses

A node is a record of a response: a cell for every slot of its shape, and the leaves that fill no
slot. A cell holds the value of a leaf, or the records that elements opened.

A node takes in the events of its elements. An element that fills an optional slot puts a fresh
record in place of an earlier one, the wrapper of a list clears the list that is there, and a member
of a list is put to those before it. All shapes are decoded by this one rule.
-/
import CloudCodec.Decode.Receiver
import CloudCodec.Response.Shape

namespace CloudCodec.Response

open Decode (Scalar Receiver)

/-- What fills a slot: the value of a leaf, or records, last one first. -/
inductive Cell (α : Type)
  | value (value? : Option Scalar)
  | records (records : List α)

/-- A record of a response. -/
structure Node where
  /-- The shape of the record. -/
  shape : Shape
  /-- What fills its slots. -/
  cells : List (Cell Node)
  /-- The leaves that fill no slot, by name. -/
  unknown : TextMap

/-- Adds a leaf that fills no slot; the marker of list members is not one. -/
def recordUnknown (fields : TextMap) (name text : String) : TextMap :=
  if name = itemMarker then fields else fields.insert name text

/-- The name of the elements that hold the members of a list. -/
def Node.marker? (node : Node) : Option String :=
  match node.shape with
  | .collector marker _ => some marker
  | _ => none

namespace Cell

/-- The value of a leaf. -/
def value? : Cell Node → Option Scalar
  | .value v => v
  | .records _ => none

/-- The records, last one first. -/
def nodes : Cell Node → List Node
  | .value _ => []
  | .records nodes => nodes

/-- The record that was added last. -/
def newest? (cell : Cell Node) : Option Node := cell.nodes.head?

/-- The name of the elements that hold the members of the list in a cell, and the usual one if there
is no list. -/
def marker (cell : Cell Node) : String := (cell.newest?.bind Node.marker?).getD itemMarker

/-- The cell with the record that was added last replaced. -/
def replaceNewest (node : Node) : Cell Node → Cell Node
  | .records (_ :: older) => .records (node :: older)
  | cell => cell

end Cell

namespace Node

/-- The list of no members. -/
def emptyCollector (marker : String) (entity : Entity) : Node :=
  ⟨.collector marker entity, [.records []], ∅⟩

/-- What fills a slot at first. -/
def freshCell : Content → Cell Node
  | .leaf _ => .value none
  | .flag => .value (some (.boolean false))
  | .optional _ => .records []
  | .list entity => .records [emptyCollector itemMarker entity]
  | .members _ => .records []

/-- The record of a shape before anything is decoded into it. -/
def fresh (shape : Shape) : Node :=
  ⟨shape, shape.slots.map fun slot => freshCell slot.content, ∅⟩

theorem fresh_collector (marker : String) (entity : Entity) :
    fresh (.collector marker entity) = emptyCollector marker entity := rfl

/-- What fills a slot after an element opened that it claims.  A list loses its members and keeps
its marker. -/
def openedCell (content : Content) (cell : Cell Node) : Cell Node :=
  match content with
  | .leaf _ | .flag => cell
  | .optional entity => .records [fresh (.entity entity)]
  | .list entity => .records [emptyCollector cell.marker entity]
  | .members entity => .records (fresh (.entity entity) :: cell.nodes)

/-- The record with the cell at a place changed. -/
def modifyCell (node : Node) (i : Nat) (f : Cell Node → Cell Node) : Node :=
  { node with cells := node.cells.modify i f }

/-- The record after a leaf that fills no slot. -/
def takeUnknown (node : Node) (name text : String) : Node :=
  match node.shape.leftovers with
  | .dropped => node
  | .kept _ _ => { node with unknown := recordUnknown node.unknown name text }

instance : Receiver Node where
  claim node name _ :=
    match node.shape.claimingSlot? name with
    | some (i, content) => (true, node.modifyCell i (openedCell content))
    | none => (false, node)
  child? node name :=
    match node.shape.claimingSlot? name with
    | some (i, _) => node.cells[i]?.bind Cell.newest?
    | none => none
  withChild node name child :=
    match node.shape.claimingSlot? name with
    | some (i, _) => node.modifyCell i (Cell.replaceNewest child)
    | none => node
  takeLeaf name text := fun node =>
    match node.shape.leafSlot? name with
    | some (i, kind) =>
      match kind.read name text with
      | .ok value => .ok () (node.modifyCell i fun _ => .value (some value))
      | .error e => .error e node
    | none => .ok () (node.takeUnknown name text)

/-! ### Reading a record -/

/-- What fills the slot that is printed under a key. -/
def cell? (node : Node) (key : String) : Option (Cell Node) :=
  (node.shape.slots.findIdx? fun slot => slot.key == key).bind fun i => node.cells[i]?

/-- The value of the leaf that is printed under a key. -/
def value? (node : Node) (key : String) : Option Scalar :=
  (node.cell? key).bind Cell.value?

/-- The text of the leaf that is printed under a key. -/
def text? (node : Node) (key : String) : Option String :=
  match node.value? key with
  | some (.text s) => some s
  | _ => none

/-- The members of a list or a listing, in order. -/
def members (node : Node) : List Node :=
  ((node.cell? "items").map Cell.nodes |>.getD []).reverse

/-! ### Lists -/

/-- The list of some members. -/
def collectorOf (marker : String) (entity : Entity) (members : List Node) : Node :=
  ⟨.collector marker entity, [.records members.reverse], ∅⟩

/-- The list with one more member at its end. -/
def push (node member : Node) : Node :=
  node.modifyCell 0 fun cell => .records (member :: cell.nodes)

/-- The list without its members. -/
def cleared (node : Node) : Node :=
  node.modifyCell 0 fun _ => .records []

/-- The wrapper of a list clears the list that is there, whatever its members are called. -/
theorem openedCell_list (marker : String) (entity : Entity) (members : List Node) :
    openedCell (.list entity) (.records [collectorOf marker entity members])
      = .records [(collectorOf marker entity members).cleared] := rfl

/-! ### Tags -/

/-- A tag. -/
def tag (key value : Option String) : Node :=
  ⟨.entity .tag, [.value (key.map .text), .value (value.map .text)], ∅⟩

/-- The value of the first tag with a key, in a list of tags. -/
def tagValue? (tags : Node) (key : String) : Option String :=
  (tags.members.find? fun tag => tag.text? "key" == some key).bind fun tag => tag.text? "value"

end Node

end CloudCodec.Response
