/-
# Printing responses

A record is printed as an object with a field for every slot, in the order of the slots, and
with the leaves that fill no slot behind them. A list is printed as an array.
-/
import CloudCodec.Json.Basic
import CloudCodec.Response.Node

namespace CloudCodec.Response

open Decode (Scalar)

/-- A value of a leaf. Decimals are texts, so that they keep their digits. -/
def scalarJson : Scalar → Json
  | .text s => .text s
  | .boolean b => .boolean b
  | .integer n => .integer n
  | .decimal d => .text d.text

/-- The fields of the leaves that fill no slot. -/
def leftoverFields (leftovers : Leftovers) (unknown : TextMap) : List (String × Json) :=
  match leftovers with
  | .dropped => []
  | .kept key isOmitted =>
    if isOmitted && unknown.isEmpty then [] else [(key, .ofPairs unknown.entries)]

mutual

/-- A record. -/
def Node.toJson : Node → Json
  | ⟨.collector _ _, cells, _⟩ => collectedJson cells
  | ⟨shape, cells, unknown⟩ =>
    .object (cellFields shape.slots cells ++ leftoverFields shape.leftovers unknown)

/-- The members in the cell of a list. -/
def collectedJson : List (Cell Node) → Json
  | [.records nodes] => .array (nodesJson [] nodes)
  | _ => .array []

/-- The fields of the slots of a record. -/
def cellFields : List Slot → List (Cell Node) → List (String × Json)
  | slot :: slots, cell :: cells => cellField slot cell ++ cellFields slots cells
  | _, _ => []

/-- The field of a slot, or none if it holds nothing and is left out. -/
def cellField (slot : Slot) : Cell Node → List (String × Json)
  | .value (some v) => [(slot.key, scalarJson v)]
  | .value none => if slot.isOmitted then [] else [(slot.key, .null)]
  | .records nodes =>
    match slot.content with
    | .members _ => [(slot.key, .array (nodesJson [] nodes))]
    | _ =>
      match nodes with
      | node :: _ => [(slot.key, node.toJson)]
      | [] => if slot.isOmitted then [] else [(slot.key, .null)]

/-- Records that are given last one first, before those of `done`. -/
def nodesJson (done : List Json) : List Node → List Json
  | [] => done
  | node :: older => nodesJson (node.toJson :: done) older

end

end CloudCodec.Response
