/-
# Arguments of requests

An argument is a scalar, an object of named fields or a list of items. Fields that are not set
are left out when an object is put together, so that they never reach the wire.
-/
import CloudCodec.Numeral.Integer

namespace CloudCodec.Parameter

/-- A scalar argument. -/
inductive Value
  | text (s : String)
  | integer (n : Int)
  | boolean (b : Bool)
  deriving DecidableEq, Repr

/-- The text of a scalar on the wire. -/
def Value.wire : Value → String
  | .text s => s
  | .integer n => Numeral.integerText n
  | .boolean true => "true"
  | .boolean false => "false"

theorem Value.wire_text (s : String) : (Value.text s).wire = s := rfl

theorem Value.wire_boolean (b : Bool) : (Value.boolean b).wire = toString b := by
  cases b <;> rfl

theorem Value.wire_integer (n : Int) : (Value.integer n).wire = toString n :=
  Numeral.integerText_eq_toString n

/-- The number of the first item of a list. -/
inductive Numbering
  | fromZero
  | fromOne
  deriving DecidableEq, Inhabited, Repr

/-- The number of the item at a position. -/
def Numbering.index (numbering : Numbering) (position : Nat) : Nat :=
  match numbering with
  | .fromZero => position
  | .fromOne => position + 1

theorem Numbering.index_fromZero (position : Nat) : index .fromZero position = position := rfl

theorem Numbering.index_fromOne (position : Nat) : index .fromOne position = 1 + position :=
  Nat.add_comm position 1

/-- An argument of a request. -/
inductive Argument
  | scalar (value : Value)
  | object (fields : List (String × Argument))
  | list (numbering : Numbering) (items : List Argument)

/-- The fields of an object, in order. -/
abbrev Fields := List (String × Argument)

namespace Fields

/-- A scalar field. -/
def value (name : String) (value : Value) : Fields := [(name, .scalar value)]

/-- A scalar field that may be unset. -/
def optional (name : String) (value? : Option Value) : Fields :=
  match value? with
  | some v => value name v
  | none => []

/-- A text that may be unset. -/
def text? (name : String) (text? : Option String) : Fields := optional name (text?.map .text)

/-- A number that may be unset. -/
def number? (name : String) (number? : Option UInt32) : Fields :=
  optional name (number?.map fun n => .integer n.toNat)

/-- A boolean that may be unset. -/
def boolean? (name : String) (boolean? : Option Bool) : Fields :=
  optional name (boolean?.map .boolean)

/-- An object that is left out without fields. -/
def object (name : String) (fields? : Option Fields) : Fields :=
  match fields? with
  | some (field :: fields) => [(name, .object (field :: fields))]
  | _ => []

/-- A list that is left out without items. -/
def list (name : String) (numbering : Numbering) (items : List Argument) : Fields :=
  match items with
  | [] => []
  | _ => [(name, .list numbering items)]

/-- A list of texts that is left out without items. -/
def texts (name : String) (numbering : Numbering) (texts : List String) : Fields :=
  list name numbering (texts.map fun s => .scalar (.text s))

end Fields

namespace Argument

instance : Inhabited Argument := ⟨.object []⟩

/-- The fields of an object. -/
def fields? : Argument → Option Fields
  | .object fields => some fields
  | _ => none

/-- The value of a scalar. -/
def value? : Argument → Option Value
  | .scalar value => some value
  | _ => none

/-- The first field of a name, in an object. -/
def field? (argument : Argument) (name : String) : Option Argument :=
  argument.fields?.bind fun fields => fields.lookup name

end Argument

end CloudCodec.Parameter
