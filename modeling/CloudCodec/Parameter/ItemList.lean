/-
# Lists with rules

A list of a request has a name, a numbering and rules on a flag of its items. A rule lets one item
at most set its flag, and may ask of that item to be alone, to stand at a position, or to have a
value in another field. The rules are checked before anything is encoded.
-/
import CloudCodec.Parameter.Encoding

namespace CloudCodec.Parameter

/-- A rule on a boolean flag of the items of a list. -/
structure FlagRule where
  /-- The name of the flag. -/
  flag : String
  /-- Whether the item that sets it must be the only item. -/
  isSole : Bool := false
  /-- The position where it must stand, counted from zero. -/
  position : Option Nat := none
  /-- A field that it must have, with the text of its value. -/
  required : Option (String × String) := none
  deriving DecidableEq, Repr

namespace FlagRule

/-- Whether an item sets a flag: its first field of that name is a true boolean. -/
def isSet (flag : String) (item : Argument) : Bool :=
  match item.field? flag with
  | some (.scalar (.boolean true)) => true
  | _ => false

/-- The items that set the flag, each with its position. -/
def flagged (rule : FlagRule) (items : List Argument) : List (Argument × Nat) :=
  items.zipIdx.filter fun item => isSet rule.flag item.1

/-- Whether an item has a value in a field. -/
def hasValue (item : Argument) (field value : String) : Bool :=
  ((item.field? field).bind Argument.value?).map Value.wire == some value

/-- The first way in which items break a rule. -/
def violation? (rule : FlagRule) (list : String) (items : List Argument) : Option Violation :=
  match rule.flagged items with
  | [] => none
  | [(item, found)] =>
    if rule.isSole && items.length > 1 then some (.notAlone list rule.flag items.length)
    else
      match rule.position.filter (· ≠ found) with
      | some required => some (.misplaced list rule.flag required found)
      | none =>
        match rule.required.filter fun r => !hasValue item r.1 r.2 with
        | some (field, value) => some (.unmet list rule.flag field value)
        | none => none
  | several => some (.notUnique list rule.flag several.length)

end FlagRule

/-- A list of a request, without its items. -/
structure ItemList where
  /-- The name of the list. -/
  name : String
  /-- The numbering of the items. -/
  numbering : Numbering := .fromZero
  /-- The rules, in the order in which they are checked. -/
  rules : List FlagRule := []
  deriving DecidableEq, Repr

namespace ItemList

/-- Checks the rules in order. -/
def validate (list : ItemList) (items : List Argument) : Except Error Unit :=
  match list.rules.findSome? fun rule => rule.violation? list.name items with
  | some violation => .error (.invalid violation)
  | none => .ok ()

/-- The parameters of the items, unless a rule is broken. -/
def encode (list : ItemList) (scope : Option String) (items : List Argument) :
    Except Error ParameterSet :=
  match list.validate items with
  | .error e => .error e
  | .ok () =>
    ParameterSet.addAll ∅ (itemScalars (qualify scope list.name) list.numbering 0 items)

/-- A set with the parameters of the items, all of whose names are new to it. -/
def encodeInto (list : ItemList) (set : ParameterSet) (scope : Option String)
    (items : List Argument) : Except Error ParameterSet :=
  match list.encode scope items with
  | .error e => .error e
  | .ok encoded => set.merge encoded

end ItemList

end CloudCodec.Parameter
