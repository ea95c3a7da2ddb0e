/-
# JSON values

The values of JSON texts, with the fields of an object in the order of the text. A number is an
integer when it is written without fraction and exponent; other numbers keep their spelling.
-/

namespace CloudCodec

/-- The value of a JSON text. -/
inductive Json
  | null
  | boolean (b : Bool)
  /-- A number written as an integer; a zero with a sign is not one of them. -/
  | integer (n : Int)
  /-- Any other number, as it is written. -/
  | real (spelling : String)
  | text (s : String)
  /-- A value with a string, or a field name, that spells no text. -/
  | unreadable
  | array (elements : List Json)
  | object (fields : List (String × Json))

namespace Json

instance : Inhabited Json := ⟨.null⟩

/-- The text of an optional value, or `null`. -/
def ofText? : Option String → Json
  | none => .null
  | some s => .text s

/-- The object of a map's pairs, in order of the names. -/
def ofPairs (pairs : List (String × String)) : Json :=
  .object (pairs.map fun p => (p.1, .text p.2))

/-- The value of the first field with a given name. -/
def field? (name : String) : Json → Option Json
  | .object fields => fields.lookup name
  | _ => none

end Json

end CloudCodec
