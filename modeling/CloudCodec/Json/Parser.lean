/-
# Reading JSON

A value is built from its tokens with the open arrays and objects on a stack. Each phase of the
reading admits exactly the tokens that may follow, so that no comma stands without a value
behind it and nothing stands behind the value.
-/
import CloudCodec.Json.Basic
import CloudCodec.Json.Token

namespace CloudCodec.Json

/-- An array or object whose closing bracket was not read yet. -/
inductive Container
  /-- An array with its elements so far, last one first. -/
  | array (elements : List Json)
  /-- An object with its fields so far, last one first, or nothing once a name spelled no text,
  and the name of the field that comes next. -/
  | object (fields : Option (List (String × Json))) (name : Option String)

/-- What may follow. -/
inductive Phase
  /-- A value. -/
  | value
  /-- An element or the end of an array. -/
  | elementOrEnd
  /-- A field name or the end of an object. -/
  | nameOrEnd
  /-- A field name. -/
  | name
  /-- The colon behind a field name. -/
  | colon
  /-- A comma or the end of the innermost array or object. -/
  | commaOrEnd
  /-- Nothing: the value is complete. -/
  | complete (value : Json)

/-- A JSON text read so far: the open containers, innermost first, and what may follow. -/
structure Reading where
  /-- The open containers. -/
  containers : List Container
  /-- What may follow. -/
  phase : Phase

namespace Reading

/-- The reading of nothing. -/
def start : Reading := ⟨[], .value⟩

/-- The reading behind a complete value inside some containers. -/
def put (value : Json) : List Container → Reading
  | [] => ⟨[], .complete value⟩
  | .array elements :: outer => ⟨.array (value :: elements) :: outer, .commaOrEnd⟩
  | .object fields name :: outer =>
    let fields := fields.bind fun fields => name.map fun name => (name, value) :: fields
    ⟨.object fields none :: outer, .commaOrEnd⟩

/-- The value of a container that closes. -/
def close : Container → Json
  | .array elements => .array elements.reverse
  | .object (some fields) _ => .object fields.reverse
  | .object none _ => .unreadable

/-- The reading behind a token that begins a value. -/
def begin? (containers : List Container) : Token → Option Reading
  | .openArray => some ⟨.array [] :: containers, .elementOrEnd⟩
  | .openObject => some ⟨.object (some []) none :: containers, .nameOrEnd⟩
  | .null => some (put .null containers)
  | .boolean b => some (put (.boolean b) containers)
  | .integer n => some (put (.integer n) containers)
  | .real spelling => some (put (.real spelling) containers)
  | .text (some s) => some (put (.text s) containers)
  | .text none => some (put .unreadable containers)
  | _ => none

/-- The reading behind a field name. -/
def named? : List Container → Option String → Option Reading
  | .object fields _ :: outer, some name => some ⟨.object fields (some name) :: outer, .colon⟩
  | .object _ _ :: outer, none => some ⟨.object none none :: outer, .colon⟩
  | _, _ => none

/-- The reading behind one more token. -/
def next? (r : Reading) (token : Token) : Option Reading :=
  match r.phase, token, r.containers with
  | .value, token, containers => begin? containers token
  | .elementOrEnd, .closeArray, c :: outer => some (put (close c) outer)
  | .elementOrEnd, token, containers => begin? containers token
  | .nameOrEnd, .closeObject, c :: outer => some (put (close c) outer)
  | .nameOrEnd, .text name, containers => named? containers name
  | .name, .text name, containers => named? containers name
  | .colon, .colon, containers => some ⟨containers, .value⟩
  | .commaOrEnd, .comma, .array elements :: outer => some ⟨.array elements :: outer, .value⟩
  | .commaOrEnd, .comma, .object fields name :: outer =>
    some ⟨.object fields name :: outer, .name⟩
  | .commaOrEnd, .closeArray, .array elements :: outer =>
    some (put (close (.array elements)) outer)
  | .commaOrEnd, .closeObject, .object fields name :: outer =>
    some (put (close (.object fields name)) outer)
  | _, _, _ => none

end Reading

/-- The value of a JSON text. -/
def parse? (text : String) : Option Json := do
  let tokens ← Token.scan? text
  let reading ← tokens.foldlM Reading.next? Reading.start
  match reading.phase with
  | .complete value => some value
  | _ => none

end CloudCodec.Json
