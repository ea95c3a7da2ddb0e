/-
# Sets of parameters

A parameter has a name and a value, and a name occurs once. Adding refuses a name that is there
already, so nothing that was added is ever lost. The query text of a set lists its parameters in
the order of their names, with every byte escaped that is not unreserved in a URL.
-/
import CloudCodec.Parameter.Error
import CloudCodec.Text.Utf8
import CloudCodec.TextMap

namespace CloudCodec

/-- Parameters by name. -/
abbrev ParameterSet := TextMap

namespace ParameterSet

open Parameter (Error)

/-- The set with a parameter whose name is new. -/
def add (set : ParameterSet) (name value : String) : Except Error ParameterSet :=
  if set.contains name then .error (.duplicateName name) else .ok (set.insert name value)

/-- The set with several parameters, added one after the other. -/
def addAll (set : ParameterSet) : List (String × String) → Except Error ParameterSet
  | [] => .ok set
  | (name, value) :: rest =>
    match set.add name value with
    | .ok set => set.addAll rest
    | .error e => .error e

/-- The set with the parameters of another one, all of whose names are new. -/
def merge (set other : ParameterSet) : Except Error ParameterSet :=
  match other.names.find? set.contains with
  | some name => .error (.duplicateName name)
  | none => .ok (set.insertMany other.entries)

/-! ### Query text -/

/-- Whether a byte stands for itself in a query. -/
def isUnreserved (b : UInt8) : Bool :=
  let n := b.toNat
  (0x41 ≤ n && n ≤ 0x5A) || (0x61 ≤ n && n ≤ 0x7A) || (0x30 ≤ n && n ≤ 0x39)
    || n == 0x2D || n == 0x5F || n == 0x2E || n == 0x7E

/-- A hexadecimal digit in upper case. -/
def hexDigit (n : Nat) : Char := Char.ofNat (if n < 10 then 0x30 + n else 0x37 + n)

/-- A byte in a query. -/
def queryByte (b : UInt8) : List Char :=
  if isUnreserved b then [Char.ofNat b.toNat]
  else ['%', hexDigit (b.toNat / 16), hexDigit (b.toNat % 16)]

/-- A text in a query. -/
def queryText (s : String) : List Char := (Utf8.encode s).flatMap queryByte

/-- A parameter in a query. -/
def queryPair (p : String × String) : List Char := queryText p.1 ++ '=' :: queryText p.2

/-- The query text of a set. -/
def query (set : ParameterSet) : String :=
  String.ofList (List.intercalate ['&'] (set.entries.map queryPair))

end ParameterSet

end CloudCodec
