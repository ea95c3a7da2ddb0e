/-
# References

What a reference stands for: a character given by its number, or one of the five characters
that have a name in every document. A document declares no names of its own, since no document
type is read.
-/
import CloudCodec.Numeral.Digits
import CloudCodec.Xml.Fault

namespace CloudCodec.Xml.Reference

/-- The number that digits denote behind `n`, while it fits 32 bits. -/
def numberFrom (radix n : Nat) : List Char → Except CharacterFault Nat
  | [] => .ok n
  | c :: rest =>
    match Numeral.digit? radix c with
    | none => .error .badDigit
    | some d =>
      let n := n * radix + d
      if n < 4294967296 then numberFrom radix n rest else .error .tooLarge

/-- The number that one or more digits without a sign denote. -/
def number (radix : Nat) : List Char → Except CharacterFault Nat
  | [] => .error .noDigits
  | '+' :: _ => .error .signed
  | '-' :: _ => .error .signed
  | cs => numberFrom radix 0 cs

/-- The character with a number. -/
def ofNumber (n : Nat) : Except CharacterFault Char :=
  if n = 0 then .error .zero
  else if n.isValidChar then .ok (Char.ofNat n)
  else .error (.noCodePoint n)

/-- The character that the part of a reference behind `#` denotes: decimal digits, or
hexadecimal ones behind an `x`. -/
def character : List Char → Except CharacterFault Char
  | 'x' :: digits => (number 16 digits).bind ofNumber
  | digits => (number 10 digits).bind ofNumber

/-- The character that a predefined name stands for. -/
def predefined? (name : String) : Option String :=
  if name = "lt" then some "<"
  else if name = "gt" then some ">"
  else if name = "amp" then some "&"
  else if name = "apos" then some "'"
  else if name = "quot" then some "\""
  else none

/-- What the text between `&` and `;` stands for; `unknown` is the fault of a name that is not
predefined. -/
def meaning (unknown : Fault) (name : String) : Except Fault String :=
  match name.toList with
  | '#' :: digits =>
    match character digits with
    | .ok c => .ok c.toString
    | .error fault => .error (.badCharacter fault)
  | _ =>
    match predefined? name with
    | some text => .ok text
    | none => .error unknown

/-! ### References in attribute values -/

/-- Whether a character continues the name of a reference. -/
def isNamePart (c : Char) : Bool := c != '&' && c != ';'

/-- The number of bytes that characters take. -/
def byteCount (cs : List Char) : Nat := cs.foldl (fun n c => n + c.utf8Size) 0

/-- The characters with every reference replaced by what it stands for, behind `done`. The
characters begin at byte `start` of a value of `size` bytes. -/
def expandFrom (size start : Nat) (done : String) (cs : List Char) : Except Fault String :=
  match cs with
  | [] => .ok done
  | c :: rest =>
    if c = '&' then
      let name := rest.takeWhile isNamePart
      let stop := start + 1 + byteCount name
      match _h : rest.dropWhile isNamePart with
      | [] => .error (.openValueReference start size)
      | d :: after =>
        if d = ';' then
          let name := String.ofList name
          match meaning (.unknownValueEntity (start + 1) stop name) name with
          | .ok text => expandFrom size (stop + 1) (done ++ text) after
          | .error fault => .error fault
        else .error (.openValueReference start size)
    else expandFrom size (start + c.utf8Size) (done.push c) rest
termination_by cs.length
decreasing_by
  · have := (List.dropWhile_suffix (l := rest) isNamePart).length_le
    simp only [_h, List.length_cons] at this ⊢
    omega
  · simp

/-- A value with every reference replaced by what it stands for. -/
def expand (value : String) : Except Fault String :=
  expandFrom value.utf8ByteSize 0 "" value.toList

end CloudCodec.Xml.Reference
