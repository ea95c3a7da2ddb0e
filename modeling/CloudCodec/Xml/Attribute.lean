/-
# Attributes

The attributes of a start tag, read one after the other from what follows the name of the
element. A fault names the place of a byte in the content of the tag; since what remains to be
read is always an end of that content, the place is a difference of two lengths.
-/
import CloudCodec.Text.Ascii
import CloudCodec.TextMap
import CloudCodec.Xml.Reference

namespace CloudCodec.Xml

/-- The attributes of an element by name. -/
abbrev Attributes := TextMap

namespace Attribute

/-- An attribute as it is written. -/
structure Raw where
  /-- The name. -/
  name : List UInt8
  /-- What stands between the quotes. -/
  value : List UInt8
  deriving DecidableEq, Repr

/-- Whether a byte continues an attribute name. -/
def isNamePart (b : UInt8) : Bool := b != Ascii.equals && !Ascii.isBlank b

/-- The place in the content of a tag at which its end `rest` begins. -/
def place (content rest : List UInt8) : Nat := content.length - rest.length

/-- The text that bytes outside character data spell. -/
def spelled (bytes : List UInt8) : Except Fault String :=
  (Utf8.decode bytes).mapError .notUtf8

/-- The value behind the equals sign of an attribute, and what follows it. -/
def value (content bytes : List UInt8) : Except Fault (List UInt8 × List UInt8) :=
  match bytes.dropWhile Ascii.isBlank with
  | [] => .error (.noValue content.length)
  | q :: rest =>
    if Ascii.isQuote q then
      match Ascii.cut? [q] rest with
      | some r => .ok r
      | none =>
        .error (.openValue content.length
          (if q = Ascii.quote then .doubleQuoted else .singleQuoted))
    else .error (.unquotedValue (place content (q :: rest)))

/-- The attribute that begins with the byte `b`, and what follows it. The names seen before are
given with the ends of the content at which they begin. -/
def next (content : List UInt8) (seen : List (List UInt8 × List UInt8)) (b : UInt8)
    (rest : List UInt8) : Except Fault (Raw × List UInt8) :=
  let name := b :: rest.takeWhile isNamePart
  match (rest.dropWhile isNamePart).dropWhile Ascii.isBlank with
  | [] => .error (.noEquals content.length)
  | e :: after =>
    if e = Ascii.equals then
      match seen.lookup name with
      | some first => .error (.repeatedAttribute (place content (b :: rest)) (place content first))
      | none => (value content after).map fun r => (⟨name, r.1⟩, r.2)
    else .error (.noEquals (place content (e :: after)))

theorem length_of_value {content bytes : List UInt8} {r : List UInt8 × List UInt8}
    (h : value content bytes = .ok r) : r.2.length ≤ bytes.length := by
  unfold value at h
  split at h
  · simp at h
  · rename_i q rest hq
    split at h
    · split at h
      · rename_i hc
        cases h
        have := (List.dropWhile_suffix (l := bytes) Ascii.isBlank).length_le
        rw [hq, List.length_cons] at this
        have := Ascii.length_of_cut? hc
        omega
      · simp at h
    · simp at h

/-- What follows an attribute is shorter than the attribute with it. -/
theorem length_of_next {content : List UInt8} {seen : List (List UInt8 × List UInt8)} {b : UInt8}
    {rest : List UInt8} {r : Raw × List UInt8} (h : next content seen b rest = .ok r) :
    r.2.length ≤ rest.length := by
  unfold next at h
  simp only at h
  split at h
  · simp at h
  · rename_i e after he
    split at h
    · split at h
      · simp at h
      · cases hv : value content after with
        | error f => simp [hv, Except.map] at h
        | ok v =>
          simp only [hv, Except.map, Except.ok.injEq] at h
          cases h
          have h₁ := (List.dropWhile_suffix (l := rest) isNamePart).length_le
          have h₂ := (List.dropWhile_suffix (l := rest.dropWhile isNamePart)
            Ascii.isBlank).length_le
          rw [he, List.length_cons] at h₂
          have := length_of_value hv
          change v.2.length ≤ rest.length
          omega
    · simp at h

/-- The name and the value of an attribute, references replaced. -/
def Raw.resolve (raw : Raw) : Except Fault (String × String) := do
  let name ← spelled raw.name
  let value ← spelled raw.value
  let value ← Reference.expand value
  return (name, value)

/-- The attributes in `bytes`, the end of the content of a tag, together with those of `done`. -/
def readFrom (content : List UInt8) (seen : List (List UInt8 × List UInt8)) (done : Attributes)
    (bytes : List UInt8) : Except Fault Attributes :=
  match _h : bytes.dropWhile Ascii.isBlank with
  | [] => .ok done
  | b :: rest =>
    match _h' : next content seen b rest with
    | .error fault => .error fault
    | .ok (raw, after) =>
      match raw.resolve with
      | .error fault => .error fault
      | .ok (name, value) =>
        readFrom content ((raw.name, b :: rest) :: seen) (done.insert name value) after
termination_by bytes.length
decreasing_by
  have := (List.dropWhile_suffix (l := bytes) Ascii.isBlank).length_le
  rw [_h, List.length_cons] at this
  have := length_of_next _h'
  simp only at this
  omega

/-- The attributes in `bytes`, the end of the content of a tag. -/
def read (content bytes : List UInt8) : Except Fault Attributes := readFrom content [] ∅ bytes

end Attribute

end CloudCodec.Xml
