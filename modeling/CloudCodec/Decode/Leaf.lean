/-
# Values of leaves

The text of a leaf is kept as it is or read as a boolean, an integer of bounded width or an exact
decimal. A text outside the domain is refused together with the name of its field.
-/
import CloudCodec.Decode.Error
import CloudCodec.Numeral.Decimal
import CloudCodec.Numeral.Integer

namespace CloudCodec.Decode

/-- The value of a boolean field: one of the two words and nothing else. -/
def readBoolean (field text : String) : Except Error Bool :=
  if text = "true" then .ok true
  else if text = "false" then .ok false
  else .error (.unexpectedValue field text .boolean)

/-- A boolean field takes two texts. -/
theorem readBoolean_eq_ok_iff {field text : String} {b : Bool} :
    readBoolean field text = .ok b ↔ text = "true" ∧ b = true ∨ text = "false" ∧ b = false := by
  unfold readBoolean
  split
  · rename_i htrue
    subst htrue
    cases b <;> simp
  · rename_i htrue
    split
    · rename_i hfalse
      subst hfalse
      cases b <;> simp
    · rename_i hfalse
      simp [htrue, hfalse]

/-- Every other text is refused together with the name of the field. -/
theorem readBoolean_eq_error_iff {field text : String} {e : Error} :
    readBoolean field text = .error e ↔
      text ≠ "true" ∧ text ≠ "false" ∧ e = .unexpectedValue field text .boolean := by
  unfold readBoolean
  split
  · rename_i htrue
    simp [htrue]
  · rename_i htrue
    split
    · rename_i hfalse
      simp [hfalse]
    · rename_i hfalse
      simp [htrue, hfalse, eq_comm]

/-- The value of an integer field. -/
def readInteger (word : Numeral.Word) (field text : String) : Except Error Int :=
  match word.read? text with
  | some n => .ok n
  | none => .error (.unexpectedValue field text .integer)

/-- The value of a decimal field. -/
def readDecimal (field text : String) : Except Error Numeral.Decimal :=
  match Numeral.Decimal.read? text with
  | some d => .ok d
  | none => .error (.unexpectedValue field text .decimal)

/-- What the text of a leaf is read as. -/
inductive Kind
  | text
  | boolean
  | integer (word : Numeral.Word)
  | decimal
  deriving DecidableEq, Repr

/-- The value of a leaf. -/
inductive Scalar
  | text (s : String)
  | boolean (b : Bool)
  | integer (n : Int)
  | decimal (d : Numeral.Decimal)
  deriving DecidableEq, Repr

/-- The value of a field of a given kind. -/
def Kind.read (kind : Kind) (field text : String) : Except Error Scalar :=
  match kind with
  | .text => .ok (.text text)
  | .boolean => (readBoolean field text).map .boolean
  | .integer word => (readInteger word field text).map .integer
  | .decimal => (readDecimal field text).map .decimal

end CloudCodec.Decode
