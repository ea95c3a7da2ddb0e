/-
# Errors of an encoding

A request is refused because a rule on one of its lists is broken, or because two of its
arguments would have the same name.
-/

namespace CloudCodec.Parameter

/-- How a rule on the items of a list is broken. -/
inductive Violation
  /-- More than one item sets the flag. -/
  | notUnique (list flag : String) (count : Nat)
  /-- An item sets the flag and is not alone. -/
  | notAlone (list flag : String) (count : Nat)
  /-- The item that sets the flag stands at the wrong position. -/
  | misplaced (list flag : String) (required found : Nat)
  /-- The item that sets the flag lacks a value in another field. -/
  | unmet (list flag field value : String)
  deriving DecidableEq, Repr

/-- The wording of a violation. -/
def Violation.message : Violation → String
  | .notUnique list flag count =>
    "only one " ++ list ++ " item may set " ++ flag ++ " (" ++ toString count ++ " do)"
  | .notAlone list flag count =>
    list ++ " item setting " ++ flag ++ " must be the only item (" ++ toString count ++ " given)"
  | .misplaced list flag required found =>
    list ++ " item setting " ++ flag ++ " must be at position " ++ toString required
      ++ ", found at " ++ toString found
  | .unmet list flag field value =>
    list ++ " item setting " ++ flag ++ " must have " ++ field ++ " " ++ value

/-- Why an encoding failed. -/
inductive Error
  /-- A rule is broken. -/
  | invalid (violation : Violation)
  /-- Two arguments have the same name. -/
  | duplicateName (name : String)
  deriving DecidableEq, Repr

/-- The wording of an error. -/
def Error.message : Error → String
  | .invalid violation => "client validation failed: " ++ violation.message
  | .duplicateName name => "duplicate parameter name: " ++ name

end CloudCodec.Parameter
