/-
# Errors of a decoding

A decoding fails because the document is not well formed, because a text lies outside the domain
of its field, because elements nest too deep, or because a receiver cannot find the child to
which it sent an element.
-/
import CloudCodec.Text.Quoted
import CloudCodec.Xml.Fault

namespace CloudCodec.Decode

/-- The texts that a field accepts. -/
inductive Domain
  | boolean
  | integer
  | decimal
  /-- No text at all. -/
  | nothing
  deriving DecidableEq, Repr

/-- The wording of a domain. -/
def Domain.message : Domain → String
  | .boolean => "true or false"
  | .integer => "an integer"
  | .decimal => "a decimal"
  | .nothing => "nothing"

/-- Why a decoding failed. -/
inductive Error
  /-- The document is not well formed. -/
  | malformed (fault : Xml.Fault)
  /-- A text lies outside the domain of its field. -/
  | unexpectedValue (field text : String) (domain : Domain)
  /-- Elements nest deeper than the limit. -/
  | depthExceeded (limit : Nat)
  /-- The child that claimed an element of this name cannot be found. -/
  | detachedChild (name : String)
  deriving DecidableEq, Repr

/-- The wording of an error. -/
def Error.message : Error → String
  | .malformed fault => "malformed XML document: " ++ fault.message
  | .unexpectedValue field text domain =>
    "unexpected value " ++ Text.quoted text ++ " for field " ++ field ++ " (expected "
      ++ domain.message ++ ")"
  | .depthExceeded limit =>
    "document nesting exceeds the configured limit of " ++ toString limit ++ " elements"
  | .detachedChild name =>
    "delegate lost track of the child it claimed for <" ++ name ++ ">"

end CloudCodec.Decode
