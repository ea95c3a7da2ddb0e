/-
# Settings of a decoding

How texts are trimmed and how deep a document may nest, with the two environment variables that
set them.
-/
import CloudCodec.Numeral.Integer

namespace CloudCodec.Decode

/-- The settings of a decoding. -/
structure Settings where
  /-- Whether texts lose the white space at their ends. -/
  trim : Bool := true
  /-- The deepest nesting of elements that is accepted, where there is a limit. -/
  maxDepth : Option Nat := none
  deriving DecidableEq, Repr

namespace Settings

/-- The variable that switches trimming. -/
def trimVariable : String := "EC2WIRE_XML_TRIM_TEXT"

/-- The variable that limits the nesting. -/
def depthVariable : String := "EC2WIRE_XML_MAX_DEPTH"

/-- The texts that switch something on. -/
def affirmatives : List String := ["1", "true", "yes", "TRUE", "YES"]

/-- The settings of an environment. A variable that is not set, and a limit that is no number,
leave the default. -/
def ofEnvironment (lookUp : String → Option String) : Settings where
  trim := (lookUp trimVariable).all affirmatives.contains
  maxDepth := ((lookUp depthVariable).bind Numeral.Word.u64.read?).map Int.toNat

end Settings

end CloudCodec.Decode
