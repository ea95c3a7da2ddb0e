/-
# What can be wrong with a document

Each way in which a document fails to be well formed is a cause of its own; the wording of all
of them is one function.
-/
import CloudCodec.Text.Utf8

namespace CloudCodec.Xml

/-- Why a character reference denotes no character. -/
inductive CharacterFault
  /-- The number begins with a sign. -/
  | signed
  /-- There are no digits. -/
  | noDigits
  /-- A character is not a digit of the radix. -/
  | badDigit
  /-- The number does not fit 32 bits. -/
  | tooLarge
  /-- The number is zero. -/
  | zero
  /-- The number is a surrogate or lies behind the last code point. -/
  | noCodePoint (n : Nat)
  deriving DecidableEq, Repr

/-- The wording of a fault in a character reference. -/
def CharacterFault.message : CharacterFault → String
  | .signed => "unexpected number sign"
  | .noDigits => "cannot parse integer from empty string"
  | .badDigit => "invalid digit found in string"
  | .tooLarge => "number too large to fit in target type"
  | .zero => "0x0 character is not permitted in XML"
  | .noCodePoint n => "`" ++ toString n ++ "` is not a valid codepoint"

/-- The constructs that have an end of their own. -/
inductive Construct
  | cdata
  | comment
  | instruction
  | declaration
  | doctype
  | tag
  /-- An attribute value, or whatever a quote opened inside a tag. -/
  | doubleQuoted
  /-- The same with single quotes. -/
  | singleQuoted
  deriving DecidableEq, Repr

/-- The name of a construct and the mark that ends it. -/
def Construct.nameAndEnd : Construct → String × String
  | .cdata => ("CDATA", "]]>")
  | .comment => ("comment", "-->")
  | .instruction => ("processing instruction", "?>")
  | .declaration => ("XML declaration", "?>")
  | .doctype => ("DOCTYPE", ">")
  | .tag => ("tag", ">")
  | .doubleQuoted => ("attribute value", "\"")
  | .singleQuoted => ("attribute value", "'")

/-- Why bytes are no well-formed document. -/
inductive Fault
  /-- Character data or a reference is not UTF-8. -/
  | textNotUtf8 (fault : Utf8.Fault)
  /-- A name, an attribute value or a CDATA section is not UTF-8. -/
  | notUtf8 (fault : Utf8.Fault)
  /-- There is character data before or after the root element. -/
  | textOutsideRoot
  /-- A reference has no semicolon. -/
  | openReference
  /-- A reference names no predefined entity. -/
  | unknownEntity (name : String)
  /-- A reference denotes no character. -/
  | badCharacter (fault : CharacterFault)
  /-- A markup declaration is none of those that may occur. -/
  | unknownMarkup
  /-- A construct has no end. -/
  | unclosed (construct : Construct)
  /-- A document type declaration has no name. -/
  | namelessDoctype
  /-- An end tag closes nothing. -/
  | strayEndTag (name : String)
  /-- An end tag does not close the innermost open element. -/
  | wrongEndTag (opened found : String)
  /-- A second root element begins. -/
  | secondRoot
  /-- An attribute name is not followed by an equals sign. -/
  | noEquals (position : Nat)
  /-- An attribute name occurs a second time in its tag. -/
  | repeatedAttribute (position first : Nat)
  /-- A tag ends behind an equals sign. -/
  | noValue (position : Nat)
  /-- An attribute value has no quotes. -/
  | unquotedValue (position : Nat)
  /-- An attribute value has no closing quote of its kind. -/
  | openValue (position : Nat) (construct : Construct)
  /-- A reference in an attribute value has no semicolon. -/
  | openValueReference (start stop : Nat)
  /-- A reference in an attribute value names no predefined entity. -/
  | unknownValueEntity (start stop : Nat) (name : String)
  /-- The document ends inside an element. -/
  | unclosedElement (name : String)
  /-- The document has no element. -/
  | noRoot
  /-- An element closes that was not open. -/
  | unbalancedClose (name : String)
  deriving DecidableEq, Repr

/-- The wording of a fault. -/
def Fault.message : Fault → String
  | .textNotUtf8 fault => "cannot decode input using UTF-8: " ++ fault.message
  | .notUtf8 fault => fault.message
  | .textOutsideRoot => "character data outside the root element"
  | .openReference =>
    "ill-formed document: entity or character reference not closed: `;` not found before end of input"
  | .unknownEntity name => "unknown entity reference &" ++ name ++ ";"
  | .badCharacter fault => "invalid character reference: " ++ fault.message
  | .unknownMarkup => "syntax error: unknown or missed symbol in markup"
  | .unclosed construct =>
    "syntax error: " ++ construct.nameAndEnd.1 ++ " not closed: `" ++ construct.nameAndEnd.2
      ++ "` not found before end of input"
  | .namelessDoctype =>
    "ill-formed document: `<!DOCTYPE>` declaration does not contain a name of a document type"
  | .strayEndTag name =>
    "ill-formed document: close tag `</" ++ name ++ ">` does not match any open tag"
  | .wrongEndTag opened found =>
    "ill-formed document: expected `</" ++ opened ++ ">`, but `</" ++ found ++ ">` was found"
  | .secondRoot => "document has more than one root element"
  | .noEquals position =>
    "position " ++ toString position
      ++ ": attribute key must be directly followed by `=` or space"
  | .repeatedAttribute position first =>
    "position " ++ toString position
      ++ ": duplicated attribute, previous declaration at position " ++ toString first
  | .noValue position =>
    "position " ++ toString position ++ ": `=` must be followed by an attribute value"
  | .unquotedValue position =>
    "position " ++ toString position ++ ": attribute value must be enclosed in `\"` or `'`"
  | .openValue position construct =>
    "position " ++ toString position ++ ": missing closing quote `" ++ construct.nameAndEnd.2
      ++ "` in attribute value"
  | .openValueReference start stop =>
    "Error while escaping character at range " ++ toString start ++ ".." ++ toString stop
      ++ ": Cannot find ';' after '&'"
  | .unknownValueEntity start stop name =>
    "at " ++ toString start ++ ".." ++ toString stop ++ ": unrecognized entity `" ++ name ++ "`"
  | .unclosedElement name => "unclosed element <" ++ name ++ ">"
  | .noRoot => "document has no root element"
  | .unbalancedClose name => "unbalanced closing tag </" ++ name ++ ">"

end CloudCodec.Xml
