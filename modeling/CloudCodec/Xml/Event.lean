/-
# The events of a document

A document is told as the list of its element boundaries in order. The closing of an element
carries the character data since the last tag before it, so that a leaf closes with its whole
text. Anything not well formed is found here, before anyone sees an event.
-/
import CloudCodec.Text.Blank
import CloudCodec.Xml.Attribute
import CloudCodec.Xml.Lexeme

namespace CloudCodec.Xml

/-- The boundary of an element. -/
inductive Event
  /-- An element opens. -/
  | opening (name : String) (attributes : Attributes)
  /-- An element closes behind some character data. -/
  | closing (name text : String)
  deriving DecidableEq

/-- The name of the element that an event belongs to. -/
def Event.name : Event → String
  | .opening name _ => name
  | .closing name _ => name

/-- A document read so far. -/
structure Progress where
  /-- The names of the open elements, innermost first. -/
  path : List String
  /-- The character data since the last tag. -/
  text : String
  /-- Whether the root element was opened. -/
  hasRoot : Bool
  /-- The events, last one first. -/
  events : List Event

namespace Progress

/-- The progress before the first byte. -/
def start : Progress := ⟨[], "", false, []⟩

/-- The progress with more character data inside the root element. -/
def addText (p : Progress) (text : String) : Progress := { p with text := p.text ++ text }

/-- The progress behind a run of character data. -/
def onText (p : Progress) (bytes : List UInt8) : Except Fault Progress := do
  let text ← (Utf8.decode bytes).mapError .textNotUtf8
  if p.path.isEmpty then
    if Text.isAllBlank text then return p else throw .textOutsideRoot
  else
    return p.addText text

/-- The progress behind a reference. Outside the root element it is not read. -/
def onReference (p : Progress) (bytes : List UInt8) : Except Fault Progress := do
  if p.path.isEmpty then
    return p
  else
    let name ← (Utf8.decode bytes).mapError .textNotUtf8
    let text ← Reference.meaning (.unknownEntity name) name
    return p.addText text

/-- The progress behind a CDATA section. Outside the root element it is not read. -/
def onVerbatim (p : Progress) (bytes : List UInt8) : Except Fault Progress := do
  if p.path.isEmpty then
    return p
  else
    let text ← Attribute.spelled bytes
    return p.addText text

/-- Whether a byte continues the name of an element. -/
def isNamePart (b : UInt8) : Bool := !Ascii.isBlank b

/-- The progress behind a start tag or an empty element. -/
def onStartTag (p : Progress) (content : List UInt8) (isEmpty : Bool) :
    Except Fault Progress := do
  if p.path.isEmpty && p.hasRoot then
    throw .secondRoot
  let name ← Attribute.spelled (content.takeWhile isNamePart)
  let attributes ← Attribute.read content (content.dropWhile isNamePart)
  let events := .opening name attributes :: p.events
  if isEmpty then
    return ⟨p.path, "", true, .closing name "" :: events⟩
  else
    return ⟨name :: p.path, "", true, events⟩

/-- Bytes without the blanks at their end; nothing but blanks is kept. -/
def endTagName (content : List UInt8) : List UInt8 :=
  if content.all Ascii.isBlank then content
  else (content.reverse.dropWhile Ascii.isBlank).reverse

/-- The progress behind an end tag. A name that is not UTF-8 closes nothing and is not shown. -/
def onEndTag (trim : Bool) (p : Progress) (content : List UInt8) : Except Fault Progress :=
  let found := (Utf8.decode (endTagName content)).toOption
  match p.path with
  | [] => .error (.strayEndTag (found.getD ""))
  | name :: path =>
    if found = some name then
      let text := if trim then Text.trim p.text else p.text
      .ok ⟨path, "", p.hasRoot, .closing name text :: p.events⟩
    else .error (.wrongEndTag name (found.getD ""))

/-- The progress behind one more piece of the document. -/
def step (trim : Bool) (p : Progress) : Lexeme → Except Fault Progress
  | .text bytes => p.onText bytes
  | .reference bytes => p.onReference bytes
  | .verbatim bytes => p.onVerbatim bytes
  | .remark => .ok p
  | .startTag content isEmpty => p.onStartTag content isEmpty
  | .endTag content => p.onEndTag trim content

/-- The progress behind all of the bytes. -/
def read (trim : Bool) (p : Progress) (bytes : List UInt8) : Except Fault Progress :=
  match bytes with
  | [] => .ok p
  | b :: rest =>
    match _h : Lexeme.next b rest with
    | .error fault => .error fault
    | .ok (lexeme, after) =>
      match p.step trim lexeme with
      | .error fault => .error fault
      | .ok p => p.read trim after
termination_by bytes.length
decreasing_by
  have := Lexeme.length_of_next _h
  simp only [List.length_cons] at this ⊢
  omega

/-- The events of a document that ends here. -/
def finish (p : Progress) : Except Fault (List Event) :=
  match p.path with
  | name :: _ => .error (.unclosedElement name)
  | [] => if p.hasRoot then .ok p.events.reverse else .error .noRoot

end Progress

/-- Bytes without the mark that may open a UTF-8 document. -/
def withoutMark (bytes : List UInt8) : List UInt8 :=
  if [0xEF, 0xBB, 0xBF].isPrefixOf bytes then bytes.drop 3 else bytes

/-- The events of a document, with the texts trimmed or as they are. -/
def Event.ofDocument (trim : Bool) (bytes : List UInt8) : Except Fault (List Event) :=
  (Progress.start.read trim (withoutMark bytes)).bind Progress.finish

end CloudCodec.Xml
