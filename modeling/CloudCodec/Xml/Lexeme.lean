/-
# The pieces of a document

A document is cut from left to right into pieces: runs of character data, references, CDATA
sections, tags, and pieces that mean nothing (comments, processing instructions, the document
type). Where a piece ends does not depend on what came before it.
-/
import CloudCodec.Xml.Doctype

namespace CloudCodec.Xml

/-- A piece of a document, in bytes. -/
inductive Lexeme
  /-- A run of character data. -/
  | text (bytes : List UInt8)
  /-- What stands between the `&` and the `;` of a reference. -/
  | reference (bytes : List UInt8)
  /-- What stands inside a CDATA section. -/
  | verbatim (bytes : List UInt8)
  /-- A piece without meaning. -/
  | remark
  /-- What stands between the `<` and the `>` of a start tag, or of an empty element, whose
  closing slash is left out. -/
  | startTag (content : List UInt8) (isEmpty : Bool)
  /-- What stands between the `</` and the `>` of an end tag. -/
  | endTag (content : List UInt8)
  deriving DecidableEq, Repr

namespace Lexeme

/-- Whether a byte continues a run of character data. -/
def isText (b : UInt8) : Bool := b != Ascii.less && b != Ascii.ampersand

/-- Whether a byte continues a reference. -/
def isReference (b : UInt8) : Bool := isText b && b != Ascii.semicolon

/-- The reference whose `&` was read. -/
def reference? (bytes : List UInt8) : Except Fault (Lexeme × List UInt8) :=
  match bytes.dropWhile isReference with
  | [] => .error .openReference
  | b :: after =>
    if b = Ascii.semicolon then .ok (.reference (bytes.takeWhile isReference), after)
    else .error .openReference

/-- The start tag or empty element with a given content. -/
def ofTag (content : List UInt8) : Lexeme :=
  if content.getLast? = some Ascii.slash then .startTag content.dropLast true
  else .startTag content false

/-- The tag whose `<`, or `</`, was read, and what follows it. -/
def tag (make : List UInt8 → Lexeme) (bytes : List UInt8) : Except Fault (Lexeme × List UInt8) :=
  match splitTag bytes with
  | .ok (content, after) => .ok (make content, after)
  | .error construct => .error (.unclosed construct)

/-- Whether a processing instruction whose `<?` was read is an XML declaration. -/
def isDeclaration (bytes : List UInt8) : Bool :=
  (Ascii.bytes "xml").isPrefixOf bytes
    && (bytes.drop 3).head?.all fun b => Ascii.isBlank b || b == Ascii.question

/-- What follows the processing instruction whose `<?` was read. The question mark of the opening
does not count for the end. -/
def instruction (bytes : List UInt8) : Except Fault (Lexeme × List UInt8) :=
  let fault := Fault.unclosed (if isDeclaration bytes then .declaration else .instruction)
  if bytes.head? = some Ascii.greater then .error fault
  else
    match Ascii.cut? (Ascii.bytes "?>") bytes with
    | some (_, after) => .ok (.remark, after)
    | none => .error fault

/-- The CDATA section whose `<![` was read. -/
def cdata (bytes : List UInt8) : Except Fault (Lexeme × List UInt8) :=
  if (Ascii.bytes "CDATA[").isPrefixOf bytes then
    match Ascii.cut? (Ascii.bytes "]]>") (bytes.drop 6) with
    | some (content, after) => .ok (.verbatim content, after)
    | none => .error (.unclosed .cdata)
  else .error (.unclosed .cdata)

/-- What follows the comment whose `<!-` was read. -/
def comment (bytes : List UInt8) : Except Fault (Lexeme × List UInt8) :=
  if bytes.head? = some Ascii.hyphen then
    match Ascii.cut? (Ascii.bytes "-->") (bytes.drop 1) with
    | some (_, after) => .ok (.remark, after)
    | none => .error (.unclosed .comment)
  else .error (.unclosed .comment)

/-- What follows the document type declaration whose `<!` was read, in letters of any case. -/
def doctype (bytes : List UInt8) : Except Fault (Lexeme × List UInt8) :=
  if (bytes.take 7).map Ascii.lower = Ascii.bytes "doctype" then
    (Doctype.skip (bytes.drop 7)).map fun after => (.remark, after)
  else .error (.unclosed .doctype)

/-- The piece whose `<!` was read. -/
def declaration (bytes : List UInt8) : Except Fault (Lexeme × List UInt8) :=
  match bytes with
  | [] => .error .unknownMarkup
  | b :: rest =>
    if b = Ascii.openBracket then cdata rest
    else if b = Ascii.hyphen then comment rest
    else if Ascii.lower b = 0x64 then doctype bytes
    else .error .unknownMarkup

/-- The piece whose `<` was read. -/
def markup (bytes : List UInt8) : Except Fault (Lexeme × List UInt8) :=
  match bytes with
  | [] => tag ofTag []
  | b :: rest =>
    if b = Ascii.exclamation then declaration rest
    else if b = Ascii.question then instruction rest
    else if b = Ascii.slash then tag .endTag rest
    else tag ofTag bytes

/-- The first piece of a document that begins with the byte `b`, and what follows it. -/
def next (b : UInt8) (rest : List UInt8) : Except Fault (Lexeme × List UInt8) :=
  if b = Ascii.less then markup rest
  else if b = Ascii.ampersand then reference? rest
  else .ok (.text (b :: rest.takeWhile isText), rest.dropWhile isText)

/-! ### A piece is never empty -/

theorem length_of_reference? {bytes : List UInt8} {r : Lexeme × List UInt8}
    (h : reference? bytes = .ok r) : r.2.length ≤ bytes.length := by
  unfold reference? at h
  split at h
  · simp at h
  · rename_i b after hb
    split at h
    · cases h
      have := (List.dropWhile_suffix (l := bytes) isReference).length_le
      rw [hb, List.length_cons] at this
      exact Nat.le_of_succ_le this
    · simp at h

theorem length_of_tag {make : List UInt8 → Lexeme} {bytes : List UInt8} {r : Lexeme × List UInt8}
    (h : tag make bytes = .ok r) : r.2.length ≤ bytes.length := by
  unfold tag at h
  split at h
  · rename_i content after hs
    cases h
    exact Nat.le_of_lt (length_of_splitTag hs)
  · simp at h

theorem length_of_instruction {bytes : List UInt8} {r : Lexeme × List UInt8}
    (h : instruction bytes = .ok r) : r.2.length ≤ bytes.length := by
  unfold instruction at h
  simp only at h
  split at h
  · simp at h
  · split at h
    · rename_i hc
      cases h
      exact Ascii.length_of_cut? hc
    · simp at h

theorem length_of_cdata {bytes : List UInt8} {r : Lexeme × List UInt8}
    (h : cdata bytes = .ok r) : r.2.length ≤ bytes.length := by
  unfold cdata at h
  split at h
  · split at h
    · rename_i hc
      cases h
      exact Nat.le_trans (Ascii.length_of_cut? hc) (by simp)
    · simp at h
  · simp at h

theorem length_of_comment {bytes : List UInt8} {r : Lexeme × List UInt8}
    (h : comment bytes = .ok r) : r.2.length ≤ bytes.length := by
  unfold comment at h
  split at h
  · split at h
    · rename_i hc
      cases h
      exact Nat.le_trans (Ascii.length_of_cut? hc) (by simp)
    · simp at h
  · simp at h

theorem length_of_doctype {bytes : List UInt8} {r : Lexeme × List UInt8}
    (h : doctype bytes = .ok r) : r.2.length ≤ bytes.length := by
  unfold doctype at h
  split at h
  · cases hs : Doctype.skip (bytes.drop 7) with
    | error f => simp [hs, Except.map] at h
    | ok after =>
      simp only [hs, Except.map, Except.ok.injEq] at h
      cases h
      exact Nat.le_trans (Doctype.length_of_skip hs) (by simp)
  · simp at h

theorem length_of_declaration {bytes : List UInt8} {r : Lexeme × List UInt8}
    (h : declaration bytes = .ok r) : r.2.length ≤ bytes.length := by
  unfold declaration at h
  split at h
  · simp at h
  · split at h
    · exact Nat.le_succ_of_le (length_of_cdata h)
    · split at h
      · exact Nat.le_succ_of_le (length_of_comment h)
      · split at h
        · exact length_of_doctype h
        · simp at h

theorem length_of_markup {bytes : List UInt8} {r : Lexeme × List UInt8}
    (h : markup bytes = .ok r) : r.2.length ≤ bytes.length := by
  unfold markup at h
  split at h
  · exact length_of_tag h
  · split at h
    · exact Nat.le_succ_of_le (length_of_declaration h)
    · split at h
      · exact Nat.le_succ_of_le (length_of_instruction h)
      · split at h
        · exact Nat.le_succ_of_le (length_of_tag h)
        · exact length_of_tag h

/-- What follows the first piece of a document is shorter than the document. -/
theorem length_of_next {b : UInt8} {rest : List UInt8} {r : Lexeme × List UInt8}
    (h : next b rest = .ok r) : r.2.length ≤ rest.length := by
  unfold next at h
  split at h
  · exact length_of_markup h
  · split at h
    · exact length_of_reference? h
    · cases h
      exact (List.dropWhile_suffix isText).length_le

end Lexeme

end CloudCodec.Xml
