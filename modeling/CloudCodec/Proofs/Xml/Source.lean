/-
# Written documents

A document in the forms in which it may be written (`Source`): names, attribute values between
double quotes, and elements that hold either elements or character data in pieces.  The same text
has many forms: a character may stand for itself or be referred to by its name or number, a run
may be put into a CDATA section or be split by a comment, and an element without content has two
spellings.

Beside every form stand the text that is written (`render`) and what it means (`element`).  Neither
speaks of the reader, and every part carries the proof that it may be written as it is.
-/
import CloudCodec.Xml.Element
import CloudCodec.Proofs.TextMap
import Mathlib

namespace CloudCodec.Xml

/-! ### Names -/

/-- Whether a character may stand in a name. -/
def isNameChar (c : Char) : Bool := c.isAlphanum || c == '_' || c == '-' || c == '.' || c == ':'

/-- The name of an element or of an attribute. -/
structure Name where
  /-- The characters of the name. -/
  text : String
  /-- The first of them is an ASCII letter. -/
  begins : text.toList.head?.any Char.isAlpha = true
  /-- They are ASCII letters, digits and a few marks. -/
  continues : text.toList.all isNameChar = true
  deriving DecidableEq

/-! ### References -/

/-- A character that has a name in every document. -/
inductive Entity
  | less | greater | ampersand | apostrophe | quote
  deriving DecidableEq

/-- The name of such a character. -/
def Entity.name : Entity → String
  | .less => "lt"
  | .greater => "gt"
  | .ampersand => "amp"
  | .apostrophe => "apos"
  | .quote => "quot"

/-- The character itself. -/
def Entity.character : Entity → Char
  | .less => '<'
  | .greater => '>'
  | .ampersand => '&'
  | .apostrophe => '\''
  | .quote => '"'

/-- The radix of the number of a character. -/
inductive Radix
  | decimal | hexadecimal
  deriving DecidableEq

/-- The number of digits. -/
def Radix.base : Radix → Nat
  | .decimal => 10
  | .hexadecimal => 16

/-- What stands before the digits. -/
def Radix.mark : Radix → String
  | .decimal => ""
  | .hexadecimal => "x"

/-- A digit as it is written. -/
structure Digit (radix : Radix) where
  /-- What it is worth. -/
  value : Fin radix.base
  /-- Whether a letter is in upper case. -/
  isUpper : Bool
  deriving DecidableEq

/-- The character of a digit. -/
def Digit.char {radix : Radix} (d : Digit radix) : Char :=
  if d.isUpper then d.value.val.digitChar.toUpper else d.value.val.digitChar

/-- The number that digits denote behind the digits of `n`. -/
def Digit.numberFrom {radix : Radix} (n : Nat) (ds : List (Digit radix)) : Nat :=
  ds.foldl (fun n d => n * radix.base + d.value) n

/-- A reference to a character by its number. -/
structure CharacterReference where
  /-- The radix. -/
  radix : Radix
  /-- The digits. -/
  digits : List (Digit radix)
  /-- The character that is meant. -/
  character : Char
  /-- The digits denote its number. -/
  denotes : Digit.numberFrom 0 digits = character.toNat
  /-- Its number is not zero. -/
  ne_zero : character.toNat ≠ 0

/-- The part of a reference between `&` and `;`. -/
def CharacterReference.name (r : CharacterReference) : String :=
  "#" ++ r.radix.mark ++ String.ofList (r.digits.map Digit.char)

/-! ### Attributes -/

/-- The form of a character in an attribute value. -/
def quotedChar (c : Char) : List Char :=
  if c = '&' then "&amp;".toList
  else if c = '<' then "&lt;".toList
  else if c = '>' then "&gt;".toList
  else if c = '"' then "&quot;".toList
  else [c]

/-- An attribute value as it stands between double quotes. -/
def quoted (value : String) : String := String.ofList (value.toList.flatMap quotedChar)

/-- The attributes of an element in the order in which they are written. -/
structure AttributeList where
  /-- The names and the values. -/
  pairs : List (Name × String)
  /-- No name is written twice. -/
  nodup : (pairs.map fun p => p.1.text).Nodup

namespace AttributeList

/-- An attribute as it is written, behind a blank. -/
def renderPair (p : Name × String) : String := " " ++ p.1.text ++ "=\"" ++ quoted p.2 ++ "\""

/-- The attributes as they are written. -/
def render (as : AttributeList) : String := String.join (as.pairs.map renderPair)

/-- The values by name. -/
def toMap (as : AttributeList) : Attributes :=
  TextMap.ofList (as.pairs.map fun p => (p.1.text, p.2))

/-- The map of an attribute list binds the names that are written to their values, and no other
name. -/
theorem get?_toMap_eq_some_iff (as : AttributeList) (n t : String) :
    as.toMap.get? n = some t ↔ ∃ p ∈ as.pairs, p.1.text = n ∧ p.2 = t := by
  have hnodup : ((as.pairs.map fun p => (p.1.text, p.2)).map Prod.fst).Nodup := by
    simpa [Function.comp_def] using as.nodup
  constructor
  · intro h
    by_cases hn : n ∈ (as.pairs.map fun p => (p.1.text, p.2)).map Prod.fst
    · obtain ⟨q, hq, rfl⟩ := List.mem_map.1 hn
      obtain ⟨p, hp, rfl⟩ := List.mem_map.1 hq
      rw [toMap, TextMap.ofList, TextMap.get?_insertMany_of_mem hnodup hq] at h
      exact ⟨p, hp, rfl, Option.some.inj h⟩
    · rw [toMap, TextMap.ofList, TextMap.get?_insertMany_of_notMem hn] at h
      cases h
  · rintro ⟨p, hp, rfl, rfl⟩
    exact TextMap.get?_insertMany_of_mem hnodup (List.mem_map.2 ⟨p, hp, rfl⟩)

end AttributeList

/-! ### Character data -/

/-- A piece of character data as it is written. -/
inductive Piece
  /-- Characters that stand for themselves. -/
  | raw (text : String) (h : '&' ∉ text.toList ∧ '<' ∉ text.toList)
  /-- A CDATA section. -/
  | verbatim (text : String) (h : ¬ "]]>".toList <:+: text.toList)
  /-- A reference to a character by its name. -/
  | entity (e : Entity)
  /-- A reference to a character by its number. -/
  | number (r : CharacterReference)
  /-- A comment. -/
  | comment (text : String) (h : '-' ∉ text.toList ∧ '>' ∉ text.toList)

namespace Piece

/-- The text that is written. -/
def render : Piece → String
  | .raw text _ => text
  | .verbatim text _ => "<![CDATA[" ++ text ++ "]]>"
  | .entity e => "&" ++ e.name ++ ";"
  | .number r => "&" ++ r.name ++ ";"
  | .comment text _ => "<!--" ++ text ++ "-->"

/-- The characters that are meant. -/
def meaning : Piece → String
  | .raw text _ => text
  | .verbatim text _ => text
  | .entity e => e.character.toString
  | .number r => r.character.toString
  | .comment _ _ => ""

end Piece

/-! ### Elements -/

/-- An element as it is written. -/
inductive Source
  /-- An element without content, written as one tag. -/
  | closed (name : Name) (attributes : AttributeList)
  /-- An element that holds elements. -/
  | parent (name : Name) (attributes : AttributeList) (children : List Source)
  /-- An element that holds character data. -/
  | leaf (name : Name) (attributes : AttributeList) (pieces : List Piece)

namespace Source

mutual

/-- The text that is written. -/
def render : Source → String
  | .closed name attributes => "<" ++ name.text ++ attributes.render ++ "/>"
  | .parent name attributes children =>
    "<" ++ name.text ++ attributes.render ++ ">" ++ renderAll children ++ "</" ++ name.text ++ ">"
  | .leaf name attributes pieces =>
    "<" ++ name.text ++ attributes.render ++ ">" ++ String.join (pieces.map Piece.render)
      ++ "</" ++ name.text ++ ">"

/-- The text of elements one after the other. -/
def renderAll : List Source → String
  | [] => ""
  | s :: rest => s.render ++ renderAll rest

end

mutual

/-- The element that is meant. -/
def element : Source → Element
  | .closed name attributes => ⟨name.text, attributes.toMap, [], ""⟩
  | .parent name attributes children => ⟨name.text, attributes.toMap, elements children, ""⟩
  | .leaf name attributes pieces =>
    ⟨name.text, attributes.toMap, [], String.join (pieces.map Piece.meaning)⟩

/-- The elements that are meant. -/
def elements : List Source → List Element
  | [] => []
  | s :: rest => s.element :: elements rest

end

example :
    render (.parent ⟨"a", by decide, by decide⟩
        ⟨[(⟨"x", by decide, by decide⟩, "<\"")], by simp⟩
        [.closed ⟨"b", by decide, by decide⟩ ⟨[], by simp⟩,
          .leaf ⟨"c", by decide, by decide⟩ ⟨[], by simp⟩
            [.raw " d" (by simp), .entity .less, .comment "e" (by simp),
              .number ⟨.decimal, [⟨⟨7, by decide⟩, false⟩, ⟨⟨5, by decide⟩, false⟩], 'K', rfl,
                by decide⟩,
              .verbatim "]]&" (by decide)]])
      = "<a x=\"&lt;&quot;\"><b/><c> d&lt;<!--e-->&#75;<![CDATA[]]&]]></c></a>" := by
  rfl

end Source

end CloudCodec.Xml
