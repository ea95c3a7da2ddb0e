/-
# ASCII bytes

Markup is recognised on bytes, before anything is known of the characters between its marks.
-/

namespace CloudCodec.Ascii

/-- The byte `"`. -/
def quote : UInt8 := 0x22
/-- The byte `&`. -/
def ampersand : UInt8 := 0x26
/-- The byte of the single quote. -/
def apostrophe : UInt8 := 0x27
/-- The byte `-`. -/
def hyphen : UInt8 := 0x2D
/-- The byte `/`. -/
def slash : UInt8 := 0x2F
/-- The byte `;`. -/
def semicolon : UInt8 := 0x3B
/-- The byte `<`. -/
def less : UInt8 := 0x3C
/-- The byte `=`. -/
def equals : UInt8 := 0x3D
/-- The byte `>`. -/
def greater : UInt8 := 0x3E
/-- The byte `!`. -/
def exclamation : UInt8 := 0x21
/-- The byte `?`. -/
def question : UInt8 := 0x3F
/-- The byte `[`. -/
def openBracket : UInt8 := 0x5B
/-- The byte `]`. -/
def closeBracket : UInt8 := 0x5D

/-- The bytes of a text of ASCII characters. -/
def bytes (s : String) : List UInt8 := s.toList.map fun c => UInt8.ofNat c.toNat

/-- Whether a byte is a space, a tab or a line end. -/
def isBlank (b : UInt8) : Bool := b == 0x20 || b == 0x09 || b == 0x0A || b == 0x0D

/-- Whether a byte is a quote of either kind. -/
def isQuote (b : UInt8) : Bool := b == quote || b == apostrophe

/-- A letter in lower case; other bytes as they are. -/
def lower (b : UInt8) : UInt8 := if 0x41 ≤ b && b ≤ 0x5A then b + 0x20 else b

/-- What stands before the first occurrence of a nonempty mark, behind the bytes `before` in
reverse, and what follows it. -/
def cutFrom (mark before : List UInt8) : List UInt8 → Option (List UInt8 × List UInt8)
  | [] => none
  | b :: rest =>
    if mark.isPrefixOf (b :: rest) then some (before.reverse, (b :: rest).drop mark.length)
    else cutFrom mark (b :: before) rest

/-- What stands before the first occurrence of a nonempty mark and what follows it. -/
def cut? (mark bytes : List UInt8) : Option (List UInt8 × List UInt8) := cutFrom mark [] bytes

theorem length_of_cutFrom {mark before bytes : List UInt8} {r : List UInt8 × List UInt8}
    (h : cutFrom mark before bytes = some r) : r.2.length ≤ bytes.length := by
  induction bytes generalizing before with
  | nil => simp [cutFrom] at h
  | cons b rest ih =>
    unfold cutFrom at h
    split at h
    · cases h
      simp
    · exact Nat.le_succ_of_le (ih h)

/-- What follows a mark is no longer than the whole. -/
theorem length_of_cut? {mark bytes : List UInt8} {r : List UInt8 × List UInt8}
    (h : cut? mark bytes = some r) : r.2.length ≤ bytes.length :=
  length_of_cutFrom h

end CloudCodec.Ascii
