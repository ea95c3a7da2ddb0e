/-
# UTF-8 with the place of the first fault

A byte string is read as UTF-8 or refused with the first place where it stops being UTF-8.
A fault is either a run of one to three bytes that begins like a character and goes on
wrongly, or an end of the bytes in the middle of a character that was right so far.

The arithmetic is on `Nat` throughout: a character is a sum of its bytes' payloads, and the
second byte of a character is narrowed after the leads `E0`, `ED`, `F0` and `F4`, so that
overlong forms, surrogates and values above `10FFFF` are never spelled.
-/

namespace CloudCodec.Utf8

/-- Where and how a byte string stops being UTF-8. -/
inductive Fault
  /-- The `length` bytes from `start` on begin no character. -/
  | invalid (start length : Nat)
  /-- The bytes end inside the character that begins at `start`. -/
  | incomplete (start : Nat)
  deriving DecidableEq, Repr

/-- The wording of a fault. -/
def Fault.message : Fault → String
  | .invalid start length =>
    "invalid utf-8 sequence of " ++ toString length ++ " bytes from index " ++ toString start
  | .incomplete start => "incomplete utf-8 byte sequence from index " ++ toString start

/-- What the first byte of a character announces. -/
inductive Lead
  /-- The byte is a character by itself. -/
  | one
  /-- One more byte follows. -/
  | two
  /-- Two more follow, the first of them between `low` and `high`. -/
  | three (low high : Nat)
  /-- Three more follow, the first of them between `low` and `high`. -/
  | four (low high : Nat)
  /-- The byte begins no character. -/
  | stray
  deriving DecidableEq, Repr

/-- The announcement of the byte `a`. -/
def Lead.of (a : Nat) : Lead :=
  if a < 0x80 then .one
  else if a < 0xC2 then .stray
  else if a < 0xE0 then .two
  else if a < 0xF0 then .three (if a = 0xE0 then 0xA0 else 0x80) (if a = 0xED then 0x9F else 0xBF)
  else if a < 0xF5 then .four (if a = 0xF0 then 0x90 else 0x80) (if a = 0xF4 then 0x8F else 0xBF)
  else .stray

/-- Whether a byte may continue a character. -/
def isTail (b : UInt8) : Bool := 0x80 ≤ b.toNat && b.toNat ≤ 0xBF

/-- Whether a byte lies in the range that a lead leaves to the second byte. -/
def isWithin (low high : Nat) (b : UInt8) : Bool := low ≤ b.toNat && b.toNat ≤ high

/-- The character spelled by two bytes. -/
def char2 (a b : UInt8) : Char := Char.ofNat ((a.toNat - 0xC0) * 0x40 + (b.toNat - 0x80))

/-- The character spelled by three bytes. -/
def char3 (a b c : UInt8) : Char :=
  Char.ofNat ((a.toNat - 0xE0) * 0x1000 + (b.toNat - 0x80) * 0x40 + (c.toNat - 0x80))

/-- The character spelled by four bytes. -/
def char4 (a b c d : UInt8) : Char :=
  Char.ofNat ((a.toNat - 0xF0) * 0x40000 + (b.toNat - 0x80) * 0x1000 + (c.toNat - 0x80) * 0x40
    + (d.toNat - 0x80))

/-- The text spelled by the bytes, put behind `done`; `start` bytes were read before. -/
def decodeFrom (start : Nat) (done : String) : List UInt8 → Except Fault String
  | [] => .ok done
  | a :: rest =>
    match Lead.of a.toNat with
    | .one => decodeFrom (start + 1) (done.push (Char.ofNat a.toNat)) rest
    | .stray => .error (.invalid start 1)
    | .two =>
      match rest with
      | [] => .error (.incomplete start)
      | b :: rest =>
        if isTail b then decodeFrom (start + 2) (done.push (char2 a b)) rest
        else .error (.invalid start 1)
    | .three low high =>
      match rest with
      | [] => .error (.incomplete start)
      | b :: rest =>
        if isWithin low high b then
          match rest with
          | [] => .error (.incomplete start)
          | c :: rest =>
            if isTail c then decodeFrom (start + 3) (done.push (char3 a b c)) rest
            else .error (.invalid start 2)
        else .error (.invalid start 1)
    | .four low high =>
      match rest with
      | [] => .error (.incomplete start)
      | b :: rest =>
        if isWithin low high b then
          match rest with
          | [] => .error (.incomplete start)
          | c :: rest =>
            if isTail c then
              match rest with
              | [] => .error (.incomplete start)
              | d :: rest =>
                if isTail d then decodeFrom (start + 4) (done.push (char4 a b c d)) rest
                else .error (.invalid start 3)
            else .error (.invalid start 2)
        else .error (.invalid start 1)

/-- The text that the bytes spell, or the first place where they spell none. -/
def decode (bytes : List UInt8) : Except Fault String := decodeFrom 0 "" bytes

/-- The bytes of one character. -/
def ofChar (c : Char) : List UInt8 :=
  let n := c.toNat
  if n < 0x80 then [UInt8.ofNat n]
  else if n < 0x800 then [UInt8.ofNat (0xC0 + n / 0x40), UInt8.ofNat (0x80 + n % 0x40)]
  else if n < 0x10000 then
    [UInt8.ofNat (0xE0 + n / 0x1000), UInt8.ofNat (0x80 + n / 0x40 % 0x40),
      UInt8.ofNat (0x80 + n % 0x40)]
  else
    [UInt8.ofNat (0xF0 + n / 0x40000), UInt8.ofNat (0x80 + n / 0x1000 % 0x40),
      UInt8.ofNat (0x80 + n / 0x40 % 0x40), UInt8.ofNat (0x80 + n % 0x40)]

/-- The bytes of a text. -/
def encode (s : String) : List UInt8 := s.toList.flatMap ofChar

end CloudCodec.Utf8
