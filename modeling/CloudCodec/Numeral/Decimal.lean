/-
# Exact decimals

A decimal is a whole number of units of a power of ten, `units / 10 ^ scale`, with the units
below `2 ^ 96` and at most 28 fraction digits. The scale is part of the value: `0.10` and `0.1`
differ. A text that does not fit these bounds is refused and never rounded.
-/
import CloudCodec.Numeral.Digits

namespace CloudCodec.Numeral

/-- The bound that the units of a decimal stay below: 2 to the power of 96. -/
def unitBound : Nat := 79228162514264337593543950336

/-- The greatest number of fraction digits. -/
def scaleBound : Nat := 28

/-- A decimal number with a fixed number of fraction digits. -/
@[ext] structure Decimal where
  /-- The number without its point. -/
  units : Int
  /-- The number of fraction digits. -/
  scale : Nat
  /-- The units fit their bound. -/
  units_lt : units.natAbs < unitBound
  /-- The fraction digits fit their bound. -/
  scale_le : scale ≤ scaleBound
  deriving DecidableEq, Repr

namespace Decimal

/-- A decimal text read so far. -/
structure Scan where
  /-- The number of all digits read. -/
  units : Nat
  /-- The number of digits behind the point, once there was a point. -/
  fraction : Option Nat
  /-- Whether there was a digit. -/
  started : Bool
  deriving DecidableEq, Repr

/-- The scan before the first character. -/
def Scan.start : Scan := ⟨0, none, false⟩

/-- The scan after one more character: a digit that leaves the units in bounds, the first point,
or a low line behind a digit. Nothing follows the last possible fraction digit. -/
def Scan.next? (s : Scan) (c : Char) : Option Scan :=
  if s.fraction = some scaleBound then none
  else if c = '.' then
    match s.fraction with
    | none => some { s with fraction := some 0 }
    | some _ => none
  else if c = '_' then
    if s.started then some s else none
  else
    (digit? 10 c).bind fun d =>
      let units := s.units * 10 + d
      if units < unitBound then some ⟨units, s.fraction.map (· + 1), true⟩ else none

/-- The scan after a run of characters. -/
def Scan.run? (s : Scan) : List Char → Option Scan
  | [] => some s
  | c :: rest => (s.next? c).bind fun s => s.run? rest

/-- The decimal of a sign and a number of units, where they fit. -/
def ofUnits? (negative : Bool) (units scale : Nat) : Option Decimal :=
  if h : units < unitBound ∧ scale ≤ scaleBound then
    some ⟨if negative then -(units : Int) else units, scale, by split <;> simp [h.1], h.2⟩
  else none

/-- The decimal that characters without a sign denote, taken negative if asked for. -/
def ofUnsigned? (negative : Bool) (cs : List Char) : Option Decimal :=
  (Scan.start.run? cs).bind fun s =>
    if s.started then ofUnits? negative s.units (s.fraction.getD 0) else none

/-- The decimal that a text denotes: an optional sign, then digits with at most one point, and
low lines anywhere behind the first digit. -/
def read? (text : String) : Option Decimal :=
  match text.toList with
  | '+' :: rest => ofUnsigned? false rest
  | '-' :: rest => ofUnsigned? true rest
  | rest => ofUnsigned? false rest

/-- The digits of a number with `scale` of them behind a point. -/
def pointed (n scale : Nat) : List Char :=
  let digits := decimalDigits n
  let padded := List.replicate (scale + 1 - digits.length) '0' ++ digits
  let whole := padded.length - scale
  if scale = 0 then padded else padded.take whole ++ '.' :: padded.drop whole

/-- The text of a decimal: all its fraction digits, one digit at least before the point, and a
sign only in front of a number below zero. -/
def text (d : Decimal) : String :=
  let digits := pointed d.units.natAbs d.scale
  String.ofList (if d.units < 0 then '-' :: digits else digits)

end Decimal

end CloudCodec.Numeral
