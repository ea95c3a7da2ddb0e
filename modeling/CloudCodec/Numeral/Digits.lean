/-
# Digits

The value of a digit in a radix up to sixteen, and the number that a run of digits denotes.
-/

namespace CloudCodec.Numeral

/-- The value of a digit below `radix`; letters of either case stand for ten to fifteen. -/
def digit? (radix : Nat) (c : Char) : Option Nat :=
  let n := c.toNat
  let value? :=
    if 48 ≤ n ∧ n ≤ 57 then some (n - 48)
    else if 65 ≤ n ∧ n ≤ 70 then some (n - 55)
    else if 97 ≤ n ∧ n ≤ 102 then some (n - 87)
    else none
  value?.filter (· < radix)

/-- The number that decimal digits denote behind the digits of `n`. -/
def digitsFrom (n : Nat) : List Char → Option Nat
  | [] => some n
  | c :: rest => (digit? 10 c).bind fun d => digitsFrom (n * 10 + d) rest

/-- The number that one or more decimal digits denote. -/
def natural? : List Char → Option Nat
  | [] => none
  | cs => digitsFrom 0 cs

/-- The decimal digits of a number, without leading zeros. -/
def decimalDigits (n : Nat) : List Char := Nat.toDigits 10 n

end CloudCodec.Numeral
