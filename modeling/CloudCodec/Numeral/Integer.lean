/-
# Integers of bounded width

The texts of the integers that fit a machine word: an optional `+`, or `-` where the word is
signed, then one or more decimal digits. Leading zeros are free; a number that does not fit is
refused and never wrapped.
-/
import CloudCodec.Numeral.Digits

namespace CloudCodec.Numeral

/-- The words that integers are kept in. -/
inductive Word
  | u8 | u32 | u64 | i32 | i64
  deriving DecidableEq, Repr

namespace Word

/-- Whether the word holds negative numbers. -/
def isSigned : Word → Bool
  | .u8 | .u32 | .u64 => false
  | .i32 | .i64 => true

/-- The least number of the word. -/
def least : Word → Int
  | .u8 | .u32 | .u64 => 0
  | .i32 => -2147483648
  | .i64 => -9223372036854775808

/-- The greatest number of the word. -/
def greatest : Word → Int
  | .u8 => 255
  | .u32 => 4294967295
  | .u64 => 18446744073709551615
  | .i32 => 2147483647
  | .i64 => 9223372036854775807

/-- Whether a number fits the word. -/
def Holds (w : Word) (n : Int) : Prop := w.least ≤ n ∧ n ≤ w.greatest

instance (w : Word) (n : Int) : Decidable (w.Holds n) := inferInstanceAs (Decidable (_ ∧ _))

/-- The number that a text denotes, whether it fits the word or not. -/
def denoted? (w : Word) (text : String) : Option Int :=
  match text.toList with
  | '+' :: digits => (natural? digits).map Int.ofNat
  | '-' :: digits => if w.isSigned then (natural? digits).map (fun n => -Int.ofNat n) else none
  | digits => (natural? digits).map Int.ofNat

/-- The number of the word that a text denotes. -/
def read? (w : Word) (text : String) : Option Int :=
  (w.denoted? text).filter fun n => w.Holds n

end Word

/-- The decimal text of a natural number. -/
def naturalText (n : Nat) : String := String.ofList (decimalDigits n)

/-- The decimal text of an integer. -/
def integerText (n : Int) : String :=
  match n with
  | .ofNat n => naturalText n
  | .negSucc n => String.ofList ('-' :: decimalDigits (n + 1))

theorem integerText_eq_toString (n : Int) : integerText n = toString n := by
  cases n with
  | ofNat n => rfl
  | negSucc n =>
    change String.ofList (['-'] ++ decimalDigits (n + 1)) = "-" ++ naturalText (n + 1)
    exact String.ofList_append

end CloudCodec.Numeral
