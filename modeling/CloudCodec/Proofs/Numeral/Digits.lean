/-
# What digits denote

A run of decimal digits denotes the number that `Nat.ofDigitChars` makes of it.  Reading digits
gives this number, and refuses everything that is not a digit; leading zeros do not count, and the
digits of a number denote it.  A number may have a sign in front (`Sign`).
-/
import CloudCodec.Numeral.Integer
import Mathlib.Algebra.Order.Field.Rat
import Mathlib.Tactic.Lemma

namespace CloudCodec.Numeral

/-! ### Digits -/

/-- Decimal digits and nothing else. -/
def AreDigits (cs : List Char) : Prop := ∀ c ∈ cs, c.isDigit = true

instance (cs : List Char) : Decidable (AreDigits cs) :=
  decidable_of_iff (cs.all Char.isDigit = true) List.all_eq_true

variable {c : Char} {cs ds : List Char} {m n : Nat}

lemma areDigits_nil : AreDigits [] := by simp [AreDigits]

lemma areDigits_cons : AreDigits (c :: cs) ↔ c.isDigit = true ∧ AreDigits cs := by
  simp [AreDigits]

lemma areDigits_append : AreDigits (cs ++ ds) ↔ AreDigits cs ∧ AreDigits ds := by
  simp only [AreDigits, List.mem_append, or_imp, forall_and]

/-- No digit is a sign, a point or a low line. -/
lemma AreDigits.notMem (h : AreDigits cs) (hc : c.isDigit = false) : c ∉ cs := by
  intro hmem
  rw [h c hmem] at hc
  cases hc

lemma isDigit_iff : c.isDigit = true ↔ 48 ≤ c.toNat ∧ c.toNat ≤ 57 := by
  simp only [Char.isDigit, ge_iff_le, Bool.and_eq_true, decide_eq_true_eq, UInt32.le_iff_toNat_le]
  rfl

lemma digit?_of_isDigit (h : c.isDigit = true) : digit? 10 c = some (c.toNat - '0'.toNat) := by
  have hrange := isDigit_iff.1 h
  have hlt : c.toNat - 48 < 10 := by omega
  simp [digit?, hrange, hlt]

lemma digit?_eq_none (h : c.isDigit = false) : digit? 10 c = none := by
  have hrange : ¬ (48 ≤ c.toNat ∧ c.toNat ≤ 57) := by
    rw [← isDigit_iff, h]
    simp
  simp only [digit?, if_neg hrange]
  -- the letters stand for ten and more
  split_ifs <;> simp [Option.filter] <;> omega

/-- A number does not get smaller by more digits. -/
lemma le_ofDigitChars (n : Nat) (cs : List Char) : n ≤ Nat.ofDigitChars 10 cs n := by
  induction cs generalizing n with
  | nil => exact Nat.le_refl n
  | cons c cs ih =>
    rw [Nat.ofDigitChars_cons]
    exact Nat.le_trans (by omega) (ih _)

/-- What digits denote behind those of a number. -/
lemma digitsFrom_eq_some_iff :
    digitsFrom n cs = some m ↔ AreDigits cs ∧ Nat.ofDigitChars 10 cs n = m := by
  induction cs generalizing n with
  | nil => simp [digitsFrom, areDigits_nil]
  | cons c cs ih =>
    rw [digitsFrom, areDigits_cons, Nat.ofDigitChars_cons]
    cases hc : c.isDigit with
    | true => rw [digit?_of_isDigit hc, Option.bind_some, ih, Nat.mul_comm]; simp
    | false => simp [digit?_eq_none hc]

/-- A natural number is read from one or more digits, and from nothing else. -/
lemma natural?_eq_some_iff :
    natural? cs = some n ↔ cs ≠ [] ∧ AreDigits cs ∧ Nat.ofDigitChars 10 cs 0 = n := by
  cases cs with
  | nil => simp [natural?]
  | cons c cs => simp [natural?, digitsFrom_eq_some_iff]

lemma areDigits_decimalDigits (n : Nat) : AreDigits (decimalDigits n) :=
  fun _ hc => Nat.isDigit_of_mem_toDigits (by decide) (by decide) hc

lemma decimalDigits_ne_nil (n : Nat) : decimalDigits n ≠ [] := Nat.toDigits_ne_nil

@[simp] lemma ofDigitChars_decimalDigits (n : Nat) :
    Nat.ofDigitChars 10 (decimalDigits n) 0 = n := Nat.ofDigitChars_ten_toDigits

/-! ### Signs -/

/-- What may stand in front of a number. -/
inductive Sign
  | absent | plus | minus
  deriving DecidableEq

namespace Sign

/-- How a sign is written. -/
def chars : Sign → List Char
  | .absent => []
  | .plus => ['+']
  | .minus => ['-']

/-- The number behind a sign, with the sign. -/
def apply {α : Type} [Neg α] : Sign → α → α
  | .minus, n => -n
  | _, n => n

lemma natAbs_apply (sign : Sign) (n : Nat) : (sign.apply (n : Int)).natAbs = n := by
  cases sign <;> simp [apply]

lemma cast_apply (sign : Sign) (n : Int) : ((sign.apply n : Int) : ℚ) = sign.apply (n : ℚ) := by
  cases sign <;> simp [apply]

lemma apply_div (sign : Sign) (a b : ℚ) : sign.apply a / b = sign.apply (a / b) := by
  cases sign <;> simp [apply, neg_div]

end Sign

end CloudCodec.Numeral
