/-
# Reading integers of bounded width

The texts of a word are spelled by a sign that the word admits and one or more digits
(`Word.Spells`), and the numbers that fit it are those of its bits (`Word.InRange`).  A text is read
as the number that it spells if that number fits the word, and every other text is refused as it
stands; so nothing wraps, whatever the number of digits, and every number of the word is read back
from its text (`readInteger_exact`).
-/
import CloudCodec.Decode.Leaf
import CloudCodec.Proofs.Numeral.Digits
import Mathlib.Tactic.NormNum

namespace CloudCodec.Numeral

variable {text : String} {sign : Sign} {digits : List Char} {n : Int}

namespace Word

variable {w : Word}

/-- The number of bits of a word. -/
def width : Word → Nat
  | .u8 => 8
  | .u32 | .i32 => 32
  | .u64 | .i64 => 64

/-- The numbers that the bits of a word can tell apart, the negative ones among them if the word is
signed. -/
def InRange (w : Word) (n : Int) : Prop :=
  (if w.isSigned then -2 ^ (w.width - 1) else 0) ≤ n ∧
    n < 2 ^ (if w.isSigned then w.width - 1 else w.width)

instance (w : Word) (n : Int) : Decidable (w.InRange n) := inferInstanceAs (Decidable (_ ∧ _))

/-- The signs that may stand in front of a number of a word. -/
def Admits (w : Word) (sign : Sign) : Prop := sign = .minus → w.isSigned = true

/-- A text that spells a number: a sign that the word admits, one or more decimal digits, and
nothing else. -/
def Spells (w : Word) (text : String) (n : Int) : Prop :=
  ∃ sign digits, w.Admits sign ∧ digits ≠ [] ∧ AreDigits digits ∧
    text = String.ofList (sign.chars ++ digits) ∧
    n = sign.apply (Nat.ofDigitChars 10 digits 0 : Int)

/-- The bounds of a word are those of its bits. -/
lemma holds_iff_inRange : w.Holds n ↔ w.InRange n := by
  cases w <;> norm_num [Holds, InRange, isSigned, width, least, greatest] <;> omega

/-! ### Signs in front of digits -/

/-- What digits behind a sign denote. -/
lemma denoted?_of_toList (hsign : w.Admits sign) (hdigits : AreDigits digits)
    (htext : text.toList = sign.chars ++ digits) :
    w.denoted? text = (natural? digits).map fun n => sign.apply (Int.ofNat n) := by
  rw [denoted?]
  cases sign with
  | plus =>
    rw [htext]
    rfl
  | minus =>
    rw [htext]
    exact if_pos (hsign rfl)
  | absent =>
    obtain rfl : text.toList = digits := htext
    split
    · rename_i rest heq
      exact absurd (heq ▸ List.mem_cons_self) (hdigits.notMem (c := '+') rfl)
    · rename_i rest heq
      exact absurd (heq ▸ List.mem_cons_self) (hdigits.notMem (c := '-') rfl)
    · rfl

/-- A text denotes the number that it spells, and no other text denotes one. -/
theorem denoted?_eq_some_iff : w.denoted? text = some n ↔ w.Spells text n := by
  constructor
  · intro h
    have hspells : ∀ sign digits, w.Admits sign → text.toList = sign.chars ++ digits →
        (natural? digits).map (fun n => sign.apply (Int.ofNat n)) = some n → w.Spells text n := by
      intro sign digits hsign htext hread
      obtain ⟨m, hm, rfl⟩ := Option.map_eq_some_iff.1 hread
      obtain ⟨hne, hdigits, rfl⟩ := natural?_eq_some_iff.1 hm
      exact ⟨sign, digits, hsign, hne, hdigits, by rw [← htext, String.ofList_toList], rfl⟩
    rw [denoted?] at h
    split at h
    · rename_i rest htext
      exact hspells .plus rest (by simp [Admits]) htext h
    · rename_i rest htext
      split_ifs at h with hsigned
      exact hspells .minus rest (fun _ => hsigned) htext h
    · exact hspells .absent _ (by simp [Admits]) rfl h
  · rintro ⟨sign, digits, hsign, hne, hdigits, rfl, rfl⟩
    rw [denoted?_of_toList hsign hdigits String.toList_ofList,
      natural?_eq_some_iff.2 ⟨hne, hdigits, rfl⟩]
    rfl

/-- A text is read as a number if it spells that number and the number fits. -/
theorem read?_eq_some_iff : w.read? text = some n ↔ w.Spells text n ∧ w.InRange n := by
  rw [read?, Option.filter_eq_some_iff, denoted?_eq_some_iff, decide_eq_true_eq, holds_iff_inRange]

/-- The text of a number spells it. -/
lemma spells_integerText (h : w.InRange n) : w.Spells (integerText n) n := by
  cases n with
  | ofNat m =>
    exact ⟨.absent, decimalDigits m, by simp [Admits], decimalDigits_ne_nil m,
      areDigits_decimalDigits m, rfl, by simp [Sign.apply]⟩
  | negSucc m =>
    refine ⟨.minus, decimalDigits (m + 1), fun _ => ?_, decimalDigits_ne_nil _,
      areDigits_decimalDigits _, rfl, by simp [Sign.apply, Int.negSucc_eq]⟩
    by_contra hsigned
    have hpositive := h.1
    rw [if_neg hsigned] at hpositive
    exact absurd hpositive (Int.not_le.2 (Int.negSucc_lt_zero m))

end Word

end CloudCodec.Numeral

namespace CloudCodec.Decode

open Numeral

/-- An integer field takes exactly the texts that spell a number of its word, as that number.  Every
other text is refused with the field and the text, and every number of the word is read back from
its text. -/
theorem readInteger_exact (w : Word) (field text : String) :
    (∀ n, readInteger w field text = .ok n ↔ w.Spells text n ∧ w.InRange n) ∧
    ((∀ n, w.Spells text n → ¬ w.InRange n) →
      readInteger w field text = .error (.unexpectedValue field text .integer)) ∧
    ∀ n, w.InRange n → readInteger w field (integerText n) = .ok n := by
  have hread : ∀ text n, readInteger w field text = .ok n ↔ w.Spells text n ∧ w.InRange n := by
    intro text n
    rw [← Word.read?_eq_some_iff, readInteger]
    cases w.read? text <;> simp
  refine ⟨hread text, ?_, ?_⟩
  · intro hnone
    cases h : w.read? text with
    | none => rw [readInteger, h]
    | some n =>
      obtain ⟨hspells, hrange⟩ := Word.read?_eq_some_iff.1 h
      exact absurd hrange (hnone n hspells)
  · intro n hn
    exact (hread _ n).2 ⟨Word.spells_integerText hn, hn⟩

theorem readInteger_exact_sample :
    (Word.i32.Spells "-0002147483648" (-2147483648) ∧ Word.i32.InRange (-2147483648)) ∧
    readInteger .i32 "n" "-0002147483648" = .ok (-2147483648) ∧
    (∀ n, Word.i32.Spells "2147483648" n → ¬ Word.i32.InRange n) ∧
    readInteger .i32 "n" "2147483648" = .error (.unexpectedValue "n" "2147483648" .integer) ∧
    readInteger .i32 "n" (integerText (-2147483648)) = .ok (-2147483648) := by
  have hspells : Word.i32.Spells "-0002147483648" (-2147483648) :=
    ⟨.minus, "0002147483648".toList, fun _ => rfl, by decide, by decide, by decide, by decide⟩
  have hrange : Word.i32.InRange (-2147483648) := by decide
  have hwide : ∀ n, Word.i32.Spells "2147483648" n → ¬ Word.i32.InRange n := by
    intro n h
    have hdenoted : Word.i32.denoted? "2147483648" = some 2147483648 := by decide
    cases hdenoted.symm.trans (Word.denoted?_eq_some_iff.2 h)
    decide
  exact ⟨⟨hspells, hrange⟩, ((readInteger_exact .i32 "n" _).1 _).2 ⟨hspells, hrange⟩, hwide,
    (readInteger_exact .i32 "n" _).2.1 hwide, (readInteger_exact .i32 "n" "").2.2 _ hrange⟩

end CloudCodec.Decode
