/-
# Reading exact decimals

A decimal is written with a sign, digits, and digits behind a point (`Written`); it denotes a
rational number.  Low lines only set the digits off: a text with low lines that is read at all is
read as it is without them (`Scan.run?_filter`).  Without low lines the scan takes in all digits, as
long as what they denote together and the number of digits behind the point fit their bounds
(`Scan.run?_digits`).  So a text is read as the decimal of the number that it denotes, with all its
fraction digits, or refused (`read?_eq_some`, `read?_of_toList`), and the text of a decimal is read
as this decimal (`read?_text`).
-/
import CloudCodec.Decode.Leaf
import CloudCodec.Proofs.Numeral.Digits
import Mathlib.Tactic.FieldSimp
import Mathlib.Tactic.NormNum
import Mathlib.Tactic.Ring

namespace CloudCodec.Numeral

/-! ### Decimals as they are written -/

/-- A decimal as it is written: a sign, the digits before the point and, if there is a point, those
behind it. -/
structure Written where
  sign : Sign
  whole : List Char
  behind? : Option (List Char)

namespace Written

/-- The fraction digits. -/
def fraction (w : Written) : List Char := w.behind?.getD []

/-- All digits. -/
def digits (w : Written) : List Char := w.whole ++ w.fraction

/-- What stands behind the sign. -/
def body (w : Written) : List Char := w.whole ++ (w.behind?.map ('.' :: ·)).getD []

/-- The characters of a written decimal. -/
def chars (w : Written) : List Char := w.sign.chars ++ w.body

/-- There are only digits before and behind the point, and one at least. -/
structure IsNumber (w : Written) : Prop where
  areDigits : AreDigits w.digits
  digits_ne_nil : w.digits ≠ []

/-- The rational number that a written decimal denotes. -/
def value (w : Written) : ℚ :=
  w.sign.apply ((Nat.ofDigitChars 10 w.whole 0 : ℚ)
    + Nat.ofDigitChars 10 w.fraction 0 / 10 ^ w.fraction.length)

/-- The number without its point is below 2 to the power of 96, and there are at most 28 fraction
digits. -/
def Fits (w : Written) : Prop :=
  Nat.ofDigitChars 10 w.digits 0 < 2 ^ 96 ∧ w.fraction.length ≤ 28

instance (w : Written) : Decidable w.Fits := inferInstanceAs (Decidable (_ ∧ _))

end Written

namespace Decimal

/-- The rational number that a decimal is. -/
def toRat (d : Decimal) : ℚ := d.units / 10 ^ d.scale

end Decimal

namespace Written

variable {w : Written}

/-- The decimal of a number that fits. -/
def decimal (w : Written) (h : w.Fits) : Decimal where
  units := w.sign.apply (Nat.ofDigitChars 10 w.digits 0 : Int)
  scale := w.fraction.length
  units_lt := by
    rw [Sign.natAbs_apply]
    exact h.1
  scale_le := h.2

/-- The decimal of a number is that number. -/
theorem toRat_decimal (h : w.Fits) : (w.decimal h).toRat = w.value := by
  have hdigits : (Nat.ofDigitChars 10 w.digits 0 : ℚ)
      = 10 ^ w.fraction.length * Nat.ofDigitChars 10 w.whole 0
        + Nat.ofDigitChars 10 w.fraction 0 := by
    rw [digits, Nat.ofDigitChars_append, Nat.ofDigitChars_eq_ofDigitChars_zero]
    push_cast
    ring
  have hsum : ((Nat.ofDigitChars 10 w.digits 0 : Nat) : ℚ) / 10 ^ w.fraction.length
      = Nat.ofDigitChars 10 w.whole 0
        + Nat.ofDigitChars 10 w.fraction 0 / 10 ^ w.fraction.length := by
    rw [hdigits]
    field_simp
  calc
    (w.decimal h).toRat
      = ((w.sign.apply (Nat.ofDigitChars 10 w.digits 0 : Int) : Int) : ℚ)
        / 10 ^ w.fraction.length := rfl
    _ = w.sign.apply ((Nat.ofDigitChars 10 w.digits 0 : ℚ) / 10 ^ w.fraction.length) := by
      rw [Sign.cast_apply, Sign.apply_div, Int.cast_natCast]
    _ = w.value := by rw [hsum, value]

/-- No character behind the sign is one that digits exclude, unless it is the point. -/
lemma notMem_body (hw : AreDigits w.digits) {c : Char} (hc : c.isDigit = false) (hpoint : c ≠ '.') :
    c ∉ w.body := by
  obtain ⟨hwhole, hfraction⟩ := areDigits_append.1 hw
  rcases w with ⟨sign, whole, _ | behind⟩
  · simpa [body] using hwhole.notMem hc
  · simpa [body, hpoint] using ⟨hwhole.notMem hc, hfraction.notMem hc⟩

end Written

namespace Decimal

variable {d : Decimal} {w : Written} {negative : Bool} {cs ds : List Char} {text : String}

/-! ### The scan -/

namespace Scan

variable {s s' : Scan} {c : Char}

/-- The bound on the units is 2 to the power of 96. -/
lemma unitBound_eq : unitBound = 2 ^ 96 := by norm_num [unitBound]

lemma run?_append (s : Scan) (cs ds : List Char) :
    s.run? (cs ++ ds) = (s.run? cs).bind fun s => s.run? ds := by
  induction cs generalizing s with
  | nil => rfl
  | cons c cs ih =>
    rw [List.cons_append, run?, run?, Option.bind_assoc]
    congr 1
    funext s
    exact ih s

lemma next?_digit (hc : c.isDigit = true) :
    s.next? c = if s.fraction ≠ some scaleBound ∧
        10 * s.units + (c.toNat - '0'.toNat) < unitBound then
      some ⟨10 * s.units + (c.toNat - '0'.toNat), s.fraction.map (· + 1), true⟩ else none := by
  have hpoint : c ≠ '.' := by
    rintro rfl
    cases hc
  have hline : c ≠ '_' := by
    rintro rfl
    cases hc
  rw [next?, if_neg hpoint, if_neg hline, digit?_of_isDigit hc, Nat.mul_comm]
  by_cases hfraction : s.fraction = some scaleBound <;> simp [hfraction]

/-- What a character that is read can be. -/
lemma of_next?_eq_some (h : s.next? c = some s') :
    (c = '.' ∧ s.fraction = none ∧ s' = { s with fraction := some 0 }) ∨
    (c = '_' ∧ s' = s) ∨
    (c.isDigit = true ∧ s'.fraction = s.fraction.map (· + 1)) := by
  cases hc : c.isDigit with
  | true =>
    rw [next?_digit hc] at h
    split_ifs at h
    cases h
    exact .inr (.inr ⟨rfl, rfl⟩)
  | false =>
    simp only [next?, digit?_eq_none hc, Option.bind_none] at h
    split_ifs at h with hfraction hpoint hline hstarted
    · cases hnone : s.fraction with
      | none =>
        rw [hnone] at h
        cases h
        exact .inl ⟨hpoint, rfl, rfl⟩
      | some k =>
        rw [hnone] at h
        cases h
    · cases h
      exact .inr (.inl ⟨hline, rfl⟩)

/-- Low lines only set digits off. -/
lemma run?_filter (h : s.run? cs = some s') : s.run? (cs.filter (· ≠ '_')) = some s' := by
  induction cs generalizing s with
  | nil => exact h
  | cons c cs ih =>
    obtain ⟨mid, hnext, hrest⟩ := Option.bind_eq_some_iff.1 h
    by_cases hline : c = '_'
    · subst hline
      rcases of_next?_eq_some hnext with ⟨heq, -⟩ | ⟨-, rfl⟩ | ⟨hdigit, -⟩
      · cases heq
      · simpa using ih hrest
      · cases hdigit
    · rw [List.filter_cons_of_pos (by simpa using hline), run?, hnext]
      exact ih hrest

/-- Behind a point, and without low lines, there are digits only. -/
lemma areDigits_of_run? (h : s.run? cs = some s') (hcs : '_' ∉ cs) (hs : s.fraction ≠ none) :
    AreDigits cs := by
  induction cs generalizing s with
  | nil => exact areDigits_nil
  | cons c cs ih =>
    obtain ⟨mid, hnext, hrest⟩ := Option.bind_eq_some_iff.1 h
    rw [List.mem_cons, not_or] at hcs
    rcases of_next?_eq_some hnext with ⟨-, hnone, -⟩ | ⟨rfl, -⟩ | ⟨hdigit, hmid⟩
    · exact absurd hnone hs
    · exact absurd rfl hcs.1
    · have hfraction : mid.fraction ≠ none := by simpa [hmid] using hs
      exact areDigits_cons.2 ⟨hdigit, ih hrest hcs.2 hfraction⟩

/-- Without low lines there are digits, and digits behind a point if there is one. -/
lemma exists_body_of_run? (h : s.run? cs = some s') (hcs : '_' ∉ cs) (hs : s.fraction = none)
    (sign : Sign) : ∃ w : Written, w.sign = sign ∧ w.body = cs ∧ AreDigits w.digits := by
  induction cs generalizing s with
  | nil => exact ⟨⟨sign, [], none⟩, rfl, rfl, areDigits_nil⟩
  | cons c cs ih =>
    obtain ⟨mid, hnext, hrest⟩ := Option.bind_eq_some_iff.1 h
    rw [List.mem_cons, not_or] at hcs
    rcases of_next?_eq_some hnext with ⟨rfl, -, rfl⟩ | ⟨rfl, -⟩ | ⟨hdigit, hmid⟩
    · exact ⟨⟨sign, [], some cs⟩, rfl, rfl, areDigits_of_run? hrest hcs.2 (by simp)⟩
    · exact absurd rfl hcs.1
    · obtain ⟨w, rfl, rfl, hdigits⟩ := ih hrest hcs.2 (by simp [hmid, hs])
      exact ⟨{ w with whole := c :: w.whole }, rfl, rfl, areDigits_cons.2 ⟨hdigit, hdigits⟩⟩

/-- Digits are taken in as long as all together fit, and so do those behind the point. -/
lemma run?_digits (hds : AreDigits ds) (hunits : s.units < unitBound)
    (hscale : ∀ k ∈ s.fraction, k ≤ scaleBound) :
    s.run? ds = if Nat.ofDigitChars 10 ds s.units < unitBound ∧
        ∀ k ∈ s.fraction, k + ds.length ≤ scaleBound then
      some ⟨Nat.ofDigitChars 10 ds s.units, s.fraction.map (· + ds.length),
        s.started || !ds.isEmpty⟩ else none := by
  induction ds generalizing s with
  | nil =>
    rcases s with ⟨units, fraction, started⟩
    simp_all [run?]
  | cons c ds ih =>
    obtain ⟨hc, hds⟩ := areDigits_cons.1 hds
    rw [run?, next?_digit hc, Nat.ofDigitChars_cons]
    by_cases hnext : s.fraction ≠ some scaleBound ∧
        10 * s.units + (c.toNat - '0'.toNat) < unitBound
    · have hscale' : ∀ k ∈ s.fraction.map (· + 1), k ≤ scaleBound := by
        intro k hk
        obtain ⟨j, hj, rfl⟩ := Option.map_eq_some_iff.1 hk
        have hne : j ≠ scaleBound := fun heq => hnext.1 (heq ▸ hj)
        have hle := hscale j hj
        omega
      rw [if_pos hnext, Option.bind_some, ih hds hnext.2 hscale']
      cases s.fraction <;> simp [Nat.add_assoc, Nat.add_comm 1]
    · -- one digit too many behind the point, or too large a number, stays so
      rw [if_neg hnext, if_neg]
      · rfl
      · rintro ⟨hlt, hlength⟩
        refine hnext ⟨?_, Nat.lt_of_le_of_lt (le_ofDigitChars _ ds) hlt⟩
        intro heq
        have hle := hlength _ heq
        rw [List.length_cons] at hle
        omega

lemma run?_point (hs : s.fraction = none) (cs : List Char) :
    s.run? ('.' :: cs) = { s with fraction := some 0 }.run? cs := by
  simp [run?, next?, hs]

/-- A written number is taken in as a whole if it fits. -/
lemma run?_body (hw : AreDigits w.digits) :
    start.run? w.body = if w.Fits then
      some ⟨Nat.ofDigitChars 10 w.digits 0, w.behind?.map List.length, !w.digits.isEmpty⟩
    else none := by
  obtain ⟨hwhole, hfraction⟩ := areDigits_append.1 hw
  rw [Written.body, run?_append, run?_digits hwhole (by decide) (by simp [start])]
  rcases w with ⟨sign, whole, _ | behind⟩
  · simp [Written.Fits, Written.digits, Written.fraction, start, unitBound_eq, run?]
  · -- the point between the two runs of digits
    replace hfraction : AreDigits behind := hfraction
    have hstarted : (!(whole ++ behind).isEmpty) = (!whole.isEmpty || !behind.isEmpty) := by
      cases whole <;> simp
    by_cases hlt : Nat.ofDigitChars 10 whole 0 < unitBound
    · rw [if_pos ⟨hlt, by simp [start]⟩, Option.bind_some]
      simp only [Option.map_some, Option.getD_some]
      rw [run?_point rfl, run?_digits hfraction hlt (by simp)]
      simp [Written.Fits, Written.digits, Written.fraction, start, unitBound_eq,
        Nat.ofDigitChars_append, scaleBound, hstarted]
    · rw [if_neg (fun h => hlt h.1), if_neg]
      · rfl
      · rintro ⟨hfits, -⟩
        rw [Written.digits, Nat.ofDigitChars_append, ← unitBound_eq] at hfits
        exact hlt (Nat.lt_of_le_of_lt (le_ofDigitChars _ _) hfits)

end Scan

/-! ### Decimals that are read -/

/-- A written number is read as its decimal if it fits, and refused if not. -/
lemma ofUnsigned?_body (hw : w.IsNumber) :
    ofUnsigned? (w.sign = .minus) w.body = if h : w.Fits then some (w.decimal h) else none := by
  have hstarted : w.digits.isEmpty = false := by simpa using hw.digits_ne_nil
  rw [ofUnsigned?, Scan.run?_body hw.areDigits]
  by_cases hfits : w.Fits
  · have hunits : Nat.ofDigitChars 10 w.digits 0 < unitBound ∧ w.fraction.length ≤ scaleBound :=
      ⟨Scan.unitBound_eq ▸ hfits.1, hfits.2⟩
    have hlength : (w.behind?.map List.length).getD 0 = w.fraction.length := by
      rw [Written.fraction]
      cases w.behind? <;> rfl
    rw [if_pos hfits, dif_pos hfits, Option.bind_some]
    simp only [hstarted, Bool.not_false, if_true, hlength]
    rw [ofUnits?, dif_pos hunits]
    cases hsign : w.sign <;> simp [Written.decimal, hsign, Sign.apply]
  · rw [if_neg hfits, dif_neg hfits]
    rfl

/-- A text that is a written number is read as its decimal if it fits, and refused if not. -/
lemma read?_of_toList (hw : w.IsNumber) (htext : text.toList = w.chars) :
    read? text = if h : w.Fits then some (w.decimal h) else none := by
  rw [← ofUnsigned?_body hw, read?, htext, Written.chars]
  cases hsign : w.sign with
  | plus => rfl
  | minus => rfl
  | absent =>
    simp only [Sign.chars, List.nil_append]
    split
    · rename_i rest heq
      exact absurd (heq ▸ List.mem_cons_self)
        (Written.notMem_body (c := '+') hw.areDigits rfl (by decide))
    · rename_i rest heq
      exact absurd (heq ▸ List.mem_cons_self)
        (Written.notMem_body (c := '-') hw.areDigits rfl (by decide))
    · rfl

/-- What stands behind the sign of a text that is read is a number, low lines apart. -/
lemma exists_body_of_ofUnsigned? (h : ofUnsigned? negative cs = some d) (sign : Sign) :
    ∃ w : Written, w.sign = sign ∧ w.IsNumber ∧ cs.filter (· ≠ '_') = w.body ∧
      ofUnsigned? negative w.body = some d := by
  obtain ⟨s, hrun, hread⟩ := Option.bind_eq_some_iff.1 h
  have hplain := Scan.run?_filter hrun
  obtain ⟨w, hsign, hbody, hdigits⟩ := Scan.exists_body_of_run? hplain (by simp) rfl sign
  rw [← hbody] at hplain
  refine ⟨w, hsign, ⟨hdigits, ?_⟩, hbody.symm, Option.bind_eq_some_iff.2 ⟨s, hplain, hread⟩⟩
  -- there was a digit
  intro hnil
  rw [Scan.run?_body hdigits] at hplain
  split_ifs at hplain
  cases hplain
  simp [hnil] at hread

/-- What is read is the decimal of the number that the text is, low lines apart. -/
theorem read?_eq_some (h : read? text = some d) :
    ∃ w : Written, w.IsNumber ∧ text.toList.filter (· ≠ '_') = w.chars ∧
      ∃ hfits : w.Fits, d = w.decimal hfits := by
  have hread : ∀ sign cs, text.toList = Sign.chars sign ++ cs →
      ofUnsigned? (sign = .minus) cs = some d → ∃ w : Written, w.IsNumber ∧
        text.toList.filter (· ≠ '_') = w.chars ∧ ∃ hfits : w.Fits, d = w.decimal hfits := by
    intro sign cs htext hcs
    obtain ⟨w, rfl, hw, hbody, hd⟩ := exists_body_of_ofUnsigned? hcs sign
    rw [ofUnsigned?_body hw] at hd
    split_ifs at hd with hfits
    cases hd
    refine ⟨w, hw, ?_, hfits, rfl⟩
    rw [htext, List.filter_append, hbody, Written.chars]
    cases w.sign <;> rfl
  rw [read?] at h
  split at h
  · rename_i rest htext
    exact hread .plus rest htext h
  · rename_i rest htext
    exact hread .minus rest htext h
  · exact hread .absent _ rfl h

/-! ### Decimals that are written -/

/-- The digits of a decimal, with zeros in front so that there is one before the point. -/
def padded (d : Decimal) : List Char :=
  List.replicate (d.scale + 1 - (decimalDigits d.units.natAbs).length) '0'
    ++ decimalDigits d.units.natAbs

/-- A decimal as its text writes it. -/
def written (d : Decimal) : Written where
  sign := if d.units < 0 then .minus else .absent
  whole := d.padded.take (d.padded.length - d.scale)
  behind? := if d.scale = 0 then none else some (d.padded.drop (d.padded.length - d.scale))

lemma scale_lt_length_padded (d : Decimal) : d.scale < d.padded.length := by
  rw [padded, List.length_append, List.length_replicate]
  omega

lemma fraction_written (d : Decimal) :
    d.written.fraction = d.padded.drop (d.padded.length - d.scale) := by
  by_cases hscale : d.scale = 0 <;> simp [Written.fraction, written, hscale]

lemma digits_written (d : Decimal) : d.written.digits = d.padded := by
  rw [Written.digits, fraction_written]
  exact List.take_append_drop _ _

lemma toList_text (d : Decimal) : d.text.toList = d.written.chars := by
  have hpointed : pointed d.units.natAbs d.scale = d.written.body := by
    by_cases hscale : d.scale = 0
    · simp [pointed, Written.body, written, padded, hscale]
    · simp [pointed, Written.body, written, padded, hscale]
  simp only [text, String.toList_ofList, Written.chars, hpointed, written]
  split_ifs <;> rfl

lemma isNumber_written (d : Decimal) : d.written.IsNumber := by
  constructor
  · rw [digits_written, padded, areDigits_append]
    refine ⟨?_, areDigits_decimalDigits _⟩
    intro c hc
    rw [List.eq_of_mem_replicate hc]
    rfl
  · rw [digits_written]
    exact List.ne_nil_of_length_pos (Nat.zero_lt_of_lt d.scale_lt_length_padded)

lemma ofDigitChars_written (d : Decimal) :
    Nat.ofDigitChars 10 d.written.digits 0 = d.units.natAbs := by
  rw [digits_written, padded, Nat.ofDigitChars_append, Nat.ofDigitChars_replicate_zero,
    Nat.mul_zero, ofDigitChars_decimalDigits]

lemma length_fraction_written (d : Decimal) : d.written.fraction.length = d.scale := by
  have hlt := d.scale_lt_length_padded
  rw [fraction_written, List.length_drop]
  omega

lemma fits_written (d : Decimal) : d.written.Fits := by
  rw [Written.Fits, ofDigitChars_written, length_fraction_written, ← Scan.unitBound_eq]
  exact ⟨d.units_lt, d.scale_le⟩

lemma decimal_written (d : Decimal) : d.written.decimal d.fits_written = d := by
  have hunits : (d.written.decimal d.fits_written).units
      = d.written.sign.apply (d.units.natAbs : Int) := by
    rw [← ofDigitChars_written]
    rfl
  refine Decimal.ext ?_ (length_fraction_written d)
  rw [hunits, written]
  split_ifs <;> simp only [Sign.apply] <;> omega

/-- The text of a decimal is read as this decimal. -/
theorem read?_text (d : Decimal) : read? d.text = some d := by
  rw [read?_of_toList d.isNumber_written d.toList_text, dif_pos d.fits_written, decimal_written]

/-- Decimals with the same text are the same, their scales included. -/
lemma text_injective : Function.Injective Decimal.text := by
  intro d d' h
  have hread : some d = some d' := by rw [← read?_text d, h, read?_text d']
  exact Option.some.inj hread

end Decimal

end CloudCodec.Numeral

namespace CloudCodec.Decode

open Numeral

/-- A decimal that a field takes is the number that its text denotes, low lines apart, with all the
fraction digits of the text.  A written number is taken if its digits fit, and refused with the
field and the text if they do not.  What is taken is read again from its own text. -/
theorem readDecimal_exact (field text : String) :
    (∀ d, readDecimal field text = .ok d →
      (∃ w : Written, w.IsNumber ∧ text.toList.filter (· ≠ '_') = w.chars ∧
        d.toRat = w.value ∧ d.scale = w.fraction.length) ∧
      d.scale ≤ 28 ∧ d.units.natAbs < 2 ^ 96) ∧
    (∀ w : Written, w.IsNumber → text.toList = w.chars →
      (w.Fits → ∃ d, readDecimal field text = .ok d ∧ d.toRat = w.value ∧
        d.scale = w.fraction.length) ∧
      (¬ w.Fits → readDecimal field text = .error (.unexpectedValue field text .decimal))) ∧
    ∀ d, readDecimal field text = .ok d → readDecimal field d.text = .ok d := by
  have hread : ∀ text d, readDecimal field text = .ok d ↔ Decimal.read? text = some d := by
    intro text d
    rw [readDecimal]
    cases Decimal.read? text <;> simp
  refine ⟨?_, ?_, ?_⟩
  · intro d hd
    obtain ⟨w, hw, htext, hfits, rfl⟩ := Decimal.read?_eq_some ((hread text d).1 hd)
    exact ⟨⟨w, hw, htext, Written.toRat_decimal hfits, rfl⟩, hfits.2,
      Decimal.Scan.unitBound_eq ▸ (w.decimal hfits).units_lt⟩
  · intro w hw htext
    have hvalue := Decimal.read?_of_toList hw htext
    refine ⟨?_, ?_⟩
    · intro hfits
      rw [dif_pos hfits] at hvalue
      exact ⟨w.decimal hfits, (hread text _).2 hvalue, Written.toRat_decimal hfits, rfl⟩
    · intro hfits
      rw [dif_neg hfits] at hvalue
      rw [readDecimal, hvalue]
  · intro d _
    exact (hread _ d).2 (Decimal.read?_text d)

theorem readDecimal_exact_sample :
    readDecimal "price" "-0_79228162514264.337593543950335_" = .ok
      ⟨-79228162514264337593543950335, 15, by decide, by decide⟩ ∧
    (∃ w : Written, w.IsNumber ∧
      "-0_79228162514264.337593543950335_".toList.filter (· ≠ '_') = w.chars ∧
      Decimal.toRat ⟨-79228162514264337593543950335, 15, by decide, by decide⟩ = w.value ∧
      15 = w.fraction.length) ∧
    (∃ d, readDecimal "price" ".0000000000000000000000000000" = .ok d ∧ d.toRat = 0 ∧
      d.scale = 28 ∧ readDecimal "price" d.text = .ok d) ∧
    readDecimal "price" "7922816251426433759354395033.60"
      = .error (.unexpectedValue "price" "7922816251426433759354395033.60" .decimal) := by
  have hlong : readDecimal "price" "-0_79228162514264.337593543950335_" = .ok
      ⟨-79228162514264337593543950335, 15, by decide, by decide⟩ := by decide
  have hzero : (⟨.absent, [], some (List.replicate 28 '0')⟩ : Written).IsNumber :=
    ⟨by decide, by decide⟩
  have hlarge : (⟨.absent, "7922816251426433759354395033".toList, some ['6', '0']⟩ :
      Written).IsNumber := ⟨by decide, by decide⟩
  refine ⟨hlong, ((readDecimal_exact "price" _).1 _ hlong).1, ?_, ?_⟩
  · obtain ⟨d, hd, hvalue, hscale⟩ :=
      ((readDecimal_exact "price" ".0000000000000000000000000000").2.1 _ hzero (by decide)).1
        (by decide)
    refine ⟨d, hd, ?_, hscale, (readDecimal_exact "price" _).2.2 d hd⟩
    rw [hvalue]
    norm_num [Written.value, Sign.apply, Written.fraction]
  · exact ((readDecimal_exact "price" _).2.1 _ hlarge (by decide)).2 (by decide)

end CloudCodec.Decode
