/-
# What trimming strips

A text is stripped of the white space around it if only white space was cut off, in front and
behind, and what is left neither begins nor ends with white space (`IsStripped`).  White space is
told by a table of the characters that have the Unicode property (`whiteSpaceRanges`).  For every
text there is exactly one that is left, and trimming finds it (`isStripped_iff`).
-/
import CloudCodec.Text.Blank
import Mathlib.Data.List.DropRight
import Mathlib.Tactic.Lemma

namespace CloudCodec.Text

/-- The numbers of the characters with the Unicode property `White_Space`, from the first to the
last of each run. -/
def whiteSpaceRanges : List (Nat × Nat) :=
  [(0x0009, 0x000D), (0x0020, 0x0020), (0x0085, 0x0085), (0x00A0, 0x00A0), (0x1680, 0x1680),
    (0x2000, 0x200A), (0x2028, 0x2029), (0x202F, 0x202F), (0x205F, 0x205F), (0x3000, 0x3000)]

/-- The character is white space. -/
def IsWhiteSpace (c : Char) : Prop :=
  ∃ range ∈ whiteSpaceRanges, range.1 ≤ c.toNat ∧ c.toNat ≤ range.2

/-- A text is stripped of the white space around it. -/
structure IsStripped (text stripped : String) : Prop where
  /-- Only white space was cut off. -/
  exists_around : ∃ before after : List Char,
    text.toList = before ++ stripped.toList ++ after ∧
      (∀ c ∈ before, IsWhiteSpace c) ∧ ∀ c ∈ after, IsWhiteSpace c
  /-- What is left does not begin with white space. -/
  head : ∀ c ∈ stripped.toList.head?, ¬ IsWhiteSpace c
  /-- What is left does not end with white space. -/
  last : ∀ c ∈ stripped.toList.getLast?, ¬ IsWhiteSpace c

variable {c : Char} {text stripped : String} {before cs after : List Char}

lemma isBlank_iff : isBlank c = true ↔ IsWhiteSpace c := by
  simp [isBlank, IsWhiteSpace, whiteSpaceRanges]
  omega

/-- Blanks are dropped up to the first character that is none. -/
lemma dropWhile_isBlank (hbefore : ∀ c ∈ before, isBlank c = true)
    (hhead : ∀ c ∈ cs.head?, isBlank c = false) : (before ++ cs).dropWhile isBlank = cs := by
  rw [List.dropWhile_append_of_pos hbefore]
  cases cs with
  | nil => rfl
  | cons first rest => rw [List.dropWhile_cons_of_neg (by simp [hhead first rfl])]

/-- What stands between the blanks at both ends is left. -/
lemma trimList_append (hbefore : ∀ c ∈ before, isBlank c = true)
    (hafter : ∀ c ∈ after, isBlank c = true) (hhead : ∀ c ∈ cs.head?, isBlank c = false)
    (hlast : ∀ c ∈ cs.getLast?, isBlank c = false) : trimList (before ++ cs ++ after) = cs := by
  cases cs with
  | nil =>
    have hnone : (before ++ [] ++ after).dropWhile isBlank = [] := by
      rw [List.append_nil, List.dropWhile_append_of_pos hbefore]
      exact List.dropWhile_eq_nil_iff.2 hafter
    rw [trimList, hnone]
    rfl
  | cons first rest =>
    have hfront : (before ++ (first :: rest ++ after)).dropWhile isBlank = first :: rest ++ after :=
      dropWhile_isBlank hbefore hhead
    have hback : (after.reverse ++ (first :: rest).reverse).dropWhile isBlank
        = (first :: rest).reverse :=
      dropWhile_isBlank (by simpa using hafter) (by rwa [List.head?_reverse])
    rw [trimList, List.append_assoc, hfront, List.reverse_append, hback, List.reverse_reverse]

/-- Trimming strips a text of the white space around it. -/
theorem isStripped_trim (text : String) : IsStripped text (trim text) := by
  have htrim : (trim text).toList = (text.toList.dropWhile isBlank).rdropWhile isBlank :=
    String.toList_ofList
  have hend := List.rdropWhile_append_rtakeWhile (p := isBlank)
    (l := text.toList.dropWhile isBlank)
  constructor
  · refine ⟨text.toList.takeWhile isBlank, (text.toList.dropWhile isBlank).rtakeWhile isBlank,
      ?_, ?_, ?_⟩
    · rw [htrim, List.append_assoc, hend, List.takeWhile_append_dropWhile]
    · intro c hc
      exact isBlank_iff.1 (List.mem_takeWhile_imp hc)
    · intro c hc
      exact isBlank_iff.1 (List.mem_rtakeWhile_imp hc)
  · -- what is cut off behind leaves the first character where it is
    intro c hc
    rw [htrim] at hc
    have hfirst : (text.toList.dropWhile isBlank).head? = some c := by
      rw [← hend, List.head?_append, hc, Option.some_or]
    have hnot := List.head?_dropWhile_not isBlank text.toList
    rw [hfirst] at hnot
    rw [← isBlank_iff, hnot]
    exact Bool.false_ne_true
  · intro c hc
    rw [htrim] at hc
    obtain ⟨hne, rfl⟩ := List.mem_getLast?_eq_getLast hc
    rw [← isBlank_iff]
    exact List.rdropWhile_last_not isBlank _ hne

/-- What is left of a text is what trimming makes of it. -/
theorem isStripped_iff : IsStripped text stripped ↔ stripped = trim text := by
  constructor
  · intro h
    obtain ⟨before, after, htext, hbefore, hafter⟩ := h.exists_around
    have hblank : ∀ c, ¬ IsWhiteSpace c → isBlank c = false := fun c hc => by
      rwa [← isBlank_iff, Bool.not_eq_true] at hc
    rw [trim, htext, trimList_append (fun c hc => isBlank_iff.2 (hbefore c hc))
      (fun c hc => isBlank_iff.2 (hafter c hc)) (fun c hc => hblank c (h.head c hc))
      (fun c hc => hblank c (h.last c hc)), String.ofList_toList]
  · rintro rfl
    exact isStripped_trim text

example : trim "\t a\u00A0b\u2003\n" = "a\u00A0b" := by decide +kernel

end CloudCodec.Text
