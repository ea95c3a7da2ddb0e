/-
# The bytes of a text

Every text is read back from its bytes (`decode_encode`).  A byte below `80` among them is always a
whole character, so a mark of ASCII characters is found in the bytes exactly where it stands in the
text.  Texts are ordered as their bytes are (`encode_lt_encode`).
-/
import CloudCodec.Text.Utf8
import Mathlib

namespace CloudCodec.Utf8

/-! ### Bytes and characters -/

/-- The bytes of characters one after the other. -/
def bytesOf (cs : List Char) : List UInt8 := cs.flatMap ofChar

@[simp] lemma bytesOf_nil : bytesOf [] = [] := rfl

@[simp] lemma bytesOf_cons (c : Char) (cs : List Char) :
    bytesOf (c :: cs) = ofChar c ++ bytesOf cs := rfl

@[simp] lemma bytesOf_append (cs cs' : List Char) :
    bytesOf (cs ++ cs') = bytesOf cs ++ bytesOf cs' :=
  List.flatMap_append

lemma encode_eq_bytesOf (s : String) : encode s = bytesOf s.toList := rfl

@[simp] lemma encode_append (s t : String) : encode (s ++ t) = encode s ++ encode t := by
  simp [encode_eq_bytesOf]

lemma toNat_ofNat {n : Nat} (h : n < 0x100) : (UInt8.ofNat n).toNat = n := by
  rw [UInt8.toNat_ofNat']
  exact Nat.mod_eq_of_lt h

/-- The number of a character is no surrogate and not above `10FFFF`. -/
lemma toNat_lt_or (c : Char) :
    c.toNat < 0xD800 ∨ (0xDFFF < c.toNat ∧ c.toNat < 0x110000) := c.valid

lemma ofChar_of_lt {c : Char} (h : c.toNat < 0x80) : ofChar c = [UInt8.ofNat c.toNat] := by
  simp [ofChar, h]

/-- The bytes of a character outside ASCII are all outside ASCII. -/
lemma le_of_mem_ofChar {c : Char} (h : 0x80 ≤ c.toNat) {b : UInt8} (hb : b ∈ ofChar c) :
    0x80 ≤ b.toNat := by
  have hvalid := toNat_lt_or c
  unfold ofChar at hb
  simp only at hb
  split_ifs at hb with h₁ h₂ h₃
  · omega
  all_goals
    simp only [List.mem_cons, List.not_mem_nil, or_false] at hb
    rcases hb with rfl | rfl | rfl | rfl <;> rw [toNat_ofNat (by omega)] <;> omega

/-! ### Reading a text from its bytes -/

section Steps

variable {a b c d : UInt8} {low high start : Nat} {done : String} {rest : List UInt8}

lemma decodeFrom_one (ha : Lead.of a.toNat = .one) :
    decodeFrom start done (a :: rest)
      = decodeFrom (start + 1) (done.push (Char.ofNat a.toNat)) rest := by
  rw [decodeFrom.eq_def]
  simp only [ha]

lemma decodeFrom_two (ha : Lead.of a.toNat = .two) (hb : isTail b = true) :
    decodeFrom start done (a :: b :: rest)
      = decodeFrom (start + 2) (done.push (char2 a b)) rest := by
  rw [decodeFrom.eq_def]
  simp only [ha, hb, if_true]

lemma decodeFrom_three (ha : Lead.of a.toNat = .three low high) (hb : isWithin low high b = true)
    (hc : isTail c = true) :
    decodeFrom start done (a :: b :: c :: rest)
      = decodeFrom (start + 3) (done.push (char3 a b c)) rest := by
  rw [decodeFrom.eq_def]
  simp only [ha, hb, hc, if_true]

lemma decodeFrom_four (ha : Lead.of a.toNat = .four low high) (hb : isWithin low high b = true)
    (hc : isTail c = true) (hd : isTail d = true) :
    decodeFrom start done (a :: b :: c :: d :: rest)
      = decodeFrom (start + 4) (done.push (char4 a b c d)) rest := by
  rw [decodeFrom.eq_def]
  simp only [ha, hb, hc, hd, if_true]

end Steps

lemma isTail_ofNat {n : Nat} (h : n < 0x40) : isTail (UInt8.ofNat (0x80 + n)) = true := by
  rw [isTail, toNat_ofNat (by omega), Bool.and_eq_true, decide_eq_true_eq, decide_eq_true_eq]
  omega

lemma isWithin_ofNat {low high n : Nat} (hn : n < 0x100) (hlow : low ≤ n) (hhigh : n ≤ high) :
    isWithin low high (UInt8.ofNat n) = true := by
  rw [isWithin, toNat_ofNat hn, Bool.and_eq_true, decide_eq_true_eq, decide_eq_true_eq]
  exact ⟨hlow, hhigh⟩

lemma of_eq_two {n : Nat} (h : 0xC2 ≤ n) (h' : n < 0xE0) : Lead.of n = .two := by
  rw [Lead.of, if_neg (by omega), if_neg (by omega), if_pos h']

lemma of_eq_three {n : Nat} (h : 0xE0 ≤ n) (h' : n < 0xF0) :
    Lead.of n
      = .three (if n = 0xE0 then 0xA0 else 0x80) (if n = 0xED then 0x9F else 0xBF) := by
  rw [Lead.of, if_neg (by omega), if_neg (by omega), if_neg (by omega), if_pos h']

lemma of_eq_four {n : Nat} (h : 0xF0 ≤ n) (h' : n < 0xF5) :
    Lead.of n = .four (if n = 0xF0 then 0x90 else 0x80) (if n = 0xF4 then 0x8F else 0xBF) := by
  rw [Lead.of, if_neg (by omega), if_neg (by omega), if_neg (by omega), if_neg (by omega),
    if_pos h']

/-- A character is read from its bytes. -/
lemma decodeFrom_ofChar (start : Nat) (done : String) (c : Char) (rest : List UInt8) :
    ∃ start', decodeFrom start done (ofChar c ++ rest) = decodeFrom start' (done.push c) rest := by
  have hvalid := toNat_lt_or c
  have hchar : Char.ofNat c.toNat = c := Char.ofNat_toNat c
  unfold ofChar
  -- the payloads of the bytes are the digits of `n` in base 64, and the bounds on `n` keep the
  -- second byte in the range that its lead leaves to it
  generalize hn : c.toNat = n at hvalid hchar
  simp only
  split_ifs with h₁ h₂ h₃
  · have hlead : Lead.of (UInt8.ofNat n).toNat = .one := by
      rw [toNat_ofNat (by omega), Lead.of, if_pos h₁]
    refine ⟨start + 1, ?_⟩
    rw [List.singleton_append, decodeFrom_one hlead, toNat_ofNat (by omega), hchar]
  · have hlead : Lead.of (UInt8.ofNat (0xC0 + n / 0x40)).toNat = .two := by
      rw [toNat_ofNat (by omega)]
      exact of_eq_two (by omega) (by omega)
    have hnumber : (0xC0 + n / 0x40 - 0xC0) * 0x40 + (0x80 + n % 0x40 - 0x80) = n := by omega
    refine ⟨start + 2, ?_⟩
    rw [List.cons_append, List.singleton_append, decodeFrom_two hlead (isTail_ofNat (by omega)),
      char2, toNat_ofNat (by omega), toNat_ofNat (by omega), hnumber, hchar]
  · have hlead : Lead.of (UInt8.ofNat (0xE0 + n / 0x1000)).toNat
        = .three (if 0xE0 + n / 0x1000 = 0xE0 then 0xA0 else 0x80)
          (if 0xE0 + n / 0x1000 = 0xED then 0x9F else 0xBF) := by
      rw [toNat_ofNat (by omega)]
      exact of_eq_three (by omega) (by omega)
    have hsecond : isWithin (if 0xE0 + n / 0x1000 = 0xE0 then 0xA0 else 0x80)
        (if 0xE0 + n / 0x1000 = 0xED then 0x9F else 0xBF)
        (UInt8.ofNat (0x80 + n / 0x40 % 0x40)) = true :=
      isWithin_ofNat (by omega) (by split_ifs <;> omega) (by split_ifs <;> omega)
    have hnumber : (0xE0 + n / 0x1000 - 0xE0) * 0x1000
        + (0x80 + n / 0x40 % 0x40 - 0x80) * 0x40 + (0x80 + n % 0x40 - 0x80) = n := by omega
    refine ⟨start + 3, ?_⟩
    rw [List.cons_append, List.cons_append, List.singleton_append,
      decodeFrom_three hlead hsecond (isTail_ofNat (by omega)), char3, toNat_ofNat (by omega),
      toNat_ofNat (by omega), toNat_ofNat (by omega), hnumber, hchar]
  · have hlead : Lead.of (UInt8.ofNat (0xF0 + n / 0x40000)).toNat
        = .four (if 0xF0 + n / 0x40000 = 0xF0 then 0x90 else 0x80)
          (if 0xF0 + n / 0x40000 = 0xF4 then 0x8F else 0xBF) := by
      rw [toNat_ofNat (by omega)]
      exact of_eq_four (by omega) (by omega)
    have hsecond : isWithin (if 0xF0 + n / 0x40000 = 0xF0 then 0x90 else 0x80)
        (if 0xF0 + n / 0x40000 = 0xF4 then 0x8F else 0xBF)
        (UInt8.ofNat (0x80 + n / 0x1000 % 0x40)) = true :=
      isWithin_ofNat (by omega) (by split_ifs <;> omega) (by split_ifs <;> omega)
    have hnumber : (0xF0 + n / 0x40000 - 0xF0) * 0x40000
        + (0x80 + n / 0x1000 % 0x40 - 0x80) * 0x1000 + (0x80 + n / 0x40 % 0x40 - 0x80) * 0x40
        + (0x80 + n % 0x40 - 0x80) = n := by omega
    refine ⟨start + 4, ?_⟩
    rw [List.cons_append, List.cons_append, List.cons_append, List.singleton_append,
      decodeFrom_four hlead hsecond (isTail_ofNat (by omega)) (isTail_ofNat (by omega)), char4,
      toNat_ofNat (by omega), toNat_ofNat (by omega), toNat_ofNat (by omega),
      toNat_ofNat (by omega), hnumber, hchar]

lemma decodeFrom_bytesOf (start : Nat) (done : String) (cs : List Char) :
    decodeFrom start done (bytesOf cs) = .ok (done ++ String.ofList cs) := by
  induction cs generalizing start done with
  | nil => simp [decodeFrom]
  | cons c cs ih =>
    obtain ⟨start', h⟩ := decodeFrom_ofChar start done c (bytesOf cs)
    rw [bytesOf_cons, h, ih]
    congr 1
    apply String.toList_inj.1
    simp

/-- A text is read back from its bytes. -/
theorem decode_encode (s : String) : decode (encode s) = .ok s := by
  rw [decode, encode_eq_bytesOf, decodeFrom_bytesOf]
  simp

/-- Texts with the same bytes are equal. -/
lemma encode_injective : Function.Injective encode := by
  intro s t h
  have hdecode := congrArg decode h
  rw [decode_encode, decode_encode] at hdecode
  exact Except.ok.inj hdecode

/-! ### ASCII marks in the bytes of a text -/

/-- An ASCII byte in the bytes of a text is a character of the text. -/
lemma mem_of_mem_bytesOf {b : UInt8} (hb : b.toNat < 0x80) {cs : List Char}
    (h : b ∈ bytesOf cs) : Char.ofNat b.toNat ∈ cs := by
  obtain ⟨c, hc, hbyte⟩ := List.mem_flatMap.1 h
  by_cases hascii : c.toNat < 0x80
  · rw [ofChar_of_lt hascii, List.mem_singleton] at hbyte
    rw [hbyte, toNat_ofNat (by omega), Char.ofNat_toNat]
    exact hc
  · have := le_of_mem_ofChar (by omega) hbyte
    omega

/-- An ASCII byte that is no character of a text is not among its bytes. -/
lemma notMem_encode {b : UInt8} {s : String} (hb : b.toNat < 0x80)
    (h : Char.ofNat b.toNat ∉ s.toList) : b ∉ encode s :=
  fun hmem => h (mem_of_mem_bytesOf hb hmem)

/-- A byte of a text is not the byte of an ASCII character that the text does not have. -/
lemma ne_of_mem_encode {b m : UInt8} {s : String} (hb : b ∈ encode s) (hm : m.toNat < 0x80)
    (h : Char.ofNat m.toNat ∉ s.toList) : b ≠ m := by
  rintro rfl
  exact notMem_encode hm h hb

lemma exists_ofChar_eq_cons (c : Char) : ∃ first more, ofChar c = first :: more := by
  unfold ofChar
  simp only
  split_ifs <;> exact ⟨_, _, rfl⟩

/-- A mark of ASCII characters at the beginning of the bytes is one at the beginning of the text. -/
lemma isPrefix_of_bytesOf {mark cs : List Char} (hascii : ∀ c ∈ mark, c.toNat < 0x80)
    (h : bytesOf mark <+: bytesOf cs) : mark <+: cs := by
  induction mark generalizing cs with
  | nil => exact List.nil_prefix
  | cons m mark ih =>
    have hm := hascii m (by simp)
    rw [bytesOf_cons, ofChar_of_lt hm, List.singleton_append] at h
    cases cs with
    | nil => simp at h
    | cons c cs =>
      rw [bytesOf_cons] at h
      -- the first byte of `c` is that of `m`, so `c` is `m`
      have hfirst : UInt8.ofNat m.toNat ∈ ofChar c := by
        obtain ⟨first, more, hmore⟩ := exists_ofChar_eq_cons c
        rw [hmore, List.cons_append, List.cons_prefix_cons] at h
        rw [hmore, h.1]
        exact List.mem_cons_self
      have hc : c.toNat < 0x80 := by
        by_contra hlarge
        have hle := le_of_mem_ofChar (by omega) hfirst
        rw [toNat_ofNat (by omega)] at hle
        omega
      rw [ofChar_of_lt hc, List.mem_singleton] at hfirst
      have hnumber := congrArg UInt8.toNat hfirst
      rw [toNat_ofNat (by omega), toNat_ofNat (by omega)] at hnumber
      have hequal : m = c := by
        rw [← Char.ofNat_toNat m, hnumber, Char.ofNat_toNat]
      subst hequal
      rw [ofChar_of_lt hc, List.singleton_append, List.cons_prefix_cons] at h
      rw [List.cons_prefix_cons]
      exact ⟨rfl, ih (fun c hc => hascii c (by simp [hc])) h.2⟩

/-- A mark of ASCII characters among the bytes is one in the text. -/
lemma isInfix_of_bytesOf {mark cs : List Char} (hascii : ∀ c ∈ mark, c.toNat < 0x80)
    (hmark : mark ≠ []) (h : bytesOf mark <:+: bytesOf cs) : mark <:+: cs := by
  induction cs with
  | nil =>
    obtain ⟨m, mark, rfl⟩ := List.exists_cons_of_ne_nil hmark
    rw [bytesOf_cons, ofChar_of_lt (hascii m (by simp))] at h
    simp at h
  | cons c cs ih =>
    by_cases hc : c.toNat < 0x80
    · rcases List.infix_cons_iff.1 (by simpa [ofChar_of_lt hc] using h) with hbegins | hbehind
      · have hbytes : bytesOf mark <+: bytesOf (c :: cs) := by
          simpa [ofChar_of_lt hc] using hbegins
        exact (isPrefix_of_bytesOf hascii hbytes).isInfix
      · exact (ih hbehind).trans (List.suffix_cons c cs).isInfix
    · -- the mark begins with an ASCII byte, so behind the bytes of `c`
      obtain ⟨m, mark, rfl⟩ := List.exists_cons_of_ne_nil hmark
      have hm := hascii m (by simp)
      obtain ⟨before, after, hsplit⟩ := h
      rw [bytesOf_cons, bytesOf_cons, ofChar_of_lt hm, List.append_assoc,
        List.append_assoc] at hsplit
      rcases List.append_eq_append_iff.1 hsplit with ⟨mid, hmid, hrest⟩ | ⟨mid, hmid, hrest⟩
      · cases mid with
        | nil =>
          refine (ih ⟨[], after, ?_⟩).trans (List.suffix_cons c cs).isInfix
          simpa [ofChar_of_lt hm] using hrest
        | cons first more =>
          have hfirst : UInt8.ofNat m.toNat = first := by simpa using congrArg List.head? hrest
          have hle := @le_of_mem_ofChar c (by omega) first (by simp [hmid])
          rw [← hfirst, toNat_ofNat (by omega)] at hle
          omega
      · refine (ih ⟨mid, after, ?_⟩).trans (List.suffix_cons c cs).isInfix
        simpa [ofChar_of_lt hm] using hrest.symm

/-! ### The order of texts and the order of their bytes -/

/-- The bytes of a smaller character come first, whatever follows. -/
lemma ofChar_append_lt {c d : Char} (h : c < d) (x y : List UInt8) :
    ofChar c ++ x < ofChar d ++ y := by
  have hc := toNat_lt_or c
  have hd := toNat_lt_or d
  have hlt : c.toNat < d.toNat := h
  unfold ofChar
  -- characters of more bytes have greater leads; of those of equally many, the payloads are
  -- compared from the left
  generalize c.toNat = m at hc hlt
  generalize d.toNat = n at hd hlt
  simp only
  split_ifs <;>
    simp only [List.cons_append, List.nil_append, List.cons_lt_cons_iff, UInt8.lt_iff_toNat_lt,
      ← UInt8.toNat_inj] <;>
    (repeat rw [toNat_ofNat (by omega)]) <;> omega

/-- Texts are ordered as their bytes are. -/
theorem encode_lt_encode {s t : String} (h : s < t) : encode s < encode t := by
  rw [String.lt_iff_toList_lt] at h
  rw [encode_eq_bytesOf, encode_eq_bytesOf]
  generalize s.toList = cs at h
  generalize t.toList = ds at h
  induction cs generalizing ds with
  | nil =>
    cases ds with
    | nil => exact absurd h (List.lt_irrefl _)
    | cons d ds =>
      obtain ⟨first, more, hfirst⟩ := exists_ofChar_eq_cons d
      simp [hfirst]
  | cons c cs ih =>
    cases ds with
    | nil => exact absurd h (List.not_lt_nil _)
    | cons d ds =>
      rw [bytesOf_cons, bytesOf_cons]
      rcases List.cons_lt_cons_iff.1 h with hlt | ⟨rfl, hlt⟩
      · exact ofChar_append_lt hlt _ _
      · exact List.append_left_lt (ih ds hlt)

end CloudCodec.Utf8
