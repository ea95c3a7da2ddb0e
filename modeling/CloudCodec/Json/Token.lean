/-
# The tokens of JSON texts

A JSON text is cut into brackets, commas, colons and atoms, with the four blanks of JSON between
them. Numbers have no leading zeros and no plus sign; strings hold no raw control character.
-/
import CloudCodec.Numeral.Digits

namespace CloudCodec.Json

/-- A token of a JSON text. -/
inductive Token
  | openArray
  | closeArray
  | openObject
  | closeObject
  | comma
  | colon
  | null
  | boolean (b : Bool)
  | integer (n : Int)
  | real (spelling : String)
  /-- A string; one with an escape for half of a surrogate pair spells no text. -/
  | text (s : Option String)
  deriving DecidableEq

namespace Token

/-- Whether a character may stand between tokens. -/
def isBlank (c : Char) : Bool := c == ' ' || c == '\t' || c == '\n' || c == '\r'

/-! ### Strings -/

/-- The number that four hexadecimal digits denote, and what follows them. -/
def hexFour? : List Char → Option (Nat × List Char)
  | a :: b :: c :: d :: rest => do
    let a ← Numeral.digit? 16 a
    let b ← Numeral.digit? 16 b
    let c ← Numeral.digit? 16 c
    let d ← Numeral.digit? 16 d
    return (((a * 16 + b) * 16 + c) * 16 + d, rest)
  | _ => none

/-- The second half of a surrogate pair, given as an escape, and what follows it. -/
def lowSurrogate? : List Char → Option (Nat × List Char)
  | '\\' :: 'u' :: rest =>
    (hexFour? rest).filter fun r => 0xDC00 ≤ r.1 && r.1 ≤ 0xDFFF
  | _ => none

/-- The character of a numeric escape whose `\u` was read, where there is one, and what follows
the escape. -/
def numericEscape? (cs : List Char) : Option (Option Char × List Char) :=
  match hexFour? cs with
  | none => none
  | some (n, rest) =>
    if 0xD800 ≤ n && n ≤ 0xDBFF then
      match lowSurrogate? rest with
      | some (low, rest) =>
        some (some (Char.ofNat (0x10000 + (n - 0xD800) * 0x400 + (low - 0xDC00))), rest)
      | none => some (none, rest)
    else if 0xDC00 ≤ n && n ≤ 0xDFFF then some (none, rest)
    else some (some (Char.ofNat n), rest)

/-- The character of a one-letter escape. -/
def shortEscape? (c : Char) : Option Char :=
  if c = '"' || c = '\\' || c = '/' then some c
  else if c = 'b' then some (Char.ofNat 8)
  else if c = 'f' then some (Char.ofNat 12)
  else if c = 'n' then some '\n'
  else if c = 'r' then some '\r'
  else if c = 't' then some '\t'
  else none

theorem length_of_hexFour? {cs : List Char} {r : Nat × List Char} (h : hexFour? cs = some r) :
    r.2.length < cs.length := by
  unfold hexFour? at h
  split at h
  · simp only [Option.bind_eq_bind, Option.bind_eq_some_iff, Option.pure_def,
      Option.some.injEq] at h
    obtain ⟨_, _, _, _, _, _, _, _, rfl⟩ := h
    simp only [List.length_cons]
    omega
  · simp at h

theorem length_of_numericEscape? {cs : List Char} {r : Option Char × List Char}
    (h : numericEscape? cs = some r) : r.2.length < cs.length := by
  unfold numericEscape? at h
  split at h
  · simp at h
  · rename_i n rest hn
    have hlt := length_of_hexFour? hn
    split at h
    · split at h
      · rename_i low after hl
        cases h
        unfold lowSurrogate? at hl
        split at hl
        · have := length_of_hexFour? (Option.filter_eq_some_iff.1 hl).1
          simp only [List.length_cons] at hlt this ⊢
          omega
        · simp at hl
      · cases h
        exact hlt
    · split at h <;> cases h <;> exact hlt

/-- The string whose opening quote was read, behind the characters `done`, and what follows its
closing quote. -/
def stringFrom? (done : Option String) (cs : List Char) : Option (Option String × List Char) :=
  match cs with
  | [] => none
  | c :: rest =>
    if c = '"' then some (done, rest)
    else if c = '\\' then
      match rest with
      | [] => none
      | e :: rest =>
        if e = 'u' then
          match _h : numericEscape? rest with
          | none => none
          | some (c?, rest) =>
            stringFrom? (done.bind fun s => c?.map fun c => s.push c) rest
        else
          match shortEscape? e with
          | none => none
          | some c => stringFrom? (done.map fun s => s.push c) rest
    else if c.toNat < 0x20 then none
    else stringFrom? (done.map fun s => s.push c) rest
termination_by cs.length
decreasing_by
  · have := length_of_numericEscape? _h
    simp only [List.length_cons] at this ⊢
    omega
  · simp only [List.length_cons]
    omega
  · simp

/-! ### Numbers -/

/-- Whether a character is a decimal digit. -/
def isDigit (c : Char) : Bool := '0' ≤ c && c ≤ '9'

/-- What follows one or more digits. -/
def pastDigits? (cs : List Char) : Option (List Char) :=
  match cs with
  | [] => none
  | c :: rest => if isDigit c then some (rest.dropWhile isDigit) else none

/-- What follows the whole part of a number. -/
def pastWhole? (cs : List Char) : Option (List Char) :=
  match cs with
  | '0' :: rest => if (rest.head?.any isDigit) then none else some rest
  | cs => pastDigits? cs

/-- What follows the fraction of a number, if it has one. -/
def pastFraction? : List Char → Option (List Char)
  | '.' :: rest => pastDigits? rest
  | cs => some cs

/-- What follows the exponent of a number, if it has one. -/
def pastExponent? : List Char → Option (List Char)
  | e :: rest =>
    if e = 'e' || e = 'E' then
      match rest with
      | '+' :: rest => pastDigits? rest
      | '-' :: rest => pastDigits? rest
      | rest => pastDigits? rest
    else some (e :: rest)
  | [] => some []

/-- The number of a spelling. -/
def ofNumber (spelling : List Char) : Token :=
  match spelling with
  | '-' :: digits =>
    match Numeral.natural? digits with
    | some (n + 1) => .integer (-Int.ofNat (n + 1))
    | _ => .real (String.ofList spelling)
  | digits =>
    match Numeral.natural? digits with
    | some n => .integer (Int.ofNat n)
    | none => .real (String.ofList spelling)

/-- The number at the beginning of a text, and what follows it. -/
def number? (cs : List Char) : Option (Token × List Char) := do
  let unsigned := match cs with
    | '-' :: rest => rest
    | cs => cs
  let rest ← pastWhole? unsigned
  let rest ← pastFraction? rest
  let rest ← pastExponent? rest
  return (ofNumber (cs.take (cs.length - rest.length)), rest)

/-! ### All tokens -/

/-- What follows a word at the beginning of a text. -/
def pastWord? (word : String) (cs : List Char) : Option (List Char) :=
  if word.toList.isPrefixOf cs then some (cs.drop word.length) else none

/-- The token that is the single character `c`. -/
def mark? (c : Char) : Option Token :=
  if c = '[' then some .openArray
  else if c = ']' then some .closeArray
  else if c.toNat = 0x7B then some .openObject
  else if c.toNat = 0x7D then some .closeObject
  else if c = ',' then some .comma
  else if c = ':' then some .colon
  else none

/-- The token that begins with the character `c`, and what follows it. -/
def next? (c : Char) (rest : List Char) : Option (Token × List Char) :=
  match mark? c with
  | some token => some (token, rest)
  | none =>
    if c = '"' then (stringFrom? (some "") rest).map fun r => (.text r.1, r.2)
    else if c = 'n' then (pastWord? "ull" rest).map fun after => (.null, after)
    else if c = 't' then (pastWord? "rue" rest).map fun after => (.boolean true, after)
    else if c = 'f' then (pastWord? "alse" rest).map fun after => (.boolean false, after)
    else number? (c :: rest)

theorem length_of_pastDigits? {cs r : List Char} (h : pastDigits? cs = some r) :
    r.length < cs.length := by
  unfold pastDigits? at h
  split at h
  · simp at h
  · rename_i c rest
    split at h
    · cases h
      have := (List.dropWhile_suffix (l := rest) isDigit).length_le
      simp only [List.length_cons]
      omega
    · simp at h

theorem length_of_pastWhole? {cs r : List Char} (h : pastWhole? cs = some r) :
    r.length < cs.length := by
  unfold pastWhole? at h
  split at h
  · split at h
    · simp at h
    · cases h
      simp
  · exact length_of_pastDigits? h

theorem length_of_pastFraction? {cs r : List Char} (h : pastFraction? cs = some r) :
    r.length ≤ cs.length := by
  unfold pastFraction? at h
  split at h
  · have := length_of_pastDigits? h
    simp only [List.length_cons]
    omega
  · cases h
    simp

theorem length_of_pastExponent? {cs r : List Char} (h : pastExponent? cs = some r) :
    r.length ≤ cs.length := by
  unfold pastExponent? at h
  split at h
  · split at h
    · split at h <;>
      · have := length_of_pastDigits? h
        simp only [List.length_cons] at this ⊢
        omega
    · cases h
      simp
  · cases h
    simp

theorem length_of_number? {cs : List Char} {r : Token × List Char} (h : number? cs = some r) :
    r.2.length < cs.length := by
  simp only [number?, Option.bind_eq_bind, Option.bind_eq_some_iff, Option.pure_def,
    Option.some.injEq] at h
  obtain ⟨a, ha, b, hb, c, hc, rfl⟩ := h
  have h₁ := length_of_pastWhole? ha
  have h₂ := length_of_pastFraction? hb
  have h₃ := length_of_pastExponent? hc
  change c.length < cs.length
  split at h₁
  · simp only [List.length_cons]
    omega
  · omega

theorem length_of_stringFrom? {done : Option String} {cs : List Char}
    {r : Option String × List Char} (h : stringFrom? done cs = some r) :
    r.2.length < cs.length := by
  fun_induction stringFrom? done cs with
  | case1 => simp at h
  | case2 => cases h; simp
  | case3 => simp at h
  | case4 => simp at h
  | case5 done tail c? rest hc _ ih =>
    have := length_of_numericEscape? hc
    have := ih h
    simp only [List.length_cons] at *
    omega
  | case6 => simp at h
  | case7 done e rest _ c _ _ ih =>
    have := ih h
    simp only [List.length_cons]
    omega
  | case8 => simp at h
  | case9 done c rest _ _ _ ih =>
    have := ih h
    simp only [List.length_cons]
    omega

theorem length_of_pastWord? {word : String} {cs r : List Char} (h : pastWord? word cs = some r) :
    r.length ≤ cs.length := by
  unfold pastWord? at h
  split at h
  · cases h
    simp
  · simp at h

/-- A token is never empty. -/
theorem length_of_next? {c : Char} {rest : List Char} {r : Token × List Char}
    (h : next? c rest = some r) : r.2.length ≤ rest.length := by
  have past_word {word : String} {t : Token} {r : Token × List Char}
      (h : (pastWord? word rest).map (fun after => (t, after)) = some r) :
      r.2.length ≤ rest.length := by
    obtain ⟨after, hafter, rfl⟩ := Option.map_eq_some_iff.1 h
    exact length_of_pastWord? hafter
  unfold next? at h
  split at h
  · cases h
    exact Nat.le_refl _
  · split at h
    · obtain ⟨s, hs, rfl⟩ := Option.map_eq_some_iff.1 h
      exact Nat.le_of_lt (length_of_stringFrom? hs)
    · split at h
      · exact past_word h
      · split at h
        · exact past_word h
        · split at h
          · exact past_word h
          · exact Nat.le_of_lt_succ (length_of_number? h)

/-- The tokens of a text behind the tokens `done`, last one first. -/
def scanFrom? (done : List Token) (cs : List Char) : Option (List Token) :=
  match _h : cs.dropWhile isBlank with
  | [] => some done.reverse
  | c :: rest =>
    match _h' : next? c rest with
    | none => none
    | some (token, after) => scanFrom? (token :: done) after
termination_by cs.length
decreasing_by
  have := (List.dropWhile_suffix (l := cs) isBlank).length_le
  rw [_h, List.length_cons] at this
  have := length_of_next? _h'
  simp only at this
  omega

/-- The tokens of a text. -/
def scan? (text : String) : Option (List Token) := scanFrom? [] text.toList

end Token

end CloudCodec.Json
