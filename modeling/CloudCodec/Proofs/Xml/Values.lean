/-
# Names, references and values

Names, references, attribute values and attributes are read back from the bytes in which they are
written.  The argument is the same for each: the mark that ends it does not occur before its end,
since the text in between has no such character (`Utf8.ne_of_mem_encode`).  The main facts are
`Reference.meaning_number`, `Reference.meaning_entity`, `Reference.expand_quoted` and
`Attribute.read_render`.
-/
import CloudCodec.Proofs.Text.Utf8
import CloudCodec.Proofs.Xml.Source
import Mathlib

namespace CloudCodec

/-! ### Marks in bytes -/

namespace Ascii

/-- Bytes are cut at a mark that does not begin before it. -/
lemma cutFrom_append {mark content rest : List UInt8} (before : List UInt8) (hmark : mark ≠ [])
    (h : ∀ r, r ≠ [] → r <:+ content → ¬ mark <+: r ++ (mark ++ rest)) :
    cutFrom mark before (content ++ (mark ++ rest)) = some (before.reverse ++ content, rest) := by
  induction content generalizing before with
  | nil =>
    obtain ⟨m, ms, rfl⟩ := List.exists_cons_of_ne_nil hmark
    rw [List.nil_append, List.cons_append, cutFrom, if_pos]
    · simp
    · rw [List.isPrefixOf_iff_prefix, List.cons_prefix_cons]
      exact ⟨rfl, List.prefix_append ms rest⟩
  | cons b content ih =>
    -- the mark does not begin here, so the byte is part of the content
    have hnot : ¬ mark.isPrefixOf (b :: (content ++ (mark ++ rest))) = true := by
      rw [List.isPrefixOf_iff_prefix]
      exact h (b :: content) (by simp) (List.suffix_refl _)
    rw [List.cons_append, cutFrom, if_neg hnot,
      ih (b :: before) fun r hr hending => h r hr (hending.trans (List.suffix_cons b content))]
    simp

/-- Bytes are cut at a mark whose first byte does not occur before it. -/
lemma cut?_append_of_notMem {m : UInt8} {ms content rest : List UInt8} (h : m ∉ content) :
    cut? (m :: ms) (content ++ (m :: ms ++ rest)) = some (content, rest) := by
  refine cutFrom_append [] (by simp) fun r hr hending hbegins => ?_
  obtain ⟨b, r, rfl⟩ := List.exists_cons_of_ne_nil hr
  rw [List.cons_append, List.cons_prefix_cons] at hbegins
  exact h (hending.subset (hbegins.1 ▸ List.mem_cons_self))

end Ascii

namespace Xml

/-! ### Names -/

namespace Name

variable (n : Name)

lemma notMem_toList {c : Char} (h : isNameChar c = false) : c ∉ n.text.toList := by
  intro hc
  rw [List.all_eq_true.1 n.continues c hc] at h
  cases h

/-- No byte of a name is a mark. -/
lemma ne_of_mem {b m : UInt8} (hb : b ∈ Utf8.encode n.text) (hm : m.toNat < 0x80)
    (h : isNameChar (Char.ofNat m.toNat) = false) : b ≠ m :=
  Utf8.ne_of_mem_encode hb hm (n.notMem_toList h)

lemma encode_ne_nil : Utf8.encode n.text ≠ [] := by
  intro h
  have hbegins := n.begins
  cases hchars : n.text.toList with
  | nil => simp [hchars] at hbegins
  | cons c cs =>
    obtain ⟨first, more, hfirst⟩ := Utf8.exists_ofChar_eq_cons c
    simp [Utf8.encode_eq_bytesOf, hchars, hfirst] at h

lemma isBlank_eq_false {b : UInt8} (hb : b ∈ Utf8.encode n.text) : Ascii.isBlank b = false := by
  have hspace : b ≠ 0x20 := n.ne_of_mem hb (by decide) (by decide)
  have htab : b ≠ 0x09 := n.ne_of_mem hb (by decide) (by decide)
  have hline : b ≠ 0x0A := n.ne_of_mem hb (by decide) (by decide)
  have hreturn : b ≠ 0x0D := n.ne_of_mem hb (by decide) (by decide)
  simp [Ascii.isBlank, hspace, htab, hline, hreturn]

lemma isQuote_eq_false {b : UInt8} (hb : b ∈ Utf8.encode n.text) : Ascii.isQuote b = false := by
  have hquote : b ≠ Ascii.quote := n.ne_of_mem hb (by decide) (by decide)
  have hapostrophe : b ≠ Ascii.apostrophe := n.ne_of_mem hb (by decide) (by decide)
  simp [Ascii.isQuote, hquote, hapostrophe]

end Name

/-! ### References -/

namespace Digit

variable {radix : Radix}

lemma digit?_char (d : Digit radix) : Numeral.digit? radix.base d.char = some d.value.val := by
  obtain ⟨value, isUpper⟩ := d
  cases radix <;> revert value isUpper <;> decide

lemma isAlphanum_char (d : Digit radix) : d.char.isAlphanum = true := by
  obtain ⟨value, isUpper⟩ := d
  cases radix <;> revert value isUpper <;> decide

lemma char_ne_x (d : Digit radix) : d.char ≠ 'x' := by
  obtain ⟨value, isUpper⟩ := d
  cases radix <;> revert value isUpper <;> decide

lemma char_ne {c : Char} (hc : c.isAlphanum = false) (d : Digit radix) : d.char ≠ c := by
  rintro rfl
  rw [d.isAlphanum_char] at hc
  cases hc

/-- A number does not get smaller by more digits. -/
lemma le_numberFrom (n : Nat) (ds : List (Digit radix)) : n ≤ numberFrom n ds := by
  induction ds generalizing n with
  | nil => exact Nat.le_refl n
  | cons d ds ih =>
    have hbase : 1 ≤ radix.base := by cases radix <;> decide
    calc
      n ≤ n * radix.base := Nat.le_mul_of_pos_right n hbase
      _ ≤ n * radix.base + d.value := Nat.le_add_right _ _
      _ ≤ numberFrom n (d :: ds) := ih _

end Digit

namespace Reference

variable {radix : Radix}

lemma numberFrom_chars (n : Nat) (ds : List (Digit radix))
    (h : Digit.numberFrom n ds < 4294967296) :
    numberFrom radix.base n (ds.map Digit.char) = .ok (Digit.numberFrom n ds) := by
  induction ds generalizing n with
  | nil => rfl
  | cons d ds ih =>
    -- no later digit makes the number smaller, so all of it fits as soon as the whole does
    have hle : n * radix.base + d.value < 4294967296 :=
      Nat.lt_of_le_of_lt (Digit.le_numberFrom _ ds) h
    rw [List.map_cons, numberFrom, d.digit?_char]
    simp only [hle, if_true]
    exact ih _ h

lemma number_chars {ds : List (Digit radix)} (hne : ds ≠ [])
    (h : Digit.numberFrom 0 ds < 4294967296) :
    number radix.base (ds.map Digit.char) = .ok (Digit.numberFrom 0 ds) := by
  obtain ⟨d, ds, rfl⟩ := List.exists_cons_of_ne_nil hne
  rw [List.map_cons]
  unfold number
  split
  · rename_i heq
    cases heq
  · rename_i heq
    exact absurd (List.cons.inj heq).1 (d.char_ne (by decide))
  · rename_i heq
    exact absurd (List.cons.inj heq).1 (d.char_ne (by decide))
  · exact numberFrom_chars 0 (d :: ds) h

/-- A character is found by its number. -/
lemma ofNumber_toNat {c : Char} (h : c.toNat ≠ 0) : ofNumber c.toNat = .ok c := by
  have hvalid : c.toNat.isValidChar := c.valid
  rw [ofNumber, if_neg h, if_pos hvalid, Char.ofNat_toNat]

lemma character_chars {ds : List (Digit radix)} (hne : ds ≠ [])
    (h : Digit.numberFrom 0 ds < 4294967296) :
    character (radix.mark.toList ++ ds.map Digit.char) = ofNumber (Digit.numberFrom 0 ds) := by
  have hnumber := number_chars hne h
  cases radix with
  | decimal =>
    have hmark : Radix.decimal.mark.toList = [] := rfl
    obtain ⟨d, ds, rfl⟩ := List.exists_cons_of_ne_nil hne
    rw [hmark, List.nil_append]
    unfold character
    split
    · -- a digit is no `x`, so the radix is not taken for sixteen
      rename_i heq
      exact absurd (List.cons.inj heq).1 d.char_ne_x
    · change (number Radix.decimal.base _).bind ofNumber = _
      rw [hnumber, Except.bind]
  | hexadecimal =>
    have hmark : Radix.hexadecimal.mark.toList = ['x'] := rfl
    rw [hmark, List.singleton_append, character]
    change (number Radix.hexadecimal.base _).bind ofNumber = _
    rw [hnumber, Except.bind]

lemma character_name (r : CharacterReference) :
    character (r.radix.mark.toList ++ r.digits.map Digit.char) = .ok r.character := by
  have hne : r.digits ≠ [] := by
    intro h
    have hdenotes := r.denotes
    rw [h] at hdenotes
    exact r.ne_zero hdenotes.symm
  have hlt : Digit.numberFrom 0 r.digits < 4294967296 := by
    have := Utf8.toNat_lt_or r.character
    rw [r.denotes]
    omega
  rw [character_chars hne hlt, r.denotes, ofNumber_toNat r.ne_zero]

lemma toList_name (r : CharacterReference) :
    r.name.toList = '#' :: (r.radix.mark.toList ++ r.digits.map Digit.char) := by
  simp [CharacterReference.name]

/-- A reference by number means its character. -/
lemma meaning_number (unknown : Fault) (r : CharacterReference) :
    meaning unknown r.name = .ok r.character.toString := by
  rw [meaning, toList_name]
  simp only [character_name]

/-- A reference by name means its character. -/
lemma meaning_entity (unknown : Fault) (e : Entity) :
    meaning unknown e.name = .ok e.character.toString := by
  cases e <;> rfl

/-! ### References in attribute values -/

variable (size start : Nat) (done : String) (rest : List Char)

lemma expandFrom_cons_of_ne {c : Char} (h : c ≠ '&') :
    expandFrom size start done (c :: rest)
      = expandFrom size (start + c.utf8Size) (done.push c) rest := by
  rw [expandFrom.eq_def]
  simp only [h, if_false]

lemma expandFrom_reference {name : List Char} {text : String}
    (hname : ∀ c ∈ name, isNamePart c = true)
    (hmeaning : ∀ unknown, meaning unknown (String.ofList name) = .ok text) :
    ∃ start', expandFrom size start done ('&' :: (name ++ ';' :: rest))
      = expandFrom size start' (done ++ text) rest := by
  have htake : (name ++ ';' :: rest).takeWhile isNamePart = name := by
    rw [List.takeWhile_append_of_pos hname, List.takeWhile_cons_of_neg (by decide),
      List.append_nil]
  have hdrop : (name ++ ';' :: rest).dropWhile isNamePart = ';' :: rest := by
    rw [List.dropWhile_append_of_pos hname, List.dropWhile_cons_of_neg (by decide)]
  refine ⟨start + 1 + byteCount name + 1, ?_⟩
  rw [expandFrom.eq_def]
  simp only [if_true]
  split
  · rename_i heq
    rw [hdrop] at heq
    cases heq
  · rename_i heq
    rw [hdrop] at heq
    cases heq
    simp only [htake, hmeaning, if_true]

lemma expandFrom_entity (e : Entity) :
    ∃ start', expandFrom size start done ('&' :: (e.name.toList ++ ';' :: rest))
      = expandFrom size start' (done.push e.character) rest := by
  have hname : ∀ c ∈ e.name.toList, isNamePart c = true := by
    cases e <;> simp [Entity.name, isNamePart]
  have hmeaning : ∀ unknown, meaning unknown (String.ofList e.name.toList)
      = .ok e.character.toString := by
    intro unknown
    rw [String.ofList_toList]
    exact meaning_entity unknown e
  exact expandFrom_reference size start done rest hname hmeaning

lemma expandFrom_quotedChar (c : Char) :
    ∃ start', expandFrom size start done (quotedChar c ++ rest)
      = expandFrom size start' (done.push c) rest := by
  unfold quotedChar
  split_ifs with hampersand hless hgreater hquote
  · subst hampersand
    exact expandFrom_entity size start done rest .ampersand
  · subst hless
    exact expandFrom_entity size start done rest .less
  · subst hgreater
    exact expandFrom_entity size start done rest .greater
  · subst hquote
    exact expandFrom_entity size start done rest .quote
  · exact ⟨_, expandFrom_cons_of_ne size start done rest hampersand⟩

lemma expandFrom_flatMap_quotedChar (cs : List Char) :
    expandFrom size start done (cs.flatMap quotedChar) = .ok (done ++ String.ofList cs) := by
  induction cs generalizing start done with
  | nil =>
    rw [List.flatMap_nil, expandFrom]
    simp
  | cons c cs ih =>
    obtain ⟨start', h⟩ := expandFrom_quotedChar size start done (cs.flatMap quotedChar) c
    rw [List.flatMap_cons, h, ih]
    congr 1
    apply String.toList_inj.1
    simp

/-- A value is read back from between its quotes. -/
theorem expand_quoted (value : String) : expand (quoted value) = .ok value := by
  rw [expand, quoted, String.toList_ofList, expandFrom_flatMap_quotedChar]
  simp

end Reference

lemma quote_notMem_quoted (value : String) : '"' ∉ (quoted value).toList := by
  rw [quoted, String.toList_ofList, List.mem_flatMap]
  rintro ⟨c, -, hc⟩
  unfold quotedChar at hc
  split_ifs at hc with hampersand hless hgreater hquote
  · simp at hc
  · simp at hc
  · simp at hc
  · simp at hc
  · exact hquote (List.mem_singleton.1 hc).symm

lemma quote_notMem_encode_quoted (value : String) : Ascii.quote ∉ Utf8.encode (quoted value) :=
  Utf8.notMem_encode (by decide) (quote_notMem_quoted value)

/-! ### Attributes -/

namespace Attribute

variable (content : List UInt8) {bytes rest : List UInt8}
  {seen : List (List UInt8 × List UInt8)} {done : Attributes}

lemma spelled_encode (s : String) : spelled (Utf8.encode s) = .ok s := by
  rw [spelled, Utf8.decode_encode]
  rfl

lemma value_quoted {value : List UInt8} (h : Ascii.quote ∉ value) :
    Attribute.value content (Ascii.quote :: (value ++ Ascii.quote :: rest))
      = .ok (value, rest) := by
  have hcut : Ascii.cut? [Ascii.quote] (value ++ Ascii.quote :: rest) = some (value, rest) :=
    Ascii.cut?_append_of_notMem h
  rw [Attribute.value, List.dropWhile_cons_of_neg (by decide)]
  simp only [hcut]
  rfl

lemma next_of_name (n : Name) {b : UInt8} {bs value : List UInt8}
    (hname : Utf8.encode n.text = b :: bs) (hseen : seen.lookup (Utf8.encode n.text) = none)
    (hvalue : Ascii.quote ∉ value) :
    next content seen b (bs ++ Ascii.equals :: Ascii.quote :: (value ++ Ascii.quote :: rest))
      = .ok (⟨Utf8.encode n.text, value⟩, rest) := by
  have hpart : ∀ a ∈ bs, isNamePart a = true := by
    intro a ha
    have hmem : a ∈ Utf8.encode n.text := hname ▸ List.mem_cons_of_mem b ha
    have hequals : a ≠ Ascii.equals := n.ne_of_mem hmem (by decide) (by decide)
    simp [isNamePart, hequals, n.isBlank_eq_false hmem]
  rw [next, List.takeWhile_append_of_pos hpart, List.takeWhile_cons_of_neg (by decide),
    List.append_nil, ← hname, List.dropWhile_append_of_pos hpart,
    List.dropWhile_cons_of_neg (by decide), List.dropWhile_cons_of_neg (by decide)]
  simp only [hseen, value_quoted content hvalue, if_true]
  rfl

lemma resolve_pair (p : Name × String) :
    (Raw.mk (Utf8.encode p.1.text) (Utf8.encode (quoted p.2))).resolve = .ok (p.1.text, p.2) := by
  simp only [Raw.resolve, spelled_encode, bind, Except.bind, Reference.expand_quoted]
  rfl

lemma readFrom_of_next {b : UInt8} {after : List UInt8} {raw : Raw} {name value : String}
    (hbytes : bytes.dropWhile Ascii.isBlank = b :: rest)
    (hnext : next content seen b rest = .ok (raw, after))
    (hresolve : raw.resolve = .ok (name, value)) :
    readFrom content seen done bytes
      = readFrom content ((raw.name, b :: rest) :: seen) (done.insert name value) after := by
  rw [readFrom.eq_def]
  split
  · rename_i heq
    rw [hbytes] at heq
    cases heq
  · rename_i heq
    rw [hbytes] at heq
    cases heq
    split
    · rename_i heq
      rw [hnext] at heq
      cases heq
    · rename_i heq
      rw [hnext] at heq
      cases heq
      simp only [hresolve]

lemma encode_renderPair (p : Name × String) :
    Utf8.encode (AttributeList.renderPair p)
      = 0x20 :: (Utf8.encode p.1.text
        ++ Ascii.equals :: Ascii.quote :: (Utf8.encode (quoted p.2) ++ [Ascii.quote])) := by
  have hblank : Utf8.encode " " = [0x20] := rfl
  have hmiddle : Utf8.encode "=\"" = [Ascii.equals, Ascii.quote] := rfl
  have hquote : Utf8.encode "\"" = [Ascii.quote] := rfl
  simp [AttributeList.renderPair, hblank, hmiddle, hquote]

/-- Attributes under names not seen before, and not twice, are all read. -/
theorem readFrom_pairs (pairs : List (Name × String))
    (hnodup : (pairs.map fun p => p.1.text).Nodup)
    (hseen : ∀ p ∈ pairs, seen.lookup (Utf8.encode p.1.text) = none) :
    readFrom content seen done (Utf8.encode (String.join (pairs.map AttributeList.renderPair)))
      = .ok (done.insertMany (pairs.map fun p => (p.1.text, p.2))) := by
  induction pairs generalizing seen done with
  | nil =>
    rw [readFrom.eq_def]
    rfl
  | cons p pairs ih =>
    rw [List.map_cons, List.nodup_cons] at hnodup
    obtain ⟨b, bs, hname⟩ := List.exists_cons_of_ne_nil p.1.encode_ne_nil
    have hblank : Ascii.isBlank b = false :=
      p.1.isBlank_eq_false (hname ▸ List.mem_cons_self)
    have hbytes : (Utf8.encode (String.join ((p :: pairs).map AttributeList.renderPair))).dropWhile
        Ascii.isBlank = b :: (bs ++ Ascii.equals :: Ascii.quote :: (Utf8.encode (quoted p.2)
          ++ Ascii.quote :: Utf8.encode (String.join (pairs.map AttributeList.renderPair)))) := by
      rw [List.map_cons, String.join_cons, Utf8.encode_append, encode_renderPair, hname,
        List.cons_append, List.dropWhile_cons_of_pos (by decide)]
      simp [hblank]
    rw [readFrom_of_next content hbytes
      (next_of_name content p.1 hname (hseen p List.mem_cons_self)
        (quote_notMem_encode_quoted p.2)) (resolve_pair p)]
    -- the name that was read is a new one, and no later name is the same
    refine ih hnodup.2 fun q hq => ?_
    have hne : Utf8.encode q.1.text ≠ Utf8.encode p.1.text := by
      intro h
      refine hnodup.1 (List.mem_map.2 ⟨q, hq, Utf8.encode_injective h⟩)
    rw [List.lookup_cons, beq_eq_false_iff_ne.2 hne]
    exact hseen q (List.mem_cons_of_mem p hq)

/-- The attributes of a start tag are read back. -/
theorem read_render (as : AttributeList) :
    read content (Utf8.encode as.render) = .ok as.toMap :=
  readFrom_pairs content as.pairs as.nodup fun _ _ => rfl

end Attribute

end Xml

end CloudCodec
