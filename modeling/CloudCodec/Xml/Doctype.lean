/-
# Document type declarations

A document type declaration is skipped: only its end matters. Before the internal subset,
quotes hide everything up to the same quote; inside the subset every piece of markup has an end
of its own, and a closing bracket counts only between them.
-/
import CloudCodec.Text.Ascii
import CloudCodec.Xml.Fault

namespace CloudCodec.Xml

/-- The content of a tag up to the first `>` outside quotes, and what follows it. The bytes
`done` were read before, last byte first, and `quote?` is the quote that is open. -/
def splitTagFrom (quote? : Option UInt8) (done : List UInt8) :
    List UInt8 → Except Construct (List UInt8 × List UInt8)
  | [] =>
    .error (match quote? with
      | none => .tag
      | some q => if q = Ascii.quote then .doubleQuoted else .singleQuoted)
  | b :: rest =>
    match quote? with
    | some q => splitTagFrom (if b = q then none else some q) (b :: done) rest
    | none =>
      if b = Ascii.greater then .ok (done.reverse, rest)
      else splitTagFrom (if Ascii.isQuote b then some b else none) (b :: done) rest

/-- The content of a tag up to the first `>` outside quotes, and what follows it. -/
def splitTag (bytes : List UInt8) : Except Construct (List UInt8 × List UInt8) :=
  splitTagFrom none [] bytes

theorem length_of_splitTagFrom {quote? : Option UInt8} {done bytes : List UInt8}
    {r : List UInt8 × List UInt8} (h : splitTagFrom quote? done bytes = .ok r) :
    r.2.length < bytes.length := by
  induction bytes generalizing quote? done with
  | nil => simp [splitTagFrom] at h
  | cons b rest ih =>
    unfold splitTagFrom at h
    split at h
    · exact Nat.lt_succ_of_lt (ih h)
    · split at h
      · cases h
        simp
      · exact Nat.lt_succ_of_lt (ih h)

/-- What follows a tag is shorter than the tag with it. -/
theorem length_of_splitTag {bytes : List UInt8} {r : List UInt8 × List UInt8}
    (h : splitTag bytes = .ok r) : r.2.length < bytes.length :=
  length_of_splitTagFrom h

namespace Doctype

/-- What follows a piece of markup in the internal subset whose `<` was read. -/
def pastMarkup? (bytes : List UInt8) : Option (List UInt8) :=
  if (Ascii.bytes "?").isPrefixOf bytes then
    (Ascii.cut? (Ascii.bytes "?>") (bytes.drop 1)).map Prod.snd
  else if (Ascii.bytes "!--").isPrefixOf bytes then
    (Ascii.cut? (Ascii.bytes "-->") (bytes.drop 3)).map Prod.snd
  else if (Ascii.bytes "!ENTITY").isPrefixOf bytes || (Ascii.bytes "!ATTLIST").isPrefixOf bytes
      || (Ascii.bytes "!NOTATION").isPrefixOf bytes then
    (splitTag bytes).toOption.map Prod.snd
  else
    (Ascii.cut? [Ascii.greater] bytes).map Prod.snd

theorem length_of_pastMarkup? {bytes after : List UInt8} (h : pastMarkup? bytes = some after) :
    after.length ≤ bytes.length := by
  unfold pastMarkup? at h
  split at h
  · obtain ⟨r, hr, rfl⟩ := Option.map_eq_some_iff.1 h
    exact Nat.le_trans (Ascii.length_of_cut? hr) (by simp)
  · split at h
    · obtain ⟨r, hr, rfl⟩ := Option.map_eq_some_iff.1 h
      exact Nat.le_trans (Ascii.length_of_cut? hr) (by simp)
    · split at h
      · obtain ⟨r, hr, rfl⟩ := Option.map_eq_some_iff.1 h
        cases hs : splitTag bytes with
        | error e => simp [hs, Except.toOption] at hr
        | ok s =>
          simp only [hs, Except.toOption, Option.some.injEq] at hr
          exact hr ▸ Nat.le_of_lt (length_of_splitTag hs)
      · obtain ⟨r, hr, rfl⟩ := Option.map_eq_some_iff.1 h
        exact Ascii.length_of_cut? hr

/-- What follows the declaration, from inside its internal subset. -/
def insideSubset? (bytes : List UInt8) : Option (List UInt8) :=
  match bytes with
  | [] => none
  | b :: rest =>
    if b = Ascii.closeBracket then (Ascii.cut? [Ascii.greater] rest).map Prod.snd
    else if b = Ascii.less then
      match _h : pastMarkup? rest with
      | none => none
      | some after => insideSubset? after
    else insideSubset? rest
termination_by bytes.length
decreasing_by
  · have := length_of_pastMarkup? _h
    simp only [List.length_cons]
    omega
  · simp

/-- What follows the declaration, from before its internal subset; `quote?` is the quote that is
open. -/
def beforeSubset? (quote? : Option UInt8) : List UInt8 → Option (List UInt8)
  | [] => none
  | b :: rest =>
    match quote? with
    | some q => beforeSubset? (if b = q then none else some q) rest
    | none =>
      if b = Ascii.greater then some rest
      else if b = Ascii.openBracket then insideSubset? rest
      else beforeSubset? (if Ascii.isQuote b then some b else none) rest

/-- What follows a declaration of which `<!DOCTYPE` was read. -/
def skip (bytes : List UInt8) : Except Fault (List UInt8) :=
  match beforeSubset? none bytes with
  | none => .error (.unclosed .doctype)
  | some after =>
    if (bytes.dropWhile Ascii.isBlank).head? = some Ascii.greater then .error .namelessDoctype
    else .ok after

theorem length_of_insideSubset? {bytes after : List UInt8} (h : insideSubset? bytes = some after) :
    after.length ≤ bytes.length := by
  fun_induction insideSubset? bytes with
  | case1 => simp at h
  | case2 rest =>
    obtain ⟨r, hr, rfl⟩ := Option.map_eq_some_iff.1 h
    exact Nat.le_succ_of_le (Ascii.length_of_cut? hr)
  | case3 => simp at h
  | case4 rest mid hmid _ ih =>
    exact Nat.le_succ_of_le (Nat.le_trans (ih h) (length_of_pastMarkup? hmid))
  | case5 b rest _ _ ih => exact Nat.le_succ_of_le (ih h)

theorem length_of_beforeSubset? {quote? : Option UInt8} {bytes after : List UInt8}
    (h : beforeSubset? quote? bytes = some after) : after.length ≤ bytes.length := by
  induction bytes generalizing quote? with
  | nil => simp [beforeSubset?] at h
  | cons b rest ih =>
    unfold beforeSubset? at h
    split at h
    · exact Nat.le_succ_of_le (ih h)
    · split at h
      · cases h
        simp
      · split at h
        · exact Nat.le_succ_of_le (length_of_insideSubset? h)
        · exact Nat.le_succ_of_le (ih h)

/-- What follows a declaration is no longer than the declaration with it. -/
theorem length_of_skip {bytes after : List UInt8} (h : skip bytes = .ok after) :
    after.length ≤ bytes.length := by
  unfold skip at h
  split at h
  · simp at h
  · rename_i rest hrest
    split at h
    · simp at h
    · cases h
      exact length_of_beforeSubset? hrest

end Doctype

end CloudCodec.Xml
