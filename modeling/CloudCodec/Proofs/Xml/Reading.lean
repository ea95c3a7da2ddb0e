/-
# Documents read back

A document that is written in any of the forms of `Source` is read as the events of the element
that is meant (`Source.ofDocument_render`).

What has been read of a document is a `Progress`, and what is left of it are bytes.  Each part of a
document is shown to take the reader from one progress to another whatever bytes follow it.  For a
run of pieces the lemma carries along the raw text in front of it, since raw pieces side by side
are read as one run of character data (`Progress.read_pieces`); for elements the induction is on
their nesting (`Source.read_render`).
-/
import CloudCodec.Proofs.Text.Blank
import CloudCodec.Proofs.Xml.Values
import Mathlib

namespace CloudCodec.Xml

/-! ### Tags -/

/-- Whether some bytes leave a tag as open as it was: they hold no end of it, and
quotes only in pairs. -/
def KeepsTag (bytes : List UInt8) : Prop :=
  ∀ done rest,
    splitTagFrom none done (bytes ++ rest) = splitTagFrom none (bytes.reverse ++ done) rest

namespace KeepsTag

variable {bytes bytes' : List UInt8}

lemma append (h : KeepsTag bytes) (h' : KeepsTag bytes') : KeepsTag (bytes ++ bytes') := by
  intro done rest
  rw [List.append_assoc, h, h', List.reverse_append, List.append_assoc]

lemma of_plain (h : ∀ b ∈ bytes, b ≠ Ascii.greater ∧ Ascii.isQuote b = false) :
    KeepsTag bytes := by
  intro done rest
  induction bytes generalizing done with
  | nil => rfl
  | cons b bytes ih =>
    obtain ⟨hgreater, hquote⟩ := h b List.mem_cons_self
    rw [List.cons_append, splitTagFrom]
    simp only [hgreater, hquote, if_false, Bool.false_eq_true]
    rw [ih fun b hb => h b (List.mem_cons_of_mem _ hb)]
    simp

lemma of_mark {b : UInt8} (hgreater : b ≠ Ascii.greater) (hquote : Ascii.isQuote b = false) :
    KeepsTag [b] :=
  of_plain fun _ hb => List.mem_singleton.1 hb ▸ ⟨hgreater, hquote⟩

lemma splitTagFrom_quote (h : Ascii.quote ∉ bytes) (done rest : List UInt8) :
    splitTagFrom (some Ascii.quote) done (bytes ++ Ascii.quote :: rest)
      = splitTagFrom none (Ascii.quote :: (bytes.reverse ++ done)) rest := by
  induction bytes generalizing done with
  | nil => rfl
  | cons b bytes ih =>
    rw [List.mem_cons, not_or] at h
    rw [List.cons_append, splitTagFrom]
    simp only [Ne.symm h.1, if_false]
    rw [ih h.2]
    simp

lemma of_quoted (h : Ascii.quote ∉ bytes) :
    KeepsTag (Ascii.quote :: (bytes ++ [Ascii.quote])) := by
  intro done rest
  rw [List.cons_append, List.append_assoc, List.singleton_append, splitTagFrom]
  change splitTagFrom (some Ascii.quote) (Ascii.quote :: done) _ = _
  rw [splitTagFrom_quote h]
  simp

lemma of_name (n : Name) : KeepsTag (Utf8.encode n.text) :=
  of_plain fun _ hb => ⟨n.ne_of_mem hb (by decide) (by decide), n.isQuote_eq_false hb⟩

lemma of_pair (p : Name × String) : KeepsTag (Utf8.encode (AttributeList.renderPair p)) := by
  rw [Attribute.encode_renderPair]
  have hblank : KeepsTag [0x20] := of_mark (by decide) (by decide)
  have hequals : KeepsTag [Ascii.equals] := of_mark (by decide) (by decide)
  exact hblank.append ((of_name p.1).append
    (hequals.append (of_quoted (quote_notMem_encode_quoted p.2))))

lemma of_attributes (as : AttributeList) : KeepsTag (Utf8.encode as.render) := by
  rw [AttributeList.render]
  induction as.pairs with
  | nil => exact fun _ _ => rfl
  | cons p pairs ih =>
    rw [List.map_cons, String.join_cons, Utf8.encode_append]
    exact (of_pair p).append ih

/-- A tag ends at the first `>` behind its content. -/
lemma splitTag (h : KeepsTag bytes) (rest : List UInt8) :
    splitTag (bytes ++ Ascii.greater :: rest) = .ok (bytes, rest) := by
  rw [Xml.splitTag, h, splitTagFrom]
  simp

end KeepsTag

/-- A CDATA section ends at the first `]]>` behind its text: no `]]>` begins earlier, neither in
the text nor across its end. -/
lemma cut?_verbatim {text : String} (h : ¬ "]]>".toList <:+: text.toList) (rest : List UInt8) :
    Ascii.cut? (Ascii.bytes "]]>") (Utf8.encode text ++ (Ascii.bytes "]]>" ++ rest))
      = some (Utf8.encode text, rest) := by
  have hmark : Ascii.bytes "]]>" = [Ascii.closeBracket, Ascii.closeBracket, Ascii.greater] := rfl
  refine Ascii.cutFrom_append [] (by simp [hmark]) fun r hr hending hbegins => ?_
  rw [hmark] at hbegins
  match r with
  | [] => exact hr rfl
  | [a] => simp [Ascii.closeBracket, Ascii.greater] at hbegins
  | [a, b] => simp [Ascii.closeBracket, Ascii.greater] at hbegins
  | a :: b :: c :: r =>
    have hmem : Utf8.bytesOf "]]>".toList <:+: Utf8.bytesOf text.toList := by
      have hequal : Utf8.bytesOf "]]>".toList = [a, b, c] := by
        simp only [List.cons_append, List.cons_prefix_cons] at hbegins
        rw [← hbegins.1, ← hbegins.2.1, ← hbegins.2.2.1]
        rfl
      rw [hequal]
      exact (List.prefix_append [a, b, c] r).isInfix.trans hending.isInfix
    exact h (Utf8.isInfix_of_bytesOf (by simp) (by simp) hmem)

namespace Lexeme

variable {bytes rest : List UInt8}

lemma markup_startTag {b : UInt8} (hdeclaration : b ≠ Ascii.exclamation)
    (hinstruction : b ≠ Ascii.question) (hend : b ≠ Ascii.slash) (h : KeepsTag (b :: bytes)) :
    markup (b :: bytes ++ Ascii.greater :: rest) = .ok (ofTag (b :: bytes), rest) := by
  rw [List.cons_append, markup]
  simp only [hdeclaration, hinstruction, hend, if_false]
  rw [tag, ← List.cons_append, h.splitTag]

lemma markup_endTag (h : KeepsTag bytes) :
    markup (Ascii.slash :: (bytes ++ Ascii.greater :: rest)) = .ok (.endTag bytes, rest) := by
  rw [markup]
  change tag .endTag _ = _
  rw [tag, h.splitTag]

lemma getLast?_renderPair (p : Name × String) :
    (Utf8.encode (AttributeList.renderPair p)).getLast? = some Ascii.quote := by
  have hquote : Utf8.encode "\"" = [Ascii.quote] := rfl
  rw [AttributeList.renderPair, Utf8.encode_append, hquote, List.getLast?_concat]

lemma getLast?_pairs (pairs : List (Name × String)) :
    (Utf8.encode (String.join (pairs.map AttributeList.renderPair))).getLast? = none
      ∨ (Utf8.encode (String.join (pairs.map AttributeList.renderPair))).getLast?
        = some Ascii.quote := by
  induction pairs with
  | nil => exact .inl rfl
  | cons p pairs ih =>
    right
    rw [List.map_cons, String.join_cons, Utf8.encode_append, List.getLast?_append,
      getLast?_renderPair]
    rcases ih with h | h <;> rw [h] <;> rfl

/-- The content of a start tag does not end in a slash. -/
lemma getLast?_content_ne_slash (n : Name) (as : AttributeList) :
    (Utf8.encode n.text ++ Utf8.encode as.render).getLast? ≠ some Ascii.slash := by
  rw [List.getLast?_append, AttributeList.render]
  rcases getLast?_pairs as.pairs with h | h
  · rw [h, Option.none_or]
    exact fun hlast => n.ne_of_mem (List.mem_of_getLast? hlast) (by decide) (by decide) rfl
  · rw [h, Option.some_or]
    decide

/-- What stands before the `>` of a start tag, or of an empty element. -/
def closingMark (isEmpty : Bool) : List UInt8 := if isEmpty then [Ascii.slash] else []

lemma ofTag_content (n : Name) (as : AttributeList) (isEmpty : Bool) :
    ofTag (Utf8.encode n.text ++ Utf8.encode as.render ++ closingMark isEmpty)
      = .startTag (Utf8.encode n.text ++ Utf8.encode as.render) isEmpty := by
  cases isEmpty with
  | false =>
    rw [closingMark, if_neg Bool.false_ne_true, List.append_nil, ofTag,
      if_neg (getLast?_content_ne_slash n as)]
  | true =>
    rw [closingMark, if_pos rfl, ofTag, if_pos List.getLast?_concat, List.dropLast_concat]

/-- The first piece of what is written from a start tag on is this tag. -/
lemma next_startTag (n : Name) (as : AttributeList) (isEmpty : Bool) (rest : List UInt8) :
    next Ascii.less (Utf8.encode n.text ++ (Utf8.encode as.render
        ++ (closingMark isEmpty ++ Ascii.greater :: rest)))
      = .ok (.startTag (Utf8.encode n.text ++ Utf8.encode as.render) isEmpty, rest) := by
  have hmark : KeepsTag (closingMark isEmpty) := by
    cases isEmpty with
    | false => exact fun _ _ => rfl
    | true => exact KeepsTag.of_mark (by decide) (by decide)
  have hcontent : KeepsTag (Utf8.encode n.text ++ Utf8.encode as.render ++ closingMark isEmpty) :=
    ((KeepsTag.of_name n).append (KeepsTag.of_attributes as)).append hmark
  have hmake := ofTag_content n as isEmpty
  -- the tag is a start tag because its name does not begin with a mark
  obtain ⟨b, bs, hname⟩ := List.exists_cons_of_ne_nil n.encode_ne_nil
  have hb : b ∈ Utf8.encode n.text := hname ▸ List.mem_cons_self
  rw [← List.append_assoc, ← List.append_assoc]
  rw [hname] at hcontent hmake ⊢
  rw [next, if_pos rfl]
  have htag := @markup_startTag _ rest b (n.ne_of_mem hb (by decide) (by decide))
    (n.ne_of_mem hb (by decide) (by decide)) (n.ne_of_mem hb (by decide) (by decide)) hcontent
  rw [← hmake]
  exact htag

end Lexeme

/-! ### The steps of the reader -/

lemma encode_less : Utf8.encode "<" = [Ascii.less] := rfl

namespace Progress

variable {p p' : Progress} {trim : Bool} {rest : List UInt8}

lemma read_of_next {b : UInt8} {after : List UInt8} {lexeme : Lexeme}
    (hnext : Lexeme.next b rest = .ok (lexeme, after)) (hstep : p.step trim lexeme = .ok p') :
    p.read trim (b :: rest) = p'.read trim after := by
  rw [Progress.read]
  split
  · rename_i heq
    rw [hnext] at heq
    cases heq
  · rename_i heq
    rw [hnext] at heq
    cases heq
    simp only [hstep]

lemma encode_render_eq_nil_or (as : AttributeList) :
    Utf8.encode as.render = [] ∨ ∃ more, Utf8.encode as.render = 0x20 :: more := by
  rw [AttributeList.render]
  cases as.pairs with
  | nil => exact .inl rfl
  | cons p pairs =>
    right
    rw [List.map_cons, String.join_cons, Utf8.encode_append, Attribute.encode_renderPair]
    exact ⟨_, rfl⟩

lemma isNamePart_of_mem (n : Name) : ∀ b ∈ Utf8.encode n.text, isNamePart b = true := by
  intro b hb
  rw [isNamePart, n.isBlank_eq_false hb, Bool.not_false]

lemma takeWhile_content (n : Name) (as : AttributeList) :
    (Utf8.encode n.text ++ Utf8.encode as.render).takeWhile isNamePart = Utf8.encode n.text := by
  rw [List.takeWhile_append_of_pos (isNamePart_of_mem n)]
  rcases encode_render_eq_nil_or as with h | ⟨more, h⟩
  · rw [h, List.takeWhile_nil, List.append_nil]
  · rw [h, List.takeWhile_cons_of_neg (by decide), List.append_nil]

lemma dropWhile_content (n : Name) (as : AttributeList) :
    (Utf8.encode n.text ++ Utf8.encode as.render).dropWhile isNamePart
      = Utf8.encode as.render := by
  rw [List.dropWhile_append_of_pos (isNamePart_of_mem n)]
  rcases encode_render_eq_nil_or as with h | ⟨more, h⟩
  · rw [h, List.dropWhile_nil]
  · rw [h, List.dropWhile_cons_of_neg (by decide)]

/-- The progress behind a tag that opens an element, and closes it if it is empty. -/
def behindStartTag (p : Progress) (name : String) (attributes : Attributes) (isEmpty : Bool) :
    Progress :=
  if isEmpty then
    ⟨p.path, "", true, .closing name "" :: .opening name attributes :: p.events⟩
  else ⟨name :: p.path, "", true, .opening name attributes :: p.events⟩

lemma onStartTag_content (n : Name) (as : AttributeList) (isEmpty : Bool)
    (hroot : p.path = [] → p.hasRoot = false) :
    p.onStartTag (Utf8.encode n.text ++ Utf8.encode as.render) isEmpty
      = .ok (p.behindStartTag n.text as.toMap isEmpty) := by
  have hfirst : (p.path.isEmpty && p.hasRoot) = false := by
    cases hpath : p.path with
    | nil => simp [hroot hpath]
    | cons name path => rfl
  unfold onStartTag
  simp only [hfirst, takeWhile_content, dropWhile_content, Attribute.spelled_encode,
    Attribute.read_render, bind, Except.bind, pure, Except.pure, behindStartTag,
    Bool.false_eq_true, if_false]
  split <;> rfl

/-- A start tag opens its element, and closes it if it has the mark of an empty one. -/
lemma read_startTag (n : Name) (as : AttributeList) (isEmpty : Bool)
    (hroot : p.path = [] → p.hasRoot = false) (rest : List UInt8) :
    p.read trim (Ascii.less :: (Utf8.encode n.text ++ (Utf8.encode as.render
        ++ (Lexeme.closingMark isEmpty ++ Ascii.greater :: rest))))
      = (p.behindStartTag n.text as.toMap isEmpty).read trim rest :=
  read_of_next (Lexeme.next_startTag n as isEmpty rest) (onStartTag_content n as isEmpty hroot)

lemma endTagName_encode (n : Name) : endTagName (Utf8.encode n.text) = Utf8.encode n.text := by
  have hnot : (Utf8.encode n.text).all Ascii.isBlank = false := by
    obtain ⟨b, bs, hname⟩ := List.exists_cons_of_ne_nil n.encode_ne_nil
    have hb := n.isBlank_eq_false (hname ▸ List.mem_cons_self)
    rw [hname, List.all_cons, hb, Bool.false_and]
  have hreverse : (Utf8.encode n.text).reverse.dropWhile Ascii.isBlank
      = (Utf8.encode n.text).reverse := by
    cases hlast : (Utf8.encode n.text).reverse with
    | nil => rfl
    | cons b bs =>
      have hmem : b ∈ Utf8.encode n.text := by
        rw [← List.mem_reverse, hlast]
        exact List.mem_cons_self
      rw [List.dropWhile_cons_of_neg (by simp [n.isBlank_eq_false hmem])]
  rw [endTagName, hnot, if_neg Bool.false_ne_true, hreverse, List.reverse_reverse]

/-- What becomes of a text at the end of its element. -/
def settle (trim : Bool) : String → String := if trim then Text.trim else id

/-- An end tag closes its element. -/
lemma read_endTag (n : Name) {path : List String} (hpath : p.path = n.text :: path)
    (rest : List UInt8) :
    p.read trim (Ascii.less :: Ascii.slash :: (Utf8.encode n.text ++ Ascii.greater :: rest))
      = (⟨path, "", p.hasRoot, .closing n.text (settle trim p.text) :: p.events⟩ : Progress).read
        trim rest := by
  have hnext : Lexeme.next Ascii.less
      (Ascii.slash :: (Utf8.encode n.text ++ Ascii.greater :: rest))
        = .ok (.endTag (Utf8.encode n.text), rest) := by
    rw [Lexeme.next, if_pos rfl]
    exact Lexeme.markup_endTag (KeepsTag.of_name n)
  refine read_of_next hnext ?_
  have hfound : (Utf8.decode (endTagName (Utf8.encode n.text))).toOption = some n.text := by
    rw [endTagName_encode, Utf8.decode_encode]
    rfl
  simp only [step, onEndTag, hfound, hpath, if_true]
  cases trim <;> rfl

/-! ### Character data -/

section Content

variable (hpath : p.path ≠ [])
include hpath

lemma onText_encode (text : String) : p.onText (Utf8.encode text) = .ok (p.addText text) := by
  have hopen : p.path.isEmpty = false := by simpa using hpath
  rw [onText, Utf8.decode_encode]
  simp only [Except.mapError, bind, Except.bind, hopen, Bool.false_eq_true, if_false]
  rfl

lemma onVerbatim_encode (text : String) :
    p.onVerbatim (Utf8.encode text) = .ok (p.addText text) := by
  have hopen : p.path.isEmpty = false := by simpa using hpath
  rw [onVerbatim, Attribute.spelled_encode]
  simp only [bind, Except.bind, hopen, Bool.false_eq_true, if_false]
  rfl

lemma onReference_encode {name text : String}
    (hmeaning : ∀ unknown, Reference.meaning unknown name = .ok text) :
    p.onReference (Utf8.encode name) = .ok (p.addText text) := by
  have hopen : p.path.isEmpty = false := by simpa using hpath
  rw [onReference, Utf8.decode_encode]
  simp only [Except.mapError, bind, Except.bind, hopen, Bool.false_eq_true, if_false, hmeaning]
  rfl

/-- Characters that stand for themselves are read up to the next `<` or `&`. -/
lemma read_text {text : String} (h : '&' ∉ text.toList ∧ '<' ∉ text.toList)
    (hrest : rest.head?.all Lexeme.isText = false) :
    p.read trim (Utf8.encode text ++ rest) = (p.addText text).read trim rest := by
  have hisText : ∀ b ∈ Utf8.encode text, Lexeme.isText b = true := by
    intro b hb
    have hampersand : b ≠ Ascii.ampersand := Utf8.ne_of_mem_encode hb (by decide) h.1
    have hless : b ≠ Ascii.less := Utf8.ne_of_mem_encode hb (by decide) h.2
    simp [Lexeme.isText, hless, hampersand]
  cases hbytes : Utf8.encode text with
  | nil =>
    -- no text is written, so no piece is read and nothing is added
    have hempty : text = "" := Utf8.encode_injective (hbytes.trans rfl)
    rw [List.nil_append, hempty, addText, String.append_empty]
  | cons b bs =>
    rw [hbytes] at hisText
    have hb := hisText b List.mem_cons_self
    have hbs : ∀ b ∈ bs, Lexeme.isText b = true :=
      fun b hb => hisText b (List.mem_cons_of_mem _ hb)
    obtain ⟨mark, after, rfl, hmark⟩ : ∃ mark after, rest = mark :: after
        ∧ Lexeme.isText mark = false := by
      cases rest with
      | nil => simp at hrest
      | cons mark after => exact ⟨mark, after, rfl, by simpa using hrest⟩
    have hnext : Lexeme.next b (bs ++ mark :: after)
        = .ok (.text (Utf8.encode text), mark :: after) := by
      rw [Lexeme.isText, Bool.and_eq_true, bne_iff_ne, bne_iff_ne] at hb
      rw [Lexeme.next, if_neg hb.1, if_neg hb.2, List.takeWhile_append_of_pos hbs,
        List.takeWhile_cons_of_neg (by simp [hmark]), List.append_nil,
        List.dropWhile_append_of_pos hbs, List.dropWhile_cons_of_neg (by simp [hmark]), hbytes]
    exact read_of_next hnext (onText_encode hpath text)

/-- A reference is read as what it means. -/
lemma read_reference {name text : String}
    (hname : '&' ∉ name.toList ∧ '<' ∉ name.toList ∧ ';' ∉ name.toList)
    (hmeaning : ∀ unknown, Reference.meaning unknown name = .ok text) (rest : List UInt8) :
    p.read trim (Utf8.encode ("&" ++ name ++ ";") ++ rest) = (p.addText text).read trim rest := by
  have hampersand : Utf8.encode "&" = [Ascii.ampersand] := rfl
  have hsemicolon : Utf8.encode ";" = [Ascii.semicolon] := rfl
  have hpart : ∀ b ∈ Utf8.encode name, Lexeme.isReference b = true := by
    intro b hb
    have hnot : b ≠ Ascii.ampersand := Utf8.ne_of_mem_encode hb (by decide) hname.1
    have hless : b ≠ Ascii.less := Utf8.ne_of_mem_encode hb (by decide) hname.2.1
    have hend : b ≠ Ascii.semicolon := Utf8.ne_of_mem_encode hb (by decide) hname.2.2
    simp [Lexeme.isReference, Lexeme.isText, hnot, hless, hend]
  have hnext : Lexeme.next Ascii.ampersand (Utf8.encode name ++ Ascii.semicolon :: rest)
      = .ok (.reference (Utf8.encode name), rest) := by
    rw [Lexeme.next, if_neg (by decide), if_pos rfl, Lexeme.reference?,
      List.dropWhile_append_of_pos hpart, List.dropWhile_cons_of_neg (by decide),
      List.takeWhile_append_of_pos hpart, List.takeWhile_cons_of_neg (by decide),
      List.append_nil]
    rfl
  rw [Utf8.encode_append, Utf8.encode_append, hampersand, hsemicolon, List.append_assoc,
    List.append_assoc, List.singleton_append, List.singleton_append]
  exact read_of_next hnext (onReference_encode hpath hmeaning)

/-- A CDATA section is read as the text in it. -/
lemma read_verbatim {text : String} (h : ¬ "]]>".toList <:+: text.toList) (rest : List UInt8) :
    p.read trim (Utf8.encode ("<![CDATA[" ++ text ++ "]]>") ++ rest)
      = (p.addText text).read trim rest := by
  have hopening : Utf8.encode "<![CDATA["
      = Ascii.less :: Ascii.exclamation :: Ascii.openBracket :: Ascii.bytes "CDATA[" := rfl
  have hclosing : Utf8.encode "]]>" = Ascii.bytes "]]>" := rfl
  have hcut : Ascii.cut? (Ascii.bytes "]]>")
      (Utf8.encode text ++ (Ascii.bytes "]]>" ++ rest)) = some (Utf8.encode text, rest) :=
    cut?_verbatim h rest
  have hnext : Lexeme.next Ascii.less (Ascii.exclamation :: Ascii.openBracket ::
      (Ascii.bytes "CDATA[" ++ (Utf8.encode text ++ (Ascii.bytes "]]>" ++ rest))))
        = .ok (.verbatim (Utf8.encode text), rest) := by
    rw [Lexeme.next, if_pos rfl, Lexeme.markup, if_pos rfl, Lexeme.declaration, if_pos rfl,
      Lexeme.cdata, if_pos (by simp)]
    have hdrop : (Ascii.bytes "CDATA[" ++ (Utf8.encode text ++ (Ascii.bytes "]]>" ++ rest))).drop 6
        = Utf8.encode text ++ (Ascii.bytes "]]>" ++ rest) := rfl
    rw [hdrop, hcut]
  rw [Utf8.encode_append, Utf8.encode_append, hopening, hclosing, List.append_assoc,
    List.append_assoc]
  exact read_of_next hnext (onVerbatim_encode hpath text)

omit hpath in
/-- A comment is not read. -/
lemma read_comment {text : String} (h : '-' ∉ text.toList) (rest : List UInt8) :
    p.read trim (Utf8.encode ("<!--" ++ text ++ "-->") ++ rest) = p.read trim rest := by
  have hopening : Utf8.encode "<!--"
      = [Ascii.less, Ascii.exclamation, Ascii.hyphen, Ascii.hyphen] := rfl
  have hclosing : Utf8.encode "-->" = Ascii.bytes "-->" := rfl
  have hcut : Ascii.cut? (Ascii.bytes "-->")
      (Utf8.encode text ++ (Ascii.bytes "-->" ++ rest)) = some (Utf8.encode text, rest) :=
    Ascii.cut?_append_of_notMem (Utf8.notMem_encode (by decide) h)
  have hnext : Lexeme.next Ascii.less (Ascii.exclamation :: Ascii.hyphen :: Ascii.hyphen ::
      (Utf8.encode text ++ (Ascii.bytes "-->" ++ rest))) = .ok (.remark, rest) := by
    rw [Lexeme.next, if_pos rfl, Lexeme.markup, if_pos rfl, Lexeme.declaration,
      if_neg (by decide), if_pos rfl, Lexeme.comment, List.head?_cons, if_pos rfl,
      List.drop_succ_cons, List.drop_zero, hcut]
  rw [Utf8.encode_append, Utf8.encode_append, hopening, hclosing, List.append_assoc,
    List.append_assoc]
  exact read_of_next hnext rfl

omit hpath in
lemma notMem_name_entity (e : Entity) :
    '&' ∉ e.name.toList ∧ '<' ∉ e.name.toList ∧ ';' ∉ e.name.toList := by
  cases e <;> simp [Entity.name]

omit hpath in
lemma notMem_name_number (r : CharacterReference) :
    '&' ∉ r.name.toList ∧ '<' ∉ r.name.toList ∧ ';' ∉ r.name.toList := by
  have hchars : ∀ c ∈ r.name.toList, c = '#' ∨ c.isAlphanum = true := by
    intro c hc
    rw [Reference.toList_name, List.mem_cons, List.mem_append, List.mem_map] at hc
    rcases hc with rfl | hc | ⟨d, -, rfl⟩
    · exact .inl rfl
    · right
      revert hc
      cases r.radix <;> simp [Radix.mark]
      rintro rfl
      decide
    · exact .inr d.isAlphanum_char
  refine ⟨fun h => ?_, fun h => ?_, fun h => ?_⟩ <;>
    exact absurd (hchars _ h) (by decide)

/-- A piece that is not raw is read as what it means. -/
lemma read_piece {q : Piece} (hraw : ∀ text h, q ≠ .raw text h) (rest : List UInt8) :
    p.read trim (Utf8.encode q.render ++ rest) = (p.addText q.meaning).read trim rest := by
  cases q with
  | raw text h => exact absurd rfl (hraw text h)
  | verbatim text h => exact read_verbatim hpath h rest
  | entity e =>
    exact read_reference hpath (notMem_name_entity e) (Reference.meaning_entity · e) rest
  | number r =>
    exact read_reference hpath (notMem_name_number r) (Reference.meaning_number · r) rest
  | comment text h =>
    rw [Piece.meaning, addText, String.append_empty]
    exact read_comment h.1 rest

omit hpath in
/-- A piece that is not raw begins with a mark. -/
lemma head?_piece {q : Piece} (hraw : ∀ text h, q ≠ .raw text h) (rest : List UInt8) :
    (Utf8.encode q.render ++ rest).head?.all Lexeme.isText = false := by
  cases q with
  | raw text h => exact absurd rfl (hraw text h)
  | _ =>
    rw [Piece.render, Utf8.encode_append, Utf8.encode_append]
    rfl

omit hpath in
lemma addText_addText (text text' : String) :
    (p.addText text).addText text' = p.addText (text ++ text') := by
  rw [addText, addText, addText, String.append_assoc]

/-- Raw text and the pieces behind it are read as the text and what the pieces mean. -/
theorem read_pieces (pieces : List Piece) (text : String)
    (htext : '&' ∉ text.toList ∧ '<' ∉ text.toList)
    (hrest : rest.head?.all Lexeme.isText = false) :
    p.read trim
        (Utf8.encode text ++ (Utf8.encode (String.join (pieces.map Piece.render)) ++ rest))
      = (p.addText (text ++ String.join (pieces.map Piece.meaning))).read trim rest := by
  induction pieces generalizing p text with
  | nil =>
    have hjoin : String.join ([].map Piece.meaning) = "" := rfl
    rw [hjoin, String.append_empty]
    exact read_text hpath htext hrest
  | cons q pieces ih =>
    rw [List.map_cons, String.join_cons, List.map_cons, String.join_cons, Utf8.encode_append,
      List.append_assoc, ← String.append_assoc]
    by_cases hraw : ∃ text h, q = .raw text h
    · obtain ⟨more, hmore, rfl⟩ := hraw
      -- what is raw on both sides is one run
      rw [Piece.render, Piece.meaning, ← List.append_assoc, ← Utf8.encode_append]
      refine ih hpath (text ++ more) ?_
      rw [String.toList_append, List.mem_append, List.mem_append, not_or, not_or]
      exact ⟨⟨htext.1, hmore.1⟩, htext.2, hmore.2⟩
    · have hmark : ∀ text h, q ≠ .raw text h := fun text h heq => hraw ⟨text, h, heq⟩
      have hpiece : ∀ rest, (p.addText text).read trim (Utf8.encode q.render ++ rest)
          = ((p.addText text).addText q.meaning).read trim rest :=
        read_piece (p := p.addText text) hpath hmark
      have hbehind := ih (p := (p.addText text).addText q.meaning) hpath "" ⟨by simp, by simp⟩
      rw [read_text hpath htext (head?_piece hmark _), hpiece]
      rw [addText_addText, addText_addText, String.empty_append] at hbehind
      rw [addText_addText]
      exact hbehind

end Content

/-- An element is read by reading its content between its tags. -/
lemma read_element (n : Name) (as : AttributeList) {content text : String} {events : List Event}
    (hroot : p.path = [] → p.hasRoot = false)
    (hcontent : (⟨n.text :: p.path, "", true, .opening n.text as.toMap :: p.events⟩
        : Progress).read trim (Utf8.encode content
          ++ Ascii.less :: Ascii.slash :: (Utf8.encode n.text ++ Ascii.greater :: rest))
      = (⟨n.text :: p.path, text, true, events⟩ : Progress).read trim
          (Ascii.less :: Ascii.slash :: (Utf8.encode n.text ++ Ascii.greater :: rest))) :
    p.read trim (Utf8.encode ("<" ++ n.text ++ as.render ++ ">" ++ content
        ++ "</" ++ n.text ++ ">") ++ rest)
      = (⟨p.path, "", true, .closing n.text (settle trim text) :: events⟩ : Progress).read
        trim rest := by
  have hending : Utf8.encode "</" = [Ascii.less, Ascii.slash] := rfl
  have hclosing : Utf8.encode ">" = [Ascii.greater] := rfl
  have hbytes : Utf8.encode ("<" ++ n.text ++ as.render ++ ">" ++ content
        ++ "</" ++ n.text ++ ">") ++ rest
      = Ascii.less :: (Utf8.encode n.text ++ (Utf8.encode as.render
        ++ (Lexeme.closingMark false ++ Ascii.greater :: (Utf8.encode content
          ++ Ascii.less :: Ascii.slash :: (Utf8.encode n.text ++ Ascii.greater :: rest))))) := by
    simp [encode_less, hending, hclosing, Lexeme.closingMark]
  rw [hbytes, read_startTag n as false hroot]
  exact hcontent.trans (read_endTag n rfl rest)

end Progress

/-! ### Documents -/

/-- The event with the text of a closing changed. -/
def Event.mapText (f : String → String) : Event → Event
  | .opening name attributes => .opening name attributes
  | .closing name text => .closing name (f text)

/-- The second event is the first one without the white space around the text of a closing. -/
inductive Event.Strips : Event → Event → Prop
  | opening (name : String) (attributes : Attributes) :
      Strips (.opening name attributes) (.opening name attributes)
  | closing (name : String) {text stripped : String} (h : Text.IsStripped text stripped) :
      Strips (.closing name text) (.closing name stripped)

lemma Event.strips_mapText (event : Event) : event.Strips (event.mapText Text.trim) := by
  cases event with
  | opening name attributes => exact .opening name attributes
  | closing name text => exact .closing name (Text.isStripped_trim text)

lemma Event.map_mapText_id (events : List Event) : events.map (Event.mapText id) = events := by
  have hid : Event.mapText id = id := by
    funext event
    cases event <;> rfl
  rw [hid, List.map_id]

namespace Source

open Progress (settle)

variable (trim : Bool)

lemma settle_empty : settle trim "" = "" := by
  cases trim <;> rfl

mutual

/-- An element is read as its events. -/
theorem read_render (s : Source) (p : Progress) (hroot : p.path = [] → p.hasRoot = false)
    (rest : List UInt8) :
    p.read trim (Utf8.encode s.render ++ rest)
      = (⟨p.path, "", true, (s.element.events.map (Event.mapText (settle trim))).reverse
        ++ p.events⟩ : Progress).read trim rest := by
  cases s with
  | closed n as =>
    have hclosing : Utf8.encode "/>" = Lexeme.closingMark true ++ [Ascii.greater] := rfl
    have hbytes : Utf8.encode (render (.closed n as)) ++ rest
        = Ascii.less :: (Utf8.encode n.text ++ (Utf8.encode as.render
          ++ (Lexeme.closingMark true ++ Ascii.greater :: rest))) := by
      simp [render, encode_less, hclosing]
    rw [hbytes, Progress.read_startTag n as true hroot]
    simp [Progress.behindStartTag, element, Element.events, Element.eventsOfAll, Event.mapText,
      settle_empty]
  | parent n as children =>
    rw [render, Progress.read_element n as hroot (read_renderAll children _ _ _ _)]
    simp [element, Element.events, Event.mapText, settle_empty]
  | leaf n as pieces =>
    -- there is no raw text in front of the first piece
    rw [render, Progress.read_element n as hroot
      (Progress.read_pieces (List.cons_ne_nil _ _) pieces "" ⟨by simp, by simp⟩ rfl)]
    simp [element, Element.events, Element.eventsOfAll, Event.mapText]

/-- Elements one after the other inside another one are read as their events. -/
theorem read_renderAll (ss : List Source) (name : String) (path : List String)
    (events : List Event) (rest : List UInt8) :
    (⟨name :: path, "", true, events⟩ : Progress).read trim (Utf8.encode (renderAll ss) ++ rest)
      = (⟨name :: path, "", true, ((Element.eventsOfAll (elements ss)).map
        (Event.mapText (settle trim))).reverse ++ events⟩ : Progress).read trim rest := by
  cases ss with
  | nil => rfl
  | cons s ss =>
    rw [renderAll, Utf8.encode_append, List.append_assoc,
      read_render s ⟨name :: path, "", true, events⟩ (fun h => by cases h),
      read_renderAll ss]
    simp [elements, Element.eventsOfAll]

end

lemma withoutMark_render (s : Source) :
    withoutMark (Utf8.encode s.render) = Utf8.encode s.render := by
  have hfirst : Utf8.encode s.render = Ascii.less :: (Utf8.encode s.render).tail := by
    cases s <;> simp [render, encode_less]
  rw [hfirst, withoutMark, if_neg (by simp [Ascii.less])]

lemma ofDocument_eq (s : Source) :
    Event.ofDocument trim (Utf8.encode s.render)
      = .ok (s.element.events.map (Event.mapText (settle trim))) := by
  have hread := read_render trim s Progress.start (fun _ => rfl) []
  rw [List.append_nil, Progress.read] at hread
  rw [Event.ofDocument, withoutMark_render, hread]
  simp [Except.bind, Progress.finish, Progress.start]

/-- A written document is read as the events of the element that is meant, with every text as it is
or without the white space around it. -/
theorem ofDocument_render (s : Source) :
    Event.ofDocument false (Utf8.encode s.render) = .ok s.element.events ∧
      ∃ events, Event.ofDocument true (Utf8.encode s.render) = .ok events ∧
        List.Forall₂ Event.Strips s.element.events events := by
  refine ⟨?_, s.element.events.map (Event.mapText Text.trim), ofDocument_eq true s, ?_⟩
  · rw [ofDocument_eq false s]
    exact congrArg Except.ok (Event.map_mapText_id s.element.events)
  · rw [List.forall₂_map_right_iff, List.forall₂_same]
    exact fun event _ => event.strips_mapText

end Source

end CloudCodec.Xml
