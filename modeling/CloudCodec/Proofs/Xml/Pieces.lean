/-
# Pieces of a document and what follows them

Where a piece of a document ends is decided by the bytes up to its end.  So more bytes behind a
piece change nothing (`Lexeme.next_append`), unless the piece is a run of character data that goes
on with them.  Bytes that are cut into whole pieces are therefore read as these pieces, one after
the other, in front of any markup (`Progress.read_append`).

The one place where bytes behind the end could be looked at is a test for the beginning of a mark,
and there the end of the construct, a `>`, stands in the way (`isPrefixOf_append_of_mem`).
-/
import CloudCodec.Xml.Event
import Mathlib

namespace CloudCodec

/-! ### Marks -/

namespace Ascii

variable {mark before bytes content after : List UInt8}

/-- A mark does not reach beyond a byte that it does not have. -/
lemma isPrefixOf_append_of_mem {b : UInt8} (hbytes : b ∈ bytes) (hmark : b ∉ mark)
    (more : List UInt8) : mark.isPrefixOf (bytes ++ more) = mark.isPrefixOf bytes := by
  rw [Bool.eq_iff_iff, List.isPrefixOf_iff_prefix, List.isPrefixOf_iff_prefix]
  constructor
  · intro hprefix
    refine List.prefix_of_prefix_length_le hprefix (List.prefix_append bytes more) ?_
    by_contra hlong
    have hcovered : bytes <+: mark :=
      List.prefix_of_prefix_length_le (List.prefix_append bytes more) hprefix (by omega)
    exact hmark (hcovered.subset hbytes)
  · intro hprefix
    exact hprefix.trans (List.prefix_append bytes more)

lemma infix_of_cutFrom (h : cutFrom mark before bytes = some (content, after)) :
    mark <:+: bytes := by
  induction bytes generalizing before with
  | nil => cases h
  | cons b rest ih =>
    rw [cutFrom] at h
    split_ifs at h with hprefix
    · exact (List.isPrefixOf_iff_prefix.1 hprefix).isInfix
    · exact (ih h).trans (List.suffix_cons b rest).isInfix

lemma infix_of_cut? (h : cut? mark bytes = some (content, after)) : mark <:+: bytes :=
  infix_of_cutFrom h

lemma cutFrom_append_of_eq_some (h : cutFrom mark before bytes = some (content, after))
    (more : List UInt8) : cutFrom mark before (bytes ++ more) = some (content, after ++ more) := by
  induction bytes generalizing before with
  | nil => cases h
  | cons b rest ih =>
    rw [cutFrom] at h
    rw [List.cons_append, cutFrom, ← List.cons_append]
    split_ifs at h with hprefix
    · have hbegins := List.isPrefixOf_iff_prefix.1 hprefix
      cases h
      rw [if_pos (List.isPrefixOf_iff_prefix.2 (hbegins.trans (List.prefix_append _ more))),
        List.drop_append_of_le_length hbegins.length_le]
    · -- the mark is found further on, so it does not reach from here to what follows
      have hlength := (infix_of_cutFrom h).length_le
      rw [if_neg, ih h]
      intro hbegins
      refine hprefix (List.isPrefixOf_iff_prefix.2 (List.prefix_of_prefix_length_le
        (List.isPrefixOf_iff_prefix.1 hbegins) (List.prefix_append _ more) ?_))
      rw [List.length_cons]
      omega

/-- A mark that is found is found at the same place whatever follows. -/
lemma cut?_append_of_eq_some (h : cut? mark bytes = some (content, after)) (more : List UInt8) :
    cut? mark (bytes ++ more) = some (content, after ++ more) :=
  cutFrom_append_of_eq_some h more

/-- The same where only what follows the mark is kept. -/
lemma map_cut?_append (h : (cut? mark bytes).map Prod.snd = some after) (more : List UInt8) :
    (cut? mark (bytes ++ more)).map Prod.snd = some (after ++ more) := by
  obtain ⟨⟨content, _⟩, hcut, rfl⟩ := Option.map_eq_some_iff.1 h
  rw [cut?_append_of_eq_some hcut]
  rfl

lemma subset_of_map_cut? (h : (cut? mark bytes).map Prod.snd = some after) : mark ⊆ bytes := by
  obtain ⟨⟨content, _⟩, hcut, rfl⟩ := Option.map_eq_some_iff.1 h
  exact (infix_of_cut? hcut).subset

end Ascii

/-- A run of bytes of one kind ends at the same place whatever follows, if it ends before that or
what follows does not go on with the kind. -/
lemma span_append {p : UInt8 → Bool} {bytes more : List UInt8}
    (h : bytes.dropWhile p ≠ [] ∨ ∀ b ∈ more.head?, p b = false) :
    (bytes ++ more).takeWhile p = bytes.takeWhile p ∧
      (bytes ++ more).dropWhile p = bytes.dropWhile p ++ more := by
  induction bytes with
  | nil =>
    rcases h with h | h
    · exact absurd rfl h
    · cases more with
      | nil => exact ⟨rfl, rfl⟩
      | cons b more =>
        have hb : ¬ p b = true := by simp [h b rfl]
        rw [List.nil_append, List.takeWhile_cons_of_neg hb, List.dropWhile_cons_of_neg hb]
        exact ⟨rfl, rfl⟩
  | cons b bytes ih =>
    rw [List.cons_append]
    by_cases hb : p b = true
    · rw [List.dropWhile_cons_of_pos hb] at h ⊢
      rw [List.takeWhile_cons_of_pos hb, List.takeWhile_cons_of_pos hb,
        List.dropWhile_cons_of_pos hb, (ih h).1, (ih h).2]
      exact ⟨rfl, rfl⟩
    · rw [List.takeWhile_cons_of_neg hb, List.takeWhile_cons_of_neg hb,
        List.dropWhile_cons_of_neg hb, List.dropWhile_cons_of_neg hb]
      exact ⟨rfl, rfl⟩

namespace Xml

variable {bytes content after : List UInt8}

/-! ### Tags -/

lemma splitTagFrom_append {quote? : Option UInt8} {done : List UInt8}
    (h : splitTagFrom quote? done bytes = .ok (content, after)) (more : List UInt8) :
    splitTagFrom quote? done (bytes ++ more) = .ok (content, after ++ more) := by
  induction bytes generalizing quote? done with
  | nil => cases h
  | cons b rest ih =>
    rw [List.cons_append]
    cases quote? with
    | some q => exact ih h
    | none =>
      rw [splitTagFrom] at h ⊢
      split_ifs at h ⊢ with hend
      · cases h
        rfl
      · exact ih h
      · exact ih h

lemma splitTag_append (h : splitTag bytes = .ok (content, after)) (more : List UInt8) :
    splitTag (bytes ++ more) = .ok (content, after ++ more) :=
  splitTagFrom_append h more

lemma greater_mem_of_splitTagFrom {quote? : Option UInt8} {done : List UInt8}
    (h : splitTagFrom quote? done bytes = .ok (content, after)) : Ascii.greater ∈ bytes := by
  induction bytes generalizing quote? done with
  | nil => cases h
  | cons b rest ih =>
    cases quote? with
    | some q => exact List.mem_cons_of_mem b (ih h)
    | none =>
      rw [splitTagFrom] at h
      split_ifs at h with hend
      · exact hend ▸ List.mem_cons_self
      · exact List.mem_cons_of_mem b (ih h)
      · exact List.mem_cons_of_mem b (ih h)

/-! ### Document types -/

namespace Doctype

lemma exists_splitTag_of_map (h : (splitTag bytes).toOption.map Prod.snd = some after) :
    ∃ content, splitTag bytes = .ok (content, after) := by
  cases hsplit : splitTag bytes with
  | error construct =>
    rw [hsplit] at h
    cases h
  | ok r =>
    rw [hsplit] at h
    cases h
    exact ⟨r.1, rfl⟩

lemma greater_mem_of_pastMarkup? (h : pastMarkup? bytes = some after) : Ascii.greater ∈ bytes := by
  unfold pastMarkup? at h
  split_ifs at h with hinstruction hcomment hquoted
  · exact List.mem_of_mem_drop (Ascii.subset_of_map_cut? h (by decide))
  · exact List.mem_of_mem_drop (Ascii.subset_of_map_cut? h (by decide))
  · obtain ⟨content, hsplit⟩ := exists_splitTag_of_map h
    exact greater_mem_of_splitTagFrom hsplit
  · exact Ascii.subset_of_map_cut? h (by decide)

lemma pastMarkup?_append (h : pastMarkup? bytes = some after) (more : List UInt8) :
    pastMarkup? (bytes ++ more) = some (after ++ more) := by
  -- the markup ends at a `>`, so none of the tests looks behind it
  have hmem := greater_mem_of_pastMarkup? h
  have hmark : ∀ s, Ascii.greater ∉ Ascii.bytes s →
      (Ascii.bytes s).isPrefixOf (bytes ++ more) = (Ascii.bytes s).isPrefixOf bytes :=
    fun s hs => Ascii.isPrefixOf_append_of_mem hmem hs more
  unfold pastMarkup? at h ⊢
  rw [hmark "?" (by decide), hmark "!--" (by decide), hmark "!ENTITY" (by decide),
    hmark "!ATTLIST" (by decide), hmark "!NOTATION" (by decide)]
  split_ifs at h ⊢ with hinstruction hcomment hquoted
  · have hlength : 1 ≤ bytes.length := (List.isPrefixOf_iff_prefix.1 hinstruction).length_le
    rw [List.drop_append_of_le_length hlength]
    exact Ascii.map_cut?_append h more
  · have hlength : 3 ≤ bytes.length := (List.isPrefixOf_iff_prefix.1 hcomment).length_le
    rw [List.drop_append_of_le_length hlength]
    exact Ascii.map_cut?_append h more
  · obtain ⟨content, hsplit⟩ := exists_splitTag_of_map h
    rw [splitTag_append hsplit]
    rfl
  · exact Ascii.map_cut?_append h more

lemma insideSubset?_append (h : insideSubset? bytes = some after) (more : List UInt8) :
    insideSubset? (bytes ++ more) = some (after ++ more) := by
  fun_induction insideSubset? bytes with
  | case1 => cases h
  | case2 rest =>
    rw [List.cons_append, insideSubset?, if_pos rfl]
    exact Ascii.map_cut?_append h more
  | case3 => cases h
  | case4 rest mid hmid hclose ih =>
    rw [List.cons_append, insideSubset?, if_neg hclose, if_pos rfl]
    -- what follows the markup is what follows it here, and more
    split
    · rename_i hnone
      rw [pastMarkup?_append hmid] at hnone
      cases hnone
    · rename_i mid' hmid'
      rw [pastMarkup?_append hmid] at hmid'
      cases hmid'
      exact ih h
  | case5 b rest hclose hless ih =>
    rw [List.cons_append, insideSubset?, if_neg hclose, if_neg hless]
    exact ih h

lemma beforeSubset?_append {quote? : Option UInt8} (h : beforeSubset? quote? bytes = some after)
    (more : List UInt8) : beforeSubset? quote? (bytes ++ more) = some (after ++ more) := by
  induction bytes generalizing quote? with
  | nil => cases h
  | cons b rest ih =>
    rw [List.cons_append]
    cases quote? with
    | some q => exact ih h
    | none =>
      rw [beforeSubset?] at h ⊢
      split_ifs at h ⊢ with hend hopen
      · cases h
        rfl
      · exact insideSubset?_append h more
      · exact ih h
      · exact ih h

lemma exists_notBlank_of_beforeSubset? {quote? : Option UInt8}
    (h : beforeSubset? quote? bytes = some after) : ∃ b ∈ bytes, Ascii.isBlank b = false := by
  induction bytes generalizing quote? with
  | nil => cases h
  | cons b rest ih =>
    have hrest : ∀ {quote?}, beforeSubset? quote? rest = some after →
        ∃ b' ∈ b :: rest, Ascii.isBlank b' = false := by
      intro quote? hbefore
      obtain ⟨b', hmem, hblank⟩ := ih hbefore
      exact ⟨b', List.mem_cons_of_mem b hmem, hblank⟩
    cases quote? with
    | some q => exact hrest h
    | none =>
      rw [beforeSubset?] at h
      split_ifs at h with hend hopen
      · exact ⟨b, List.mem_cons_self, hend ▸ by decide⟩
      · exact ⟨b, List.mem_cons_self, hopen ▸ by decide⟩
      · exact hrest h
      · exact hrest h

lemma skip_append (h : skip bytes = .ok after) (more : List UInt8) :
    skip (bytes ++ more) = .ok (after ++ more) := by
  unfold skip at h ⊢
  cases hbefore : beforeSubset? none bytes with
  | none =>
    rw [hbefore] at h
    cases h
  | some after' =>
    rw [hbefore] at h
    simp only at h
    split_ifs at h with hnameless
    cases h
    -- something stands in front of whatever follows, so the name is looked for there
    obtain ⟨b, hmem, hblank⟩ := exists_notBlank_of_beforeSubset? hbefore
    have hname : bytes.dropWhile Ascii.isBlank ≠ [] := by
      intro hnil
      rw [List.dropWhile_eq_nil_iff.1 hnil b hmem] at hblank
      cases hblank
    rw [beforeSubset?_append hbefore]
    simp only [(span_append (.inl hname)).2, List.head?_append_of_ne_nil _ hname, if_neg hnameless]

end Doctype

/-! ### All kinds of pieces -/

namespace Lexeme

variable {lexeme : Lexeme}

/-- Bytes that do not go on with a run of character data. -/
def Stops (bytes : List UInt8) : Prop := ∀ b ∈ bytes.head?, isText b = false

lemma Stops.append (h : Stops bytes) (hne : bytes ≠ []) (more : List UInt8) :
    Stops (bytes ++ more) := by
  rw [Stops, List.head?_append_of_ne_nil _ hne]
  exact h

lemma reference?_append (h : reference? bytes = .ok (lexeme, after)) (more : List UInt8) :
    reference? (bytes ++ more) = .ok (lexeme, after ++ more) := by
  unfold reference? at h ⊢
  cases hend : bytes.dropWhile isReference with
  | nil =>
    rw [hend] at h
    cases h
  | cons b after' =>
    have hends : bytes.dropWhile isReference ≠ [] := by simp [hend]
    obtain ⟨htake, hdrop⟩ := span_append (.inl hends)
    rw [hend] at h
    rw [htake, hdrop, hend, List.cons_append]
    simp only at h ⊢
    split_ifs at h ⊢ with hsemicolon
    cases h
    rfl

lemma tag_append {make : List UInt8 → Lexeme} (h : tag make bytes = .ok (lexeme, after))
    (more : List UInt8) : tag make (bytes ++ more) = .ok (lexeme, after ++ more) := by
  unfold tag at h ⊢
  cases hsplit : splitTag bytes with
  | error construct =>
    rw [hsplit] at h
    cases h
  | ok r =>
    rw [hsplit] at h
    cases h
    rw [splitTag_append hsplit]

/-- A construct that ends at a mark is the same whatever follows. -/
lemma of_cut?_append {mark : List UInt8} {make : List UInt8 → Lexeme} {fault fault' : Fault}
    (h : (match Ascii.cut? mark bytes with
      | some (content, after) => .ok (make content, after)
      | none => .error fault) = Except.ok (lexeme, after)) (more : List UInt8) :
    (match Ascii.cut? mark (bytes ++ more) with
      | some (content, after) => .ok (make content, after)
      | none => .error fault') = Except.ok (lexeme, after ++ more) := by
  cases hcut : Ascii.cut? mark bytes with
  | none =>
    rw [hcut] at h
    cases h
  | some r =>
    rw [hcut] at h
    cases h
    rw [Ascii.cut?_append_of_eq_some hcut]

lemma instruction_append (h : instruction bytes = .ok (lexeme, after)) (more : List UInt8) :
    instruction (bytes ++ more) = .ok (lexeme, after ++ more) := by
  cases bytes with
  | nil => cases h
  | cons b rest =>
    unfold instruction at h ⊢
    by_cases hend : (b :: rest).head? = some Ascii.greater
    · rw [if_pos hend] at h
      cases h
    · have hend' : ((b :: rest) ++ more).head? ≠ some Ascii.greater := hend
      rw [if_neg hend] at h
      rw [if_neg hend']
      exact of_cut?_append h more

lemma cdata_append (h : cdata bytes = .ok (lexeme, after)) (more : List UInt8) :
    cdata (bytes ++ more) = .ok (lexeme, after ++ more) := by
  unfold cdata at h ⊢
  split_ifs at h with hopening
  have hbegins := List.isPrefixOf_iff_prefix.1 hopening
  have hlength : 6 ≤ bytes.length := hbegins.length_le
  rw [if_pos (List.isPrefixOf_iff_prefix.2 (hbegins.trans (List.prefix_append _ more))),
    List.drop_append_of_le_length hlength]
  exact of_cut?_append h more

lemma comment_append (h : comment bytes = .ok (lexeme, after)) (more : List UInt8) :
    comment (bytes ++ more) = .ok (lexeme, after ++ more) := by
  cases bytes with
  | nil => cases h
  | cons b rest =>
    simp only [comment, List.head?_cons, List.cons_append, List.drop_one, List.tail_cons] at h ⊢
    split_ifs at h ⊢ with hhyphen
    exact of_cut?_append h more

lemma doctype_append (h : doctype bytes = .ok (lexeme, after)) (more : List UInt8) :
    doctype (bytes ++ more) = .ok (lexeme, after ++ more) := by
  unfold doctype at h ⊢
  split_ifs at h with hname
  have hlength : 7 ≤ bytes.length := by
    have hsize := congrArg List.length hname
    rw [List.length_map, List.length_take] at hsize
    have hseven : (Ascii.bytes "doctype").length = 7 := rfl
    omega
  rw [List.take_append_of_le_length hlength, if_pos hname, List.drop_append_of_le_length hlength]
  cases hskip : Doctype.skip (bytes.drop 7) with
  | error fault =>
    rw [hskip] at h
    cases h
  | ok after' =>
    rw [hskip] at h
    cases h
    rw [Doctype.skip_append hskip]
    rfl

lemma declaration_append (h : declaration bytes = .ok (lexeme, after)) (more : List UInt8) :
    declaration (bytes ++ more) = .ok (lexeme, after ++ more) := by
  cases bytes with
  | nil => cases h
  | cons b rest =>
    simp only [declaration, List.cons_append] at h ⊢
    split_ifs at h ⊢ with hcdata hcomment hdoctype
    · exact cdata_append h more
    · exact comment_append h more
    · exact doctype_append h more

lemma markup_append (h : markup bytes = .ok (lexeme, after)) (more : List UInt8) :
    markup (bytes ++ more) = .ok (lexeme, after ++ more) := by
  cases bytes with
  | nil => cases h
  | cons b rest =>
    simp only [markup, List.cons_append] at h ⊢
    split_ifs at h ⊢ with hdeclaration hinstruction hend
    · exact declaration_append h more
    · exact instruction_append h more
    · exact tag_append h more
    · exact tag_append h more

/-- A piece is the same whatever follows; only behind a run of character data no more of it may
follow. -/
theorem next_append {b : UInt8} {rest : List UInt8} (h : next b rest = .ok (lexeme, after))
    {more : List UInt8} (hmore : isText b = true → Stops more) :
    next b (rest ++ more) = .ok (lexeme, after ++ more) := by
  unfold next at h ⊢
  split_ifs at h ⊢ with hmarkup hreference
  · exact markup_append h more
  · exact reference?_append h more
  · have hstops : Stops more := hmore (by simp [isText, hmarkup, hreference])
    cases h
    rw [(span_append (.inr hstops)).1, (span_append (.inr hstops)).2]

end Lexeme

/-! ### Bytes that are cut into pieces -/

/-- Bytes are some whole pieces, one after the other. -/
inductive Cuts : List UInt8 → List Lexeme → Prop
  | nil : Cuts [] []
  | cons {b : UInt8} {rest after : List UInt8} {lexeme : Lexeme} {lexemes : List Lexeme}
      (first : Lexeme.next b rest = .ok (lexeme, after)) (others : Cuts after lexemes) :
      Cuts (b :: rest) (lexeme :: lexemes)

lemma Cuts.ne_nil {bytes : List UInt8} {lexeme : Lexeme} {lexemes : List Lexeme}
    (h : Cuts bytes (lexeme :: lexemes)) : bytes ≠ [] := by
  cases h
  simp

namespace Progress

variable {p p' : Progress} {trim : Bool}

lemma read_cons_of_next {b : UInt8} {rest after : List UInt8} {lexeme : Lexeme}
    (hnext : Lexeme.next b rest = .ok (lexeme, after)) :
    p.read trim (b :: rest) = (p.step trim lexeme).bind fun p => p.read trim after := by
  rw [read]
  split
  · rename_i hfault
    rw [hnext] at hfault
    cases hfault
  · rename_i hnext'
    rw [hnext] at hnext'
    cases hnext'
    cases p.step trim lexeme <;> rfl

/-- Whole pieces are read one after the other, in front of whatever does not go on with them. -/
theorem read_append {bytes : List UInt8} {lexemes : List Lexeme} (h : Cuts bytes lexemes)
    {more : List UInt8} (hmore : Lexeme.Stops more) :
    p.read trim (bytes ++ more)
      = (lexemes.foldlM (step trim) p).bind fun p => p.read trim more := by
  induction h generalizing p with
  | nil => rfl
  | cons first others ih =>
    rw [List.cons_append, read_cons_of_next (Lexeme.next_append first fun _ => hmore),
      List.foldlM_cons]
    cases hstep : p.step trim _ with
    | error fault => rfl
    | ok mid => exact ih

/-- A piece of markup is read in front of whatever follows. -/
lemma read_piece_append {bytes : List UInt8} {lexeme : Lexeme} (h : Cuts bytes [lexeme])
    (hstops : Lexeme.Stops bytes) (more : List UInt8) :
    p.read trim (bytes ++ more) = (p.step trim lexeme).bind fun p => p.read trim more := by
  cases h with
  | cons first others =>
    cases others
    rw [List.cons_append, read_cons_of_next (Lexeme.next_append first fun htext => ?_)]
    · rfl
    · rw [hstops _ rfl] at htext
      cases htext

/-- Whole pieces at the end are read one after the other. -/
lemma read_eq_foldlM {bytes : List UInt8} {lexemes : List Lexeme} (h : Cuts bytes lexemes) :
    p.read trim bytes = lexemes.foldlM (step trim) p := by
  have hstops : Lexeme.Stops [] := by simp [Lexeme.Stops]
  rw [← List.append_nil bytes, read_append h hstops]
  cases lexemes.foldlM (step trim) p with
  | error fault => rfl
  | ok p' =>
    change p'.read trim [] = .ok p'
    rw [read]

/-- Bytes that are read are whole pieces. -/
theorem exists_cuts_of_read {bytes : List UInt8} (h : p.read trim bytes = .ok p') :
    ∃ lexemes, Cuts bytes lexemes := by
  fun_induction read trim p bytes with
  | case1 p => exact ⟨[], .nil⟩
  | case2 => cases h
  | case3 => cases h
  | case4 p b rest lexeme after first mid hstep ih =>
    obtain ⟨lexemes, others⟩ := ih h
    exact ⟨lexeme :: lexemes, .cons first others⟩

end Progress

/-! ### Documents -/

/-- A byte order mark does not reach into markup. -/
lemma withoutMark_append {bytes more : List UInt8} (h : Lexeme.Stops more) :
    withoutMark (bytes ++ more) = withoutMark bytes ++ more := by
  cases more with
  | nil => rw [List.append_nil, List.append_nil]
  | cons b more =>
    have hb : b ∉ [0xEF, 0xBB, (0xBF : UInt8)] := by
      intro hmem
      have htext : ∀ b ∈ [0xEF, 0xBB, (0xBF : UInt8)], Lexeme.isText b = true := by
        decide +kernel
      have hstops : Lexeme.isText b = false := h b rfl
      rw [htext b hmem] at hstops
      cases hstops
    have hmark : [0xEF, 0xBB, 0xBF].isPrefixOf (bytes ++ b :: more)
        = [0xEF, 0xBB, 0xBF].isPrefixOf bytes := by
      rw [List.append_cons,
        Ascii.isPrefixOf_append_of_mem (List.mem_append_right _ List.mem_cons_self) hb,
        Bool.eq_iff_iff, List.isPrefixOf_iff_prefix, List.isPrefixOf_iff_prefix,
        List.prefix_concat_iff]
      refine or_iff_right ?_
      intro heq
      exact hb (heq ▸ List.mem_append_right _ List.mem_cons_self)
    unfold withoutMark
    rw [hmark]
    split_ifs with hprefix
    · have hlength : 3 ≤ bytes.length := (List.isPrefixOf_iff_prefix.1 hprefix).length_le
      rw [List.drop_append_of_le_length hlength]
    · rfl

lemma withoutMark_eq_self {bytes : List UInt8} (h : Lexeme.Stops bytes) :
    withoutMark bytes = bytes := by
  have happend : withoutMark ([] ++ bytes) = withoutMark [] ++ bytes := withoutMark_append h
  exact happend

/-- A document that begins with whole pieces is read from behind them. -/
theorem ofDocument_append {trim : Bool} {bytes more : List UInt8} {lexemes : List Lexeme}
    (h : Cuts (withoutMark bytes) lexemes) (hmore : Lexeme.Stops more) :
    Event.ofDocument trim (bytes ++ more)
      = (lexemes.foldlM (Progress.step trim) Progress.start).bind fun p =>
          (p.read trim more).bind Progress.finish := by
  rw [Event.ofDocument, withoutMark_append hmore, Progress.read_append h hmore]
  cases lexemes.foldlM (Progress.step trim) Progress.start <;> rfl

end Xml

end CloudCodec
