/-
# Character data outside the root element

Character data comes as runs, as CDATA sections and as references.  In front of the root element
and behind it as many elements have been closed as opened (`Outside`), and there only runs are
looked at: in a document that is accepted they are blank.  A CDATA section or a reference is passed
over like a comment, so a document that holds one there is refused exactly if it is refused with an
empty comment in its place, and a written document stays accepted with any number of them around it
(`ofDocument_outside`).
-/
import CloudCodec.Proofs.Xml.Pieces
import CloudCodec.Proofs.Xml.Reading
import Mathlib

namespace CloudCodec.Xml

/-! ### Depth -/

namespace Lexeme

/-- How many more elements are open behind a piece than before it. -/
def delta : Lexeme → ℤ
  | .startTag _ false => 1
  | .endTag _ => -1
  | _ => 0

/-- Character data in another form than a run: a CDATA section or a reference. -/
def isEscaped : Lexeme → Bool
  | .verbatim _ => true
  | .reference _ => true
  | _ => false

end Lexeme

/-- A computation in steps succeeds if each step does. -/
lemma bind_eq_ok_iff {α β : Type} {x : Except Fault α} {f : α → Except Fault β} {r : β} :
    x >>= f = .ok r ↔ ∃ a, x = .ok a ∧ f a = .ok r := by
  cases x <;> simp [bind, Except.bind]

/-- Behind these pieces of a document no element is open. -/
def Outside (pieces : List Lexeme) : Prop := (pieces.map Lexeme.delta).sum = 0

namespace Progress

variable {p p' : Progress} {trim : Bool} {pieces : List Lexeme} {lexeme : Lexeme}

lemma path_of_onText {bytes : List UInt8} (h : p.onText bytes = .ok p') : p'.path = p.path := by
  unfold onText at h
  obtain ⟨text, -, h⟩ := bind_eq_ok_iff.1 h
  split_ifs at h <;> cases h <;> rfl

lemma path_of_onReference {bytes : List UInt8} (h : p.onReference bytes = .ok p') :
    p'.path = p.path := by
  unfold onReference at h
  split_ifs at h
  · cases h
    rfl
  · obtain ⟨name, -, h⟩ := bind_eq_ok_iff.1 h
    obtain ⟨text, -, h⟩ := bind_eq_ok_iff.1 h
    cases h
    rfl

lemma path_of_onVerbatim {bytes : List UInt8} (h : p.onVerbatim bytes = .ok p') :
    p'.path = p.path := by
  unfold onVerbatim at h
  split_ifs at h
  · cases h
    rfl
  · obtain ⟨text, -, h⟩ := bind_eq_ok_iff.1 h
    cases h
    rfl

lemma length_path_of_onStartTag {content : List UInt8} {isEmpty : Bool}
    (h : p.onStartTag content isEmpty = .ok p') :
    (p'.path.length : ℤ) = p.path.length + (Lexeme.startTag content isEmpty).delta := by
  simp only [onStartTag] at h
  by_cases hroot : (p.path.isEmpty && p.hasRoot) = true
  · rw [if_pos hroot] at h
    cases h
  · rw [if_neg hroot] at h
    obtain ⟨name, -, h⟩ := bind_eq_ok_iff.1 h
    obtain ⟨attributes, -, h⟩ := bind_eq_ok_iff.1 h
    cases isEmpty <;> cases h <;> simp [Lexeme.delta]

lemma length_path_of_onEndTag {content : List UInt8} (h : p.onEndTag trim content = .ok p') :
    (p'.path.length : ℤ) = p.path.length + (Lexeme.endTag content).delta := by
  simp only [onEndTag] at h
  split at h
  · cases h
  · rename_i name path hpath
    split_ifs at h <;> cases h <;> simp [hpath, Lexeme.delta]

/-- A piece that is read changes the number of open elements as it says. -/
lemma length_path_of_step (h : p.step trim lexeme = .ok p') :
    (p'.path.length : ℤ) = p.path.length + lexeme.delta := by
  cases lexeme with
  | text bytes => simp [path_of_onText h, Lexeme.delta]
  | reference bytes => simp [path_of_onReference h, Lexeme.delta]
  | verbatim bytes => simp [path_of_onVerbatim h, Lexeme.delta]
  | remark =>
    cases h
    simp [Lexeme.delta]
  | startTag content isEmpty => exact length_path_of_onStartTag h
  | endTag content => exact length_path_of_onEndTag h

/-- So do all pieces together. -/
lemma length_path_of_foldlM (h : pieces.foldlM (step trim) p = .ok p') :
    (p'.path.length : ℤ) = p.path.length + (pieces.map Lexeme.delta).sum := by
  induction pieces generalizing p with
  | nil =>
    cases h
    simp
  | cons lexeme pieces ih =>
    rw [List.foldlM_cons] at h
    obtain ⟨mid, hstep, h⟩ := bind_eq_ok_iff.1 h
    rw [ih h, length_path_of_step hstep, List.map_cons, List.sum_cons, add_assoc]

/-- Outside the root element no element is open. -/
lemma path_of_outside (h : pieces.foldlM (step trim) start = .ok p) (houtside : Outside pieces) :
    p.path = [] := by
  have hlength := length_path_of_foldlM h
  rw [houtside] at hlength
  exact List.eq_nil_of_length_eq_zero (by simpa [start] using hlength)

/-- Where no element is open, a CDATA section or a reference changes nothing. -/
lemma step_eq_self_of_isEscaped (hpath : p.path = []) (h : lexeme.isEscaped = true) :
    p.step trim lexeme = .ok p := by
  cases lexeme with
  | verbatim bytes => simp [step, onVerbatim, hpath]; rfl
  | reference bytes => simp [step, onReference, hpath]; rfl
  | text bytes => cases h
  | remark => cases h
  | startTag content isEmpty => cases h
  | endTag content => cases h

/-- So do several of them. -/
lemma foldlM_eq_self_of_isEscaped (hpath : p.path = [])
    (h : ∀ lexeme ∈ pieces, lexeme.isEscaped = true) : pieces.foldlM (step trim) p = .ok p := by
  induction pieces with
  | nil => rfl
  | cons lexeme pieces ih =>
    rw [List.foldlM_cons, step_eq_self_of_isEscaped hpath (h lexeme List.mem_cons_self)]
    exact ih fun l hl => h l (List.mem_cons_of_mem lexeme hl)

/-- Where no element is open, a run that is read is blank. -/
lemma isAllBlank_of_onText {bytes : List UInt8} (hpath : p.path = [])
    (h : p.onText bytes = .ok p') :
    ∃ text, Utf8.decode bytes = .ok text ∧ Text.isAllBlank text = true := by
  cases hdecode : Utf8.decode bytes with
  | error fault =>
    simp [onText, hdecode, Except.mapError, bind, Except.bind] at h
  | ok text =>
    refine ⟨text, rfl, ?_⟩
    by_contra hblank
    simp [onText, hdecode, Except.mapError, bind, Except.bind, hpath, hblank] at h

end Progress

/-! ### Documents -/

lemma stops_of_isEscaped {bytes : List UInt8} {lexeme : Lexeme} {pieces : List Lexeme}
    (h : Cuts bytes (lexeme :: pieces)) (hescaped : lexeme.isEscaped = true) :
    Lexeme.Stops bytes := by
  cases h with
  | @cons b rest _ _ _ first others =>
    rintro _ ⟨⟩
    by_contra htext
    rw [Bool.not_eq_false, Lexeme.isText, Bool.and_eq_true, bne_iff_ne, bne_iff_ne] at htext
    rw [Lexeme.next, if_neg htext.1, if_neg htext.2] at first
    cases first
    cases hescaped

/-- A run of character data outside the root element of an accepted document is blank. -/
lemma isAllBlank_of_ofDocument {trim : Bool} {bytes run : List UInt8} {events : List Event}
    {before after : List Lexeme} (h : Event.ofDocument trim bytes = .ok events)
    (hpieces : Cuts (withoutMark bytes) (before ++ .text run :: after))
    (houtside : Outside before) :
    ∃ text, Utf8.decode run = .ok text ∧ Text.isAllBlank text = true := by
  obtain ⟨p', hread, -⟩ := bind_eq_ok_iff.1 h
  rw [Progress.read_eq_foldlM hpieces, List.foldlM_append] at hread
  obtain ⟨p, hbefore, hafter⟩ := bind_eq_ok_iff.1 hread
  rw [List.foldlM_cons] at hafter
  obtain ⟨mid, hrun, -⟩ := bind_eq_ok_iff.1 hafter
  exact Progress.isAllBlank_of_onText (Progress.path_of_outside hbefore houtside) hrun

/-- An empty comment. -/
def emptyComment : List UInt8 := Ascii.bytes "<!---->"

lemma cuts_emptyComment : Cuts emptyComment [.remark] := .cons rfl .nil

lemma stops_emptyComment : Lexeme.Stops emptyComment := by
  rintro _ ⟨⟩
  rfl

/-- Outside the root element a CDATA section or a reference is read like a comment. -/
lemma ofDocument_eq_of_isEscaped {trim : Bool} {pre piece post : List UInt8}
    {before : List Lexeme} {lexeme : Lexeme} (hbefore : Cuts (withoutMark pre) before)
    (houtside : Outside before) (hpiece : Cuts piece [lexeme])
    (hescaped : lexeme.isEscaped = true) :
    Event.ofDocument trim (pre ++ (piece ++ post))
      = Event.ofDocument trim (pre ++ (emptyComment ++ post)) := by
  have hstops := stops_of_isEscaped hpiece hescaped
  rw [ofDocument_append hbefore (hstops.append hpiece.ne_nil post),
    ofDocument_append hbefore (stops_emptyComment.append cuts_emptyComment.ne_nil post)]
  cases hread : before.foldlM (Progress.step trim) Progress.start with
  | error fault => rfl
  | ok p =>
    have hpath := Progress.path_of_outside hread houtside
    change (p.read trim _).bind _ = (p.read trim _).bind _
    rw [Progress.read_piece_append hpiece hstops,
      Progress.read_piece_append cuts_emptyComment stops_emptyComment,
      Progress.step_eq_self_of_isEscaped hpath hescaped]
    rfl

lemma stops_render (s : Source) (more : List UInt8) :
    Lexeme.Stops (Utf8.encode s.render ++ more) := by
  cases s <;> simp [Lexeme.Stops, Source.render, encode_less, Lexeme.isText]

/-- CDATA sections and references around a written document change nothing. -/
lemma ofDocument_render_between (trim : Bool) (s : Source) {front back : List UInt8}
    {fronts backs : List Lexeme} (hfront : Cuts front fronts) (hback : Cuts back backs)
    (hescaped : ∀ lexeme ∈ fronts ++ backs, lexeme.isEscaped = true) :
    Event.ofDocument trim (front ++ (Utf8.encode s.render ++ back))
      = .ok (s.element.events.map (Event.mapText (Progress.settle trim))) := by
  have hmark : withoutMark front = front := by
    cases fronts with
    | nil =>
      cases hfront
      rfl
    | cons lexeme fronts =>
      exact withoutMark_eq_self (stops_of_isEscaped hfront (hescaped lexeme (by simp)))
  rw [← hmark] at hfront
  rw [ofDocument_append hfront (stops_render s back),
    Progress.foldlM_eq_self_of_isEscaped rfl fun l hl => hescaped l (List.mem_append_left _ hl)]
  change (Progress.start.read trim _).bind _ = _
  rw [Source.read_render trim s Progress.start fun _ => rfl, Progress.read_eq_foldlM hback,
    Progress.foldlM_eq_self_of_isEscaped rfl fun l hl => hescaped l (List.mem_append_right _ hl)]
  simp [Except.bind, Progress.finish, Progress.start]

/-- A document that is accepted is cut into pieces, and the runs of character data outside its root
element are blank.  A CDATA section or a reference outside the root element is read like an empty
comment in its place: the document is refused exactly if it would be refused with the comment.  So
a written document is accepted with any of them around it. -/
theorem ofDocument_outside (trim : Bool) :
    (∀ bytes events, Event.ofDocument trim bytes = .ok events →
      (∃ pieces, Cuts (withoutMark bytes) pieces) ∧
      ∀ before run after, Cuts (withoutMark bytes) (before ++ .text run :: after) →
        Outside before → ∃ text, Utf8.decode run = .ok text ∧ Text.isAllBlank text = true) ∧
    (∀ pre piece post before lexeme, Cuts (withoutMark pre) before → Outside before →
      Cuts piece [lexeme] → lexeme.isEscaped = true →
        Event.ofDocument trim (pre ++ (piece ++ post))
          = Event.ofDocument trim (pre ++ (emptyComment ++ post))) ∧
    ∀ (s : Source) front back fronts backs, Cuts front fronts → Cuts back backs →
      (∀ lexeme ∈ fronts ++ backs, lexeme.isEscaped = true) →
        Event.ofDocument trim (front ++ (Utf8.encode s.render ++ back))
          = .ok (s.element.events.map (Event.mapText (Progress.settle trim))) := by
  refine ⟨?_, ?_, ?_⟩
  · intro bytes events h
    constructor
    · obtain ⟨p, hread, -⟩ := bind_eq_ok_iff.1 h
      exact Progress.exists_cuts_of_read hread
    · intro before run after hpieces houtside
      exact isAllBlank_of_ofDocument h hpieces houtside
  · intro pre piece post before lexeme hbefore houtside hpiece hescaped
    exact ofDocument_eq_of_isEscaped hbefore houtside hpiece hescaped
  · intro s front back fronts backs hfront hback hescaped
    exact ofDocument_render_between trim s hfront hback hescaped

/-- A character reference behind the root element, like a comment there. -/
theorem ofDocument_outside_sample :
    Event.ofDocument true (Ascii.bytes "<a/>" ++ (Ascii.bytes "&#65;" ++ []))
      = Event.ofDocument true (Ascii.bytes "<a/>" ++ (emptyComment ++ [])) ∧
    Event.ofDocument true (Ascii.bytes "<a/>" ++ (emptyComment ++ []))
      = .ok [.opening "a" ∅, .closing "a" ""] := by
  have hbefore : Cuts (Ascii.bytes "<a/>") [.startTag (Ascii.bytes "a") true] := .cons rfl .nil
  have hpiece : Cuts (Ascii.bytes "&#65;") [.reference (Ascii.bytes "#65")] := .cons rfl .nil
  have haccepted : Event.ofDocument true (Ascii.bytes "<a/><!---->")
      = .ok [.opening "a" ∅, .closing "a" ""] := by cbv
  exact ⟨(ofDocument_outside true).2.1 _ _ _ _ _ hbefore rfl hpiece rfl, haccepted⟩

/-- A document whose first piece is a CDATA section, in front of the root element, is accepted. -/
theorem accepted_with_verbatim_outside :
    Cuts (withoutMark (Ascii.bytes "<![CDATA[x]]><a/>"))
        [.verbatim (Ascii.bytes "x"), .startTag (Ascii.bytes "a") true] ∧
    Event.ofDocument true (Ascii.bytes "<![CDATA[x]]><a/>")
      = .ok [.opening "a" ∅, .closing "a" ""] := by
  have hpieces : Cuts (withoutMark (Ascii.bytes "<![CDATA[x]]><a/>"))
      [.verbatim (Ascii.bytes "x"), .startTag (Ascii.bytes "a") true] :=
    .cons rfl (.cons rfl .nil)
  refine ⟨hpieces, ?_⟩
  rw [Event.ofDocument, Progress.read_eq_foldlM hpieces]
  cbv

end CloudCodec.Xml
