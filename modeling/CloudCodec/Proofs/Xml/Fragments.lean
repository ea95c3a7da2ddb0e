/-
# The fragments of a document

A document as it is written is a forest: pieces without tags, empty elements, and elements from
their start tag to their end tag with such a forest inside (`Fragment`).  Every document that is
accepted is one (`exists_spells`), and from the forest it can be said what is read, elements with
their attributes and texts, with no progress along the way (`eq_events_of_spells`).

A start tag begins the text of its element, and the tags of a child element begin it anew, so only
what is said behind the last child belongs to it (`textAfter`).
-/
import CloudCodec.Proofs.Xml.Outside
import CloudCodec.Xml.Element

namespace CloudCodec.Xml

/-! ### Pieces and tags -/

namespace Lexeme

/-- Whether a piece is a tag. -/
def isTag : Lexeme → Bool
  | .startTag _ _ | .endTag _ => true
  | _ => false

/-- The characters that a piece adds to the text of the element around it. -/
def characters : Lexeme → Except Fault String
  | .text bytes => (Utf8.decode bytes).mapError .textNotUtf8
  | .reference bytes => do
    let name ← (Utf8.decode bytes).mapError .textNotUtf8
    Reference.meaning (.unknownEntity name) name
  | .verbatim bytes => Attribute.spelled bytes
  | _ => .ok ""

/-- What a piece says, which is nothing if it is not read. -/
def said (lexeme : Lexeme) : String := lexeme.characters.toOption.getD ""

lemma said_eq {lexeme : Lexeme} {text : String} (h : lexeme.characters = .ok text) :
    lexeme.said = text := by
  rw [said, h]
  rfl

end Lexeme

/-- The name in the content of a start tag. -/
def tagName (content : List UInt8) : String :=
  (Attribute.spelled (content.takeWhile Progress.isNamePart)).toOption.getD ""

/-- The attributes in the content of a start tag. -/
def tagAttributes (content : List UInt8) : Attributes :=
  (Attribute.read content (content.dropWhile Progress.isNamePart)).toOption.getD ∅

namespace Progress

variable {p p' : Progress} {trim : Bool} {lexeme : Lexeme}

/-- A piece that is no tag adds what it says to the text inside the root element, and does nothing
outside. -/
lemma eq_of_step_of_isTag (htag : lexeme.isTag = false) (h : p.step trim lexeme = .ok p') :
    p' = if p.path.isEmpty then p else p.addText lexeme.said := by
  cases lexeme with
  | startTag content isEmpty => cases htag
  | endTag content => cases htag
  | remark =>
    cases h
    simp [Lexeme.said, Lexeme.characters, Except.toOption, addText]
  | text bytes =>
    obtain ⟨text, hdecode, h⟩ := bind_eq_ok_iff.1 h
    rw [Lexeme.said_eq (by exact hdecode)]
    split_ifs at h ⊢ <;> cases h <;> rfl
  | reference bytes =>
    simp only [step, onReference] at h
    split_ifs at h ⊢ with hpath
    · cases h
      rfl
    · obtain ⟨name, hdecode, h⟩ := bind_eq_ok_iff.1 h
      obtain ⟨text, hmeaning, h⟩ := bind_eq_ok_iff.1 h
      rw [Lexeme.said_eq (by exact bind_eq_ok_iff.2 ⟨name, hdecode, hmeaning⟩)]
      cases h
      rfl
  | verbatim bytes =>
    simp only [step, onVerbatim] at h
    split_ifs at h ⊢ with hpath
    · cases h
      rfl
    · obtain ⟨text, hspelled, h⟩ := bind_eq_ok_iff.1 h
      rw [Lexeme.said_eq (by exact hspelled)]
      cases h
      rfl

/-- A start tag opens an element of its name, and an empty element closes again at once. -/
lemma eq_of_onStartTag {content : List UInt8} {isEmpty : Bool}
    (h : p.onStartTag content isEmpty = .ok p') :
    p' = if isEmpty then
        ⟨p.path, "", true, .closing (tagName content) ""
          :: .opening (tagName content) (tagAttributes content) :: p.events⟩
      else
        ⟨tagName content :: p.path, "", true,
          .opening (tagName content) (tagAttributes content) :: p.events⟩ := by
  simp only [onStartTag] at h
  by_cases hroot : (p.path.isEmpty && p.hasRoot) = true
  · rw [if_pos hroot] at h
    cases h
  · rw [if_neg hroot] at h
    obtain ⟨name, hname, h⟩ := bind_eq_ok_iff.1 h
    obtain ⟨attributes, hattributes, h⟩ := bind_eq_ok_iff.1 h
    have hname' : tagName content = name := by
      rw [tagName, hname]
      rfl
    have hattributes' : tagAttributes content = attributes := by
      rw [tagAttributes, hattributes]
      rfl
    rw [hname', hattributes']
    cases isEmpty <;> cases h <;> rfl

/-- An end tag closes the innermost element. -/
lemma eq_of_onEndTag {content : List UInt8} {name : String} {path : List String}
    (hpath : p.path = name :: path) (h : p.onEndTag trim content = .ok p') :
    p' = ⟨path, "", p.hasRoot, .closing name (settle trim p.text) :: p.events⟩ := by
  simp only [onEndTag, hpath] at h
  split_ifs at h <;> cases h <;> simp_all [settle]

end Progress

/-! ### Fragments -/

/-- A fragment of a document. -/
inductive Fragment
  /-- A piece that is no tag. -/
  | piece (lexeme : Lexeme) (isPlain : lexeme.isTag = false)
  /-- An empty element. -/
  | empty (content : List UInt8)
  /-- An element with what stands in its start tag, between its tags, and in its end tag. -/
  | element (start : List UInt8) (inside : List Fragment) (stop : List UInt8)

namespace Fragment

mutual

/-- The pieces of a fragment. -/
def lexemes : Fragment → List Lexeme
  | .piece lexeme _ => [lexeme]
  | .empty content => [.startTag content true]
  | .element start inside stop => .startTag start false :: (lexemesOfAll inside ++ [.endTag stop])

/-- The pieces of fragments one after the other. -/
def lexemesOfAll : List Fragment → List Lexeme
  | [] => []
  | fragment :: rest => fragment.lexemes ++ lexemesOfAll rest

end

lemma lexemesOfAll_append (a b : List Fragment) :
    lexemesOfAll (a ++ b) = lexemesOfAll a ++ lexemesOfAll b := by
  induction a with
  | nil => rfl
  | cons fragment rest ih => simp [lexemesOfAll, ih]

lemma lexemesOfAll_singleton (fragment : Fragment) : lexemesOfAll [fragment] = fragment.lexemes :=
  List.append_nil _

/-- Whether a fragment is an element. -/
def isElement : Fragment → Bool
  | .piece _ _ => false
  | .empty _ | .element _ _ _ => true

/-- The text of an element behind some of its fragments: every child element begins it anew. -/
def textAfter (text : String) : List Fragment → String
  | [] => text
  | .piece lexeme _ :: rest => textAfter (text ++ lexeme.said) rest
  | .empty _ :: rest => textAfter "" rest
  | .element _ _ _ :: rest => textAfter "" rest

mutual

/-- What is read of a fragment: at most one element. -/
def elements (trim : Bool) : Fragment → List Element
  | .piece _ _ => []
  | .empty content => [⟨tagName content, tagAttributes content, [], ""⟩]
  | .element start inside _ =>
    [⟨tagName start, tagAttributes start, elementsOfAll trim inside,
      Progress.settle trim (textAfter "" inside)⟩]

/-- What is read of fragments one after the other. -/
def elementsOfAll (trim : Bool) : List Fragment → List Element
  | [] => []
  | fragment :: rest => fragment.elements trim ++ elementsOfAll trim rest

end

lemma elementsOfAll_append (trim : Bool) (a b : List Fragment) :
    elementsOfAll trim (a ++ b) = elementsOfAll trim a ++ elementsOfAll trim b := by
  induction a with
  | nil => rfl
  | cons fragment rest ih => simp [elementsOfAll, ih]

lemma elementsOfAll_singleton (trim : Bool) (fragment : Fragment) :
    elementsOfAll trim [fragment] = fragment.elements trim :=
  List.append_nil _

/-! ### What is read of fragments -/

/-- Behind some fragments the open elements are the same as before, the events are those of the
elements that were read, and inside the root element the text has gone on. -/
structure Passes (trim : Bool) (p : Progress) (fragments : List Fragment) (p' : Progress) :
    Prop where
  path : p'.path = p.path
  events : p'.events = (Element.eventsOfAll (elementsOfAll trim fragments)).reverse ++ p.events
  text : p.path ≠ [] → p'.text = textAfter p.text fragments

variable {trim : Bool} {p p' mid : Progress} {fragments rest : List Fragment}

lemma Passes.nil (p : Progress) : Passes trim p [] p := ⟨rfl, rfl, fun _ => rfl⟩

lemma textAfter_cons (text : String) (fragment : Fragment) (rest : List Fragment) :
    textAfter text (fragment :: rest) = textAfter (textAfter text [fragment]) rest := by
  cases fragment <;> rfl

lemma Passes.cons (h : Passes trim p [fragment] mid) (hrest : Passes trim mid rest p') :
    Passes trim p (fragment :: rest) p' := by
  constructor
  · rw [hrest.path, h.path]
  · rw [hrest.events, h.events, elementsOfAll_singleton, elementsOfAll, Element.eventsOfAll_append,
      List.reverse_append, List.append_assoc]
  · intro hpath
    rw [hrest.text (h.path ▸ hpath), h.text hpath, ← textAfter_cons]

lemma passes_piece {lexeme : Lexeme} (isPlain : lexeme.isTag = false)
    (h : p.step trim lexeme = .ok p') : Passes trim p [.piece lexeme isPlain] p' := by
  rw [Progress.eq_of_step_of_isTag isPlain h]
  split_ifs with hpath
  · exact ⟨rfl, rfl, fun hne => absurd (List.isEmpty_iff.1 hpath) hne⟩
  · exact ⟨rfl, rfl, fun _ => rfl⟩

lemma passes_empty {content : List UInt8}
    (h : p.step trim (.startTag content true) = .ok p') : Passes trim p [.empty content] p' := by
  rw [Progress.eq_of_onStartTag h]
  exact ⟨rfl, rfl, fun _ => rfl⟩

/-- The fragments inside an element are passed between its tags. -/
lemma passes_element {start stop : List UInt8} {inside : List Fragment} {opened inner : Progress}
    (hstart : p.step trim (.startTag start false) = .ok opened)
    (hinside : Passes trim opened inside inner)
    (hstop : inner.step trim (.endTag stop) = .ok p') :
    Passes trim p [.element start inside stop] p' := by
  rw [Progress.eq_of_onStartTag hstart] at hinside
  rw [Progress.eq_of_onEndTag hinside.path hstop, hinside.text (by simp), hinside.events]
  refine ⟨rfl, ?_, fun _ => rfl⟩
  simp [elementsOfAll_singleton, elements, Element.eventsOfAll, Element.events]

mutual

/-- A fragment that is read is passed. -/
theorem passes_of_foldlM (fragment : Fragment) {p p' : Progress}
    (h : fragment.lexemes.foldlM (Progress.step trim) p = .ok p') :
    Passes trim p [fragment] p' := by
  cases fragment with
  | piece lexeme isPlain =>
    obtain ⟨mid, hstep, h⟩ := bind_eq_ok_iff.1 h
    cases h
    exact passes_piece isPlain hstep
  | empty content =>
    obtain ⟨mid, hstep, h⟩ := bind_eq_ok_iff.1 h
    cases h
    exact passes_empty hstep
  | element start inside stop =>
    rw [lexemes, List.foldlM_cons] at h
    obtain ⟨opened, hstart, h⟩ := bind_eq_ok_iff.1 h
    rw [List.foldlM_append] at h
    obtain ⟨inner, hinside, h⟩ := bind_eq_ok_iff.1 h
    obtain ⟨closed, hstop, h⟩ := bind_eq_ok_iff.1 h
    cases h
    exact passes_element hstart (passesOfAll_of_foldlM inside hinside) hstop

/-- Fragments that are read are passed. -/
theorem passesOfAll_of_foldlM (fragments : List Fragment) {p p' : Progress}
    (h : (lexemesOfAll fragments).foldlM (Progress.step trim) p = .ok p') :
    Passes trim p fragments p' := by
  cases fragments with
  | nil =>
    cases h
    exact .nil p
  | cons fragment rest =>
    rw [lexemesOfAll, List.foldlM_append] at h
    obtain ⟨mid, hfragment, hrest⟩ := bind_eq_ok_iff.1 h
    exact (passes_of_foldlM fragment hfragment).cons (passesOfAll_of_foldlM rest hrest)

end

/-! ### Every document has fragments -/

/-- The pieces of a document up to a place where elements are open: in front of each of their start
tags, outermost first, and behind the last one, stand whole fragments. -/
def Open (depth : Nat) (pieces : List Lexeme) : Prop :=
  ∃ (outer : List (List Fragment × List UInt8)) (inner : List Fragment), outer.length = depth ∧
    pieces = outer.flatMap (fun around => lexemesOfAll around.1 ++ [.startTag around.2 false])
      ++ lexemesOfAll inner

variable {depth : Nat} {pieces : List Lexeme}

lemma Open.fragment (h : Open depth pieces) (fragment : Fragment) :
    Open depth (pieces ++ fragment.lexemes) := by
  obtain ⟨outer, inner, hlength, rfl⟩ := h
  refine ⟨outer, inner ++ [fragment], hlength, ?_⟩
  rw [lexemesOfAll_append, lexemesOfAll_singleton, List.append_assoc]

lemma Open.startTag (h : Open depth pieces) (content : List UInt8) :
    Open (depth + 1) (pieces ++ [.startTag content false]) := by
  obtain ⟨outer, inner, rfl, rfl⟩ := h
  refine ⟨outer ++ [(inner, content)], [], by simp, ?_⟩
  simp [lexemesOfAll]

lemma Open.endTag (h : Open (depth + 1) pieces) (content : List UInt8) :
    Open depth (pieces ++ [.endTag content]) := by
  obtain ⟨outer, inner, hlength, rfl⟩ := h
  obtain rfl | ⟨outer, ⟨before, start⟩, rfl⟩ := List.eq_nil_or_concat' outer
  · cases hlength
  · refine ⟨outer, before ++ [.element start inner content], by simpa using hlength, ?_⟩
    simp [lexemesOfAll_append, lexemesOfAll, lexemes]

/-- As many elements are open behind pieces that are read as there are names on the path. -/
lemma open_of_foldlM (h : pieces.foldlM (Progress.step trim) Progress.start = .ok p) :
    Open p.path.length pieces := by
  induction pieces using List.reverseRecOn generalizing p with
  | nil =>
    cases h
    exact ⟨[], [], rfl, rfl⟩
  | append_singleton pieces lexeme ih =>
    rw [List.foldlM_append] at h
    obtain ⟨mid, hpieces, h⟩ := bind_eq_ok_iff.1 h
    obtain ⟨p', hstep, h⟩ := bind_eq_ok_iff.1 h
    cases h
    -- the piece opens an element, closes one, or stands as a whole fragment behind the others
    have hopen := ih hpieces
    have hdepth := Progress.length_path_of_step hstep
    cases htag : lexeme.isTag with
    | false =>
      have hlength : p.path.length = mid.path.length := by
        cases lexeme <;> simp_all [Lexeme.isTag, Lexeme.delta]
      rw [hlength]
      exact hopen.fragment (.piece lexeme htag)
    | true =>
      cases lexeme with
      | startTag content isEmpty =>
        cases isEmpty with
        | true =>
          have hlength : p.path.length = mid.path.length := by simpa [Lexeme.delta] using hdepth
          rw [hlength]
          exact hopen.fragment (.empty content)
        | false =>
          have hlength : p.path.length = mid.path.length + 1 := by
            simp only [Lexeme.delta] at hdepth
            omega
          rw [hlength]
          exact hopen.startTag content
      | endTag content =>
        have hlength : mid.path.length = p.path.length + 1 := by
          simp only [Lexeme.delta] at hdepth
          omega
        rw [hlength] at hopen
        exact hopen.endTag content
      | text bytes => cases htag
      | reference bytes => cases htag
      | verbatim bytes => cases htag
      | remark => cases htag

end Fragment

/-! ### Documents -/

open Fragment

/-- Bytes are a document with some fragments. -/
def Spells (bytes : List UInt8) (doc : List Fragment) : Prop :=
  Cuts (withoutMark bytes) (lexemesOfAll doc)

variable {trim : Bool} {bytes : List UInt8} {events : List Event} {doc : List Fragment}

/-- An accepted document has fragments. -/
theorem exists_spells (h : Event.ofDocument trim bytes = .ok events) :
    ∃ doc, Spells bytes doc := by
  obtain ⟨p, hread, hfinish⟩ := bind_eq_ok_iff.1 h
  obtain ⟨pieces, hcuts⟩ := Progress.exists_cuts_of_read hread
  rw [Progress.read_eq_foldlM hcuts] at hread
  have hpath : p.path = [] := by
    cases hpath : p.path with
    | nil => rfl
    | cons name path => simp [Progress.finish, hpath] at hfinish
  obtain ⟨outer, doc, hlength, hpieces⟩ := open_of_foldlM hread
  obtain rfl : outer = [] := by simpa [hpath] using hlength
  exact ⟨doc, by simpa [Spells, hpieces] using hcuts⟩

/-- An accepted document is read as the elements of its fragments. -/
theorem eq_events_of_spells (h : Event.ofDocument trim bytes = .ok events)
    (hdoc : Spells bytes doc) : events = Element.eventsOfAll (elementsOfAll trim doc) := by
  obtain ⟨p, hread, hfinish⟩ := bind_eq_ok_iff.1 h
  rw [Progress.read_eq_foldlM hdoc] at hread
  have hevents := (passesOfAll_of_foldlM doc hread).events
  have hend : events = p.events.reverse := by
    cases hpath : p.path with
    | nil =>
      cases hroot : p.hasRoot <;> simp [Progress.finish, hpath, hroot] at hfinish
      exact hfinish.symm
    | cons name path => simp [Progress.finish, hpath] at hfinish
  rw [hend, hevents]
  simp [Progress.start]

end CloudCodec.Xml
