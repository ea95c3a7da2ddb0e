/-
# The events of a document walk one element

The reader of documents keeps the names of the open elements and emits events; it never sees a
tree.  Behind every piece of a document, however, its events are those of a tree that is still
being built: the elements that closed already, each among the children of the open element that
holds it, and the open ones (`Walk`).  Each piece of a document keeps this up (`Walk.move`), and
so a document that is accepted tells the events of one element (`exists_eq_events`).
-/
import CloudCodec.Xml.Element
import Mathlib.Tactic.Lemma
import Mathlib.Tactic.SplitIfs

namespace CloudCodec.Xml

namespace Progress

/-! ### What a piece of a document does -/

/-- What a piece of a document does to the progress, if it is accepted. -/
inductive Moves (p : Progress) : Progress → Prop
  /-- Nothing is read but character data. -/
  | text (text : String) : Moves p { p with text }
  /-- An element without content. -/
  | empty (name : String) (attributes : Attributes) (h : p.path = [] → p.hasRoot = false) :
      Moves p ⟨p.path, "", true, .closing name "" :: .opening name attributes :: p.events⟩
  /-- An element opens. -/
  | opening (name : String) (attributes : Attributes) (h : p.path = [] → p.hasRoot = false) :
      Moves p ⟨name :: p.path, "", true, .opening name attributes :: p.events⟩
  /-- The innermost element closes. -/
  | closing (name text : String) (path : List String) (h : p.path = name :: path) :
      Moves p ⟨path, "", p.hasRoot, .closing name text :: p.events⟩

variable {p p' : Progress} {trim : Bool}

lemma moves_self (p : Progress) : Moves p p := .text p.text

lemma moves_of_onText {bytes : List UInt8} (h : p.onText bytes = .ok p') : Moves p p' := by
  simp only [onText, bind, Except.bind, pure, Except.pure] at h
  split at h
  · cases h
  · split_ifs at h
    · cases h
      exact moves_self p
    · cases h
      exact .text _

lemma moves_of_onReference {bytes : List UInt8} (h : p.onReference bytes = .ok p') :
    Moves p p' := by
  simp only [onReference, bind, Except.bind, pure, Except.pure] at h
  split_ifs at h
  · cases h
    exact moves_self p
  · split at h
    · cases h
    · split at h
      · cases h
      · cases h
        exact .text _

lemma moves_of_onVerbatim {bytes : List UInt8} (h : p.onVerbatim bytes = .ok p') :
    Moves p p' := by
  simp only [onVerbatim, bind, Except.bind, pure, Except.pure] at h
  split_ifs at h
  · cases h
    exact moves_self p
  · split at h
    · cases h
    · cases h
      exact .text _

lemma moves_of_onStartTag {content : List UInt8} {isEmpty : Bool}
    (h : p.onStartTag content isEmpty = .ok p') : Moves p p' := by
  simp only [onStartTag, bind, Except.bind, pure, Except.pure] at h
  split at h
  · cases h
  · rename_i hroot
    have hfirst : p.path = [] → p.hasRoot = false := by
      intro hpath
      simpa [hpath] using hroot
    split at h
    · cases h
    · split at h
      · cases h
      · split_ifs at h <;> cases h
        · exact .empty _ _ hfirst
        · exact .opening _ _ hfirst

lemma moves_of_onEndTag {content : List UInt8} (h : p.onEndTag trim content = .ok p') :
    Moves p p' := by
  simp only [onEndTag] at h
  split at h
  · cases h
  · rename_i name path hpath
    split_ifs at h <;> cases h
    · exact .closing name _ path hpath
    · exact .closing name _ path hpath

/-- An accepted piece makes one of these moves. -/
theorem moves_of_step {lexeme : Lexeme} (h : p.step trim lexeme = .ok p') : Moves p p' := by
  cases lexeme with
  | text bytes => exact moves_of_onText h
  | reference bytes => exact moves_of_onReference h
  | verbatim bytes => exact moves_of_onVerbatim h
  | remark =>
    cases h
    exact moves_self p
  | startTag content isEmpty => exact moves_of_onStartTag h
  | endTag content => exact moves_of_onEndTag h

/-- Bytes that are read start with an accepted piece. -/
lemma exists_of_read_cons {b : UInt8} {rest : List UInt8}
    (h : p.read trim (b :: rest) = .ok p') :
    ∃ lexeme after mid, Lexeme.next b rest = .ok (lexeme, after) ∧
      p.step trim lexeme = .ok mid ∧ mid.read trim after = .ok p' := by
  rw [read] at h
  split at h
  · cases h
  · rename_i lexeme after hnext
    split at h
    · cases h
    · rename_i mid hstep
      exact ⟨lexeme, after, mid, hnext, hstep, h⟩

end Progress

/-! ### A tree that is still being built -/

/-- An open element with the child elements that closed already. -/
structure OpenElement where
  /-- The name. -/
  name : String
  /-- The attributes. -/
  attributes : Attributes
  /-- The elements that closed inside it, in order. -/
  children : List Element

namespace OpenElement

/-- The element that is left when an open one closes. -/
def close (o : OpenElement) (text : String) : Element := ⟨o.name, o.attributes, o.children, text⟩

/-- The events of open elements, given innermost first. -/
def events : List OpenElement → List Event
  | [] => []
  | o :: outer =>
    events outer ++ .opening o.name o.attributes :: Element.eventsOfAll o.children

/-- Open elements after an element closed inside the innermost of them. -/
def addChild (e : Element) : List OpenElement → List OpenElement
  | [] => []
  | o :: outer => { o with children := o.children ++ [e] } :: outer

lemma map_name_addChild (e : Element) (path : List OpenElement) :
    (addChild e path).map name = path.map name := by
  cases path <;> rfl

lemma events_addChild (e : Element) {path : List OpenElement} (h : path ≠ []) :
    events (addChild e path) = events path ++ e.events := by
  obtain ⟨o, outer, rfl⟩ := List.exists_cons_of_ne_nil h
  simp [addChild, events, Element.eventsOfAll_append, Element.eventsOfAll]

lemma events_cons_closing (o : OpenElement) (outer : List OpenElement) (text : String) :
    events (o :: outer) ++ [.closing o.name text] = events outer ++ (o.close text).events := by
  simp [events, close, Element.events]

end OpenElement

/-- The progress stands inside the walk of one element. -/
inductive Walk : Progress → Prop
  /-- No element opened yet. -/
  | before (text : String) : Walk ⟨[], text, false, []⟩
  /-- The root element is open. -/
  | inside (path : List OpenElement) (h : path ≠ []) (text : String) :
      Walk ⟨path.map OpenElement.name, text, true, (OpenElement.events path).reverse⟩
  /-- The root element is closed. -/
  | behind (e : Element) (text : String) : Walk ⟨[], text, true, e.events.reverse⟩

namespace Walk

variable {p p' : Progress} {trim : Bool}

lemma setText (h : Walk p) (text : String) : Walk { p with text } := by
  cases h with
  | before => exact .before text
  | inside path hpath => exact .inside path hpath text
  | behind e => exact .behind e text

/-- Every move stays inside the walk of one element. -/
theorem move (h : Walk p) (hmove : Progress.Moves p p') : Walk p' := by
  cases hmove with
  | text text => exact h.setText text
  | empty name attributes hfirst =>
    cases h with
    | before => exact .behind ⟨name, attributes, [], ""⟩ ""
    | inside path hpath =>
      have hwalk := inside (OpenElement.addChild ⟨name, attributes, [], ""⟩ path)
        (by cases path <;> simp_all [OpenElement.addChild]) ""
      rw [OpenElement.map_name_addChild, OpenElement.events_addChild _ hpath] at hwalk
      simpa [Element.events, Element.eventsOfAll] using hwalk
    | behind e => cases hfirst rfl
  | opening name attributes hfirst =>
    cases h with
    | before => exact .inside [⟨name, attributes, []⟩] (by simp) ""
    | inside path hpath =>
      have hwalk := inside (⟨name, attributes, []⟩ :: path) (by simp) ""
      simpa [OpenElement.events, Element.eventsOfAll] using hwalk
    | behind e => cases hfirst rfl
  | closing name text path hpath =>
    cases h with
    | before => cases hpath
    | inside path' hne =>
      obtain ⟨o, outer, rfl⟩ := List.exists_cons_of_ne_nil hne
      obtain ⟨rfl, rfl⟩ := List.cons.inj hpath
      have hevents := OpenElement.events_cons_closing o outer text
      have hreverse : Event.closing o.name text :: (OpenElement.events (o :: outer)).reverse
          = (OpenElement.events outer ++ (o.close text).events).reverse := by
        rw [← hevents]
        simp
      -- the closed element is the root, or goes to the children of the next open one
      by_cases houter : outer = []
      · subst houter
        rw [hreverse]
        exact .behind (o.close text) ""
      · have hwalk := inside (OpenElement.addChild (o.close text) outer)
          (by cases outer <;> simp_all [OpenElement.addChild]) ""
        rw [OpenElement.map_name_addChild, OpenElement.events_addChild _ houter,
          ← hreverse] at hwalk
        exact hwalk
    | behind e => cases hpath

/-- All the pieces of a document stay inside the walk of one element. -/
theorem read (h : Walk p) {bytes : List UInt8} (hread : p.read trim bytes = .ok p') : Walk p' := by
  induction p, bytes using Progress.read.induct trim with
  | case1 p =>
    rw [Progress.read] at hread
    cases hread
    exact h
  | case2 p b rest fault hnext =>
    obtain ⟨_, _, _, hnext', _⟩ := Progress.exists_of_read_cons hread
    cases hnext.symm.trans hnext'
  | case3 p b rest lexeme after hnext fault hstep =>
    obtain ⟨lexeme', after', mid, hnext', hstep', _⟩ := Progress.exists_of_read_cons hread
    cases hnext.symm.trans hnext'
    cases hstep.symm.trans hstep'
  | case4 p b rest lexeme after hnext mid hstep ih =>
    obtain ⟨lexeme', after', mid', hnext', hstep', hread'⟩ := Progress.exists_of_read_cons hread
    cases hnext.symm.trans hnext'
    cases hstep.symm.trans hstep'
    exact ih (h.move (Progress.moves_of_step hstep)) hread'

/-- A document that ends here told the events of one element. -/
theorem finish (h : Walk p) {events : List Event} (hfinish : p.finish = .ok events) :
    ∃ e : Element, events = e.events := by
  cases h with
  | before text => cases hfinish
  | inside path hpath text =>
    obtain ⟨o, outer, rfl⟩ := List.exists_cons_of_ne_nil hpath
    cases hfinish
  | behind e text =>
    cases hfinish
    exact ⟨e, List.reverse_reverse _⟩

end Walk

/-! ### Documents -/

/-- A document that is accepted tells the events of one element. -/
theorem exists_eq_events {trim : Bool} {bytes : List UInt8} {events : List Event}
    (h : Event.ofDocument trim bytes = .ok events) : ∃ e : Element, events = e.events := by
  simp only [Event.ofDocument] at h
  cases hread : Progress.start.read trim (withoutMark bytes) with
  | error fault =>
    rw [hread] at h
    cases h
  | ok p =>
    rw [hread] at h
    have hwalk : Walk p := Walk.read (.before "") hread
    exact hwalk.finish h

/-! ### The open elements between two events -/

/-- The names of the open elements, innermost first, behind one more event that fits them. -/
def pathBehind (path : List String) : Event → Option (List String)
  | .opening name _ => some (name :: path)
  | .closing name _ => if path.head? = some name then some path.tail else none

mutual

/-- Behind an element the same elements are open as before it. -/
theorem foldlM_events (e : Element) (path : List String) :
    e.events.foldlM pathBehind path = some path := by
  rcases e with ⟨name, attributes, children, text⟩
  simp [Element.events, pathBehind, foldlM_eventsOfAll children]

/-- Behind some elements the same elements are open as before them. -/
theorem foldlM_eventsOfAll (es : List Element) (path : List String) :
    (Element.eventsOfAll es).foldlM pathBehind path = some path := by
  cases es with
  | nil => rfl
  | cons e rest =>
    simp [Element.eventsOfAll, foldlM_events e path, foldlM_eventsOfAll rest path]

end

variable {e : Element} {before after : List Event} {event : Event} {name text : String}
  {path path' : List String}

/-- The last of some events fits the elements that are open in front of it. -/
lemma exists_path_of_concat (h : (before ++ [event]).foldlM pathBehind path = some path') :
    ∃ mid, before.foldlM pathBehind path = some mid ∧ pathBehind mid event = some path' := by
  rw [List.foldlM_append] at h
  obtain ⟨mid, hbefore, hlast⟩ := Option.bind_eq_some_iff.1 h
  exact ⟨mid, hbefore, by simpa [List.foldlM_cons, List.foldlM_nil] using hlast⟩

/-- Between the events of an element there are always the names of the open ones. -/
lemma exists_path (h : e.events = before ++ after) :
    ∃ path, before.foldlM pathBehind [] = some path ∧
      after.foldlM pathBehind path = some [] := by
  have hpath := foldlM_events e []
  rw [h, List.foldlM_append] at hpath
  exact Option.bind_eq_some_iff.1 hpath

/-- An event closes the element that opened last and is still open. -/
lemma exists_path_of_closing (h : e.events = before ++ .closing name text :: after) :
    ∃ path, before.foldlM pathBehind [] = some (name :: path) := by
  obtain ⟨path, hbefore, hafter⟩ := exists_path h
  rw [List.foldlM_cons] at hafter
  obtain ⟨path', hclosing, -⟩ := Option.bind_eq_some_iff.1 hafter
  rw [pathBehind] at hclosing
  split_ifs at hclosing with hhead
  obtain ⟨path'', rfl⟩ := List.head?_eq_some_iff.1 hhead
  exact ⟨path'', hbefore⟩

/-- A leaf is closed by its own name. -/
lemma eq_of_opening_closing {attributes : Attributes} {name' : String}
    (h : e.events = before ++ .opening name' attributes :: .closing name text :: after) :
    name' = name := by
  have h' : e.events = (before ++ [.opening name' attributes]) ++ .closing name text :: after := by
    simpa using h
  obtain ⟨path, hbefore⟩ := exists_path_of_closing h'
  obtain ⟨path', -, hopening⟩ := exists_path_of_concat hbefore
  rw [pathBehind] at hopening
  exact (List.cons.inj (Option.some.inj hopening)).1

end CloudCodec.Xml
