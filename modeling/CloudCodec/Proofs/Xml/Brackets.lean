/-
# Openings and closings as brackets

An accepted document tells the events of one element.  What this means for the events alone is
collected here: the element can be read off them again, so that there is exactly one; an opening
and a closing that belong together enclose the events of whole elements; and between the first
event and the last the root element is always open.  The main statement is
`wellNested_of_document`.
-/
import CloudCodec.Decode.Settings
import CloudCodec.Proofs.Xml.Nesting
import Mathlib

namespace CloudCodec.Xml

/-! ### The element of a list of events -/

lemma exists_events_eq_opening_cons (e : Element) :
    ∃ inner, e.events = .opening e.name e.attributes :: inner := by
  rcases e with ⟨name, attributes, children, text⟩
  exact ⟨_, rfl⟩

mutual

/-- Where an element begins, its events tell which one it is and where it ends. -/
theorem eq_of_events_append {e e' : Element} {rest rest' : List Event}
    (h : e.events ++ rest = e'.events ++ rest') : e = e' ∧ rest = rest' := by
  rcases e with ⟨name, attributes, children, text⟩
  rcases e' with ⟨name', attributes', children', text'⟩
  simp only [Element.events, List.cons_append, List.append_assoc, List.nil_append,
    List.cons.injEq, Event.opening.injEq] at h
  obtain ⟨⟨rfl, rfl⟩, hinner⟩ := h
  obtain ⟨rfl, hclosing⟩ := eq_of_eventsOfAll_append hinner
  simp only [List.cons.injEq, Event.closing.injEq] at hclosing
  obtain ⟨⟨-, rfl⟩, rfl⟩ := hclosing
  exact ⟨rfl, rfl⟩

/-- The events of elements in front of a closing tell which elements they are. -/
theorem eq_of_eventsOfAll_append {es es' : List Element} {name name' text text' : String}
    {rest rest' : List Event}
    (h : Element.eventsOfAll es ++ .closing name text :: rest
      = Element.eventsOfAll es' ++ .closing name' text' :: rest') :
    es = es' ∧ Event.closing name text :: rest = .closing name' text' :: rest' := by
  match es, es' with
  | [], [] => exact ⟨rfl, h⟩
  | [], e' :: _ =>
    obtain ⟨inner, he'⟩ := exists_events_eq_opening_cons e'
    simp [Element.eventsOfAll, he'] at h
  | e :: _, [] =>
    obtain ⟨inner, he⟩ := exists_events_eq_opening_cons e
    simp [Element.eventsOfAll, he] at h
  | e :: more, e' :: more' =>
    simp only [Element.eventsOfAll, List.append_assoc] at h
    obtain ⟨rfl, hrest⟩ := eq_of_events_append h
    obtain ⟨rfl, hclosing⟩ := eq_of_eventsOfAll_append hrest
    exact ⟨rfl, hclosing⟩

end

/-- Different elements have different events. -/
theorem events_injective : Function.Injective Element.events := by
  intro e e' h
  have happend : e.events ++ [] = e'.events ++ [] := by rw [h]
  exact (eq_of_events_append happend).1

/-! ### Brackets that belong together -/

/-- An opening is followed by the events of some elements and a closing of the same name. -/
def ClosesBehind (name : String) (after : List Event) : Prop :=
  ∃ children text rest, after = Element.eventsOfAll children ++ .closing name text :: rest

/-- A closing is preceded by an opening of the same name and the events of some elements. -/
def OpensBefore (name : String) (before : List Event) : Prop :=
  ∃ outer attributes children,
    before = outer ++ .opening name attributes :: Element.eventsOfAll children

lemma ClosesBehind.append {name : String} {after : List Event} (h : ClosesBehind name after)
    (more : List Event) : ClosesBehind name (after ++ more) := by
  obtain ⟨children, text, rest, rfl⟩ := h
  exact ⟨children, text, rest ++ more, by simp⟩

lemma OpensBefore.append {name : String} {before : List Event} (h : OpensBefore name before)
    (more : List Event) : OpensBefore name (more ++ before) := by
  obtain ⟨outer, attributes, children, rfl⟩ := h
  exact ⟨more ++ outer, attributes, children, by simp⟩

/-- An event stands in one of two lists that are joined. -/
lemma append_eq_append_cons {left right before after : List Event} {event : Event}
    (h : left ++ right = before ++ event :: after) :
    (∃ mid, left = before ++ event :: mid ∧ after = mid ++ right) ∨
      ∃ mid, before = left ++ mid ∧ right = mid ++ event :: after := by
  rcases List.append_eq_append_iff.1 h with ⟨mid, hbefore, hright⟩ | ⟨mid, hleft, hafter⟩
  · exact .inr ⟨mid, hbefore, hright⟩
  · cases mid with
    | nil => exact .inr ⟨[], by simpa using hleft.symm, by simpa using hafter.symm⟩
    | cons first mid =>
      obtain ⟨rfl, rfl⟩ := List.cons.inj hafter
      exact .inl ⟨mid, hleft, rfl⟩

mutual

/-- Every opening among the events of an element has its closing there. -/
theorem closesBehind_of_events {e : Element} {before after : List Event} {name : String}
    {attributes : Attributes} (h : e.events = before ++ .opening name attributes :: after) :
    ClosesBehind name after := by
  rcases e with ⟨name', attributes', children, text⟩
  rw [Element.events] at h
  cases before with
  | nil =>
    simp only [List.nil_append, List.cons.injEq, Event.opening.injEq] at h
    obtain ⟨⟨rfl, rfl⟩, rfl⟩ := h
    exact ⟨children, text, [], rfl⟩
  | cons first before =>
    have hinner := (List.cons.inj h).2
    rcases append_eq_append_cons hinner with ⟨mid, hchildren, rfl⟩ | ⟨mid, -, hclosing⟩
    · exact (closesBehind_of_eventsOfAll hchildren).append _
    · -- what stands behind the children is a single closing
      cases mid <;> simp at hclosing

theorem closesBehind_of_eventsOfAll {es : List Element} {before after : List Event}
    {name : String} {attributes : Attributes}
    (h : Element.eventsOfAll es = before ++ .opening name attributes :: after) :
    ClosesBehind name after := by
  match es with
  | [] => simp [Element.eventsOfAll] at h
  | e :: more =>
    rw [Element.eventsOfAll] at h
    rcases append_eq_append_cons h with ⟨mid, he, rfl⟩ | ⟨mid, -, hmore⟩
    · exact (closesBehind_of_events he).append _
    · exact closesBehind_of_eventsOfAll hmore

end

mutual

/-- Every closing among the events of an element has its opening there. -/
theorem opensBefore_of_events {e : Element} {before after : List Event} {name text : String}
    (h : e.events = before ++ .closing name text :: after) : OpensBefore name before := by
  rcases e with ⟨name', attributes, children, text'⟩
  rw [Element.events] at h
  cases before with
  | nil => simp at h
  | cons first before =>
    obtain ⟨rfl, hinner⟩ := List.cons.inj h
    rcases append_eq_append_cons hinner with ⟨mid, hchildren, -⟩ | ⟨mid, rfl, hclosing⟩
    · exact (opensBefore_of_eventsOfAll hchildren).append [_]
    · -- the closing of the element itself
      cases mid with
      | nil =>
        simp only [List.nil_append, List.cons.injEq, Event.closing.injEq] at hclosing
        obtain ⟨⟨rfl, -⟩, -⟩ := hclosing
        exact ⟨[], attributes, children, by simp⟩
      | cons _ mid => simp at hclosing

theorem opensBefore_of_eventsOfAll {es : List Element} {before after : List Event}
    {name text : String}
    (h : Element.eventsOfAll es = before ++ .closing name text :: after) :
    OpensBefore name before := by
  match es with
  | [] => simp [Element.eventsOfAll] at h
  | e :: more =>
    rw [Element.eventsOfAll] at h
    rcases append_eq_append_cons h with ⟨mid, he, -⟩ | ⟨mid, rfl, hmore⟩
    · exact opensBefore_of_events he
    · exact (opensBefore_of_eventsOfAll hmore).append _

end

/-! ### The root element -/

/-- Events that close only what they opened leave alone what was open before them. -/
lemma foldlM_pathBehind_append {events : List Event} {path path' : List String}
    (h : events.foldlM pathBehind path = some path') (outer : List String) :
    events.foldlM pathBehind (path ++ outer) = some (path' ++ outer) := by
  induction events generalizing path with
  | nil =>
    cases h
    rfl
  | cons event rest ih =>
    rw [List.foldlM_cons] at h
    obtain ⟨mid, hmid, hrest⟩ := Option.bind_eq_some_iff.1 h
    have hevent : pathBehind (path ++ outer) event = some (mid ++ outer) := by
      cases event with
      | opening name attributes =>
        cases hmid
        rfl
      | closing name text =>
        rw [pathBehind] at hmid
        split_ifs at hmid with hhead
        obtain ⟨path, rfl⟩ := List.head?_eq_some_iff.1 hhead
        cases hmid
        simp [pathBehind]
    rw [List.foldlM_cons, hevent]
    exact ih hrest

/-- Between the first and the last of its events an element is open. -/
theorem exists_path_of_between (e : Element) {before after : List Event}
    (h : e.events = before ++ after) (hbefore : before ≠ []) (hafter : after ≠ []) :
    ∃ path, before.foldlM pathBehind [] = some (path ++ [e.name]) := by
  rcases e with ⟨name, attributes, children, text⟩
  obtain ⟨first, before, rfl⟩ := List.exists_cons_of_ne_nil hbefore
  rw [Element.events] at h
  obtain ⟨rfl, hinner⟩ := List.cons.inj h
  -- the closing of the element is the last event, so `before` stays among the children
  obtain ⟨mid, hchildren⟩ : ∃ mid, Element.eventsOfAll children = before ++ mid := by
    rcases List.append_eq_append_iff.1 hinner with ⟨mid, rfl, hlast⟩ | ⟨mid, hleft, -⟩
    · cases mid with
      | nil => exact ⟨[], by simp⟩
      | cons _ mid => simp_all
    · exact ⟨mid, hleft⟩
  have hfold := foldlM_eventsOfAll children []
  rw [hchildren, List.foldlM_append] at hfold
  obtain ⟨path, hpath, -⟩ := Option.bind_eq_some_iff.1 hfold
  exact ⟨path, foldlM_pathBehind_append hpath [name]⟩

/-! ### Documents -/

/-- The events are those of exactly one element, and are nested accordingly. -/
structure WellNested (events : List Event) : Prop where
  /-- There are events. -/
  ne_nil : events ≠ []
  /-- They walk exactly one element. -/
  existsUnique : ∃! e : Element, events = e.events
  /-- The first event opens the root, the last one closes it, and no event lies outside it: the
  root is open behind each event but the last, and nothing is open behind that. -/
  root : ∃ name attributes inner text,
    events = .opening name attributes :: (inner ++ [.closing name text]) ∧
      (∀ before after, events = before ++ after → before ≠ [] → after ≠ [] →
        ∃ path, before.foldlM pathBehind [] = some (path ++ [name])) ∧
      events.foldlM pathBehind [] = some []
  /-- Every opening is closed by a closing of its name behind whole elements. -/
  closesBehind : ∀ before name attributes after,
    events = before ++ .opening name attributes :: after → ClosesBehind name after
  /-- Every closing closes an opening of its name in front of whole elements. -/
  opensBefore : ∀ before name text after,
    events = before ++ .closing name text :: after → OpensBefore name before

lemma wellNested_events (e : Element) : WellNested e.events where
  ne_nil := Element.events_ne_nil e
  existsUnique := ⟨e, rfl, fun _ h => events_injective h.symm⟩
  root := by
    refine ⟨e.name, e.attributes, Element.eventsOfAll e.children, e.text, ?_, ?_, ?_⟩
    · rcases e with ⟨name, attributes, children, text⟩
      rfl
    · intro before after h hbefore hafter
      exact exists_path_of_between e h hbefore hafter
    · exact foldlM_events e []
  closesBehind := fun _ _ _ _ h => closesBehind_of_events h
  opensBefore := fun _ _ _ _ h => opensBefore_of_events h

/-- The events of an accepted document are the walk of exactly one element. -/
theorem wellNested_of_document (settings : Decode.Settings) (bytes : List UInt8)
    (events : List Event) (h : Event.ofDocument settings.trim bytes = .ok events) :
    WellNested events := by
  obtain ⟨e, rfl⟩ := exists_eq_events h
  exact wellNested_events e

/-- Equal names on the path, an empty element, text around a child, and a comment and a reference
outside the root. -/
theorem wellNested_of_document_sample :
    Event.ofDocument true (Utf8.encode "<!-- > --><a x='1'>s<a/>t<b>&lt;</b> u </a>&n;")
      = .ok [.opening "a" (.ofList [("x", "1")]), .opening "a" ∅, .closing "a" "",
          .opening "b" ∅, .closing "b" "<", .closing "a" "u"] ∧
    WellNested [.opening "a" (.ofList [("x", "1")]), .opening "a" ∅, .closing "a" "",
          .opening "b" ∅, .closing "b" "<", .closing "a" "u"] := by
  have h :
      Event.ofDocument true (Utf8.encode "<!-- > --><a x='1'>s<a/>t<b>&lt;</b> u </a>&n;")
      = .ok [.opening "a" (.ofList [("x", "1")]), .opening "a" ∅, .closing "a" "",
          .opening "b" ∅, .closing "b" "<", .closing "a" "u"] := by cbv
  exact ⟨h, wellNested_of_document ⟨true, none⟩ _ _ h⟩

end CloudCodec.Xml
