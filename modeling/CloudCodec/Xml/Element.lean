/-
# Elements

The tree of a document: an element holds its attributes, its child elements and the character
data behind the last of them. The events of a tree walk it in order.
-/
import CloudCodec.Xml.Event

namespace CloudCodec.Xml

/-- An element of a document. -/
structure Element where
  /-- The name. -/
  name : String
  /-- The attributes. -/
  attributes : Attributes
  /-- The elements inside, in order. -/
  children : List Element
  /-- The character data behind the last of them, or all of it if there is none. -/
  text : String

namespace Element

mutual

/-- The events of an element, from its opening to its closing. -/
def events : Element → List Event
  | ⟨name, attributes, children, text⟩ =>
    .opening name attributes :: (eventsOfAll children ++ [.closing name text])

/-- The events of elements one after the other. -/
def eventsOfAll : List Element → List Event
  | [] => []
  | e :: rest => e.events ++ eventsOfAll rest

end

/-- Whether an element has no child elements. -/
def isLeaf (e : Element) : Bool := e.children.isEmpty

theorem eventsOfAll_append (a b : List Element) :
    eventsOfAll (a ++ b) = eventsOfAll a ++ eventsOfAll b := by
  induction a with
  | nil => rfl
  | cons e rest ih => simp [eventsOfAll, ih]

/-- An element has an opening and a closing at least. -/
theorem events_ne_nil (e : Element) : e.events ≠ [] := by
  rcases e with ⟨name, attributes, children, text⟩
  simp [events]

end Element

end CloudCodec.Xml
