/-
# Documents that mean the same

A record takes from a document the elements that it claims and the leaves that it meets.  So three
kinds of edits do not matter to it (`Edited`): other attributes; other character data beside a child
element; and a wrapper around some elements, or its removal, where the record that owns the place
does not claim the wrapper.  The layout of the owner is known from the layout of the root and the
names of the elements around the place, since the child of a claimed element is a fresh record of
the shape that its slot says, or a list that keeps its marker (`Layout.inside`).

Edited fragments are read alike by every complete record of the layout that they are edited for
(`readAll_edited`, by induction on the edits), so edited documents are decoded alike
(`decode_edited`).
-/
import CloudCodec.Proofs.Response.Completeness
import CloudCodec.Proofs.Xml.Fragments

namespace CloudCodec.Response

open Decode Xml Xml.Fragment

/-! ### Edits -/

/-- Whether an element is among some fragments. -/
def hasElement (fragments : List Fragment) : Bool := fragments.any isElement

/-- Fragments in a place that a record of a layout owns are made from others by edits that do not
matter to it. -/
inductive Edited : Layout → List Fragment → List Fragment → Prop
  | refl (layout : Layout) (a : List Fragment) : Edited layout a a
  | symm {layout : Layout} {a b : List Fragment} : Edited layout a b → Edited layout b a
  | trans {layout : Layout} {a b c : List Fragment} :
      Edited layout a b → Edited layout b c → Edited layout a c
  /-- Edits side by side. -/
  | append {layout : Layout} {a a' b b' : List Fragment} :
      Edited layout a a' → Edited layout b b' → Edited layout (a ++ b) (a' ++ b')
  /-- Edits inside an element. -/
  | inside {layout : Layout} {start stop : List UInt8} {a a' : List Fragment} :
      Edited (layout.inside (tagName start)) a a' →
        Edited layout [.element start a stop] [.element start a' stop]
  /-- Other attributes: only the name stays in a start tag. -/
  | attributes (layout : Layout) {start start' : List UInt8} (a : List Fragment)
      (stop : List UInt8) :
      start.takeWhile Progress.isNamePart = start'.takeWhile Progress.isNamePart →
        Edited layout [.element start a stop] [.element start' a stop]
  /-- Other attributes of an empty element. -/
  | emptyAttributes (layout : Layout) {content content' : List UInt8} :
      content.takeWhile Progress.isNamePart = content'.takeWhile Progress.isNamePart →
        Edited layout [.empty content] [.empty content']
  /-- Other character data beside the same elements. -/
  | text (layout : Layout) {a a' : List Fragment} :
      a.filter isElement = a'.filter isElement → hasElement a = true → Edited layout a a'
  /-- A wrapper around fragments among which is an element. -/
  | wrap {layout : Layout} {start : List UInt8} {a : List Fragment} (stop : List UInt8) :
      hasElement a = true → layout.shape.claims (tagName start) = false →
        Edited layout a [.element start a stop]

variable {layout : Layout} {a b : List Fragment} {trim : Bool}

lemma hasElement_append (a b : List Fragment) :
    hasElement (a ++ b) = (hasElement a || hasElement b) := List.any_append

lemma hasElement_filter (a : List Fragment) : hasElement (a.filter isElement) = hasElement a := by
  simp [hasElement, List.any_filter]

/-- Fragments among which is an element are not read as nothing. -/
lemma elementsOfAll_ne_nil (h : hasElement a = true) (trim : Bool) :
    elementsOfAll trim a ≠ [] := by
  induction a with
  | nil => cases h
  | cons fragment rest ih =>
    cases fragment with
    | piece lexeme isPlain => exact ih h
    | empty content => simp [elementsOfAll, elements]
    | element start inside stop => simp [elementsOfAll, elements]

/-- Only elements are read of fragments. -/
lemma elementsOfAll_filter (trim : Bool) (a : List Fragment) :
    elementsOfAll trim (a.filter isElement) = elementsOfAll trim a := by
  induction a with
  | nil => rfl
  | cons fragment rest ih =>
    cases fragment with
    | piece lexeme isPlain => exact ih
    | empty content =>
      rw [List.filter_cons_of_pos rfl, elementsOfAll, elementsOfAll, ih]
    | element start inside stop =>
      rw [List.filter_cons_of_pos rfl, elementsOfAll, elementsOfAll, ih]

/-- Where no element is, nothing is edited: the fragments of a leaf are its text. -/
lemma Edited.eq_or_hasElement (h : Edited layout a b) :
    a = b ∨ hasElement a = true ∧ hasElement b = true := by
  induction h with
  | refl => exact .inl rfl
  | symm _ ih =>
    rcases ih with rfl | ⟨ha, hb⟩
    · exact .inl rfl
    · exact .inr ⟨hb, ha⟩
  | trans _ _ ih ih' =>
    rcases ih with rfl | ⟨ha, hb⟩
    · exact ih'
    · rcases ih' with rfl | ⟨-, hc⟩
      · exact .inr ⟨ha, hb⟩
      · exact .inr ⟨ha, hc⟩
  | append _ _ ih ih' =>
    rcases ih with rfl | ⟨ha, ha'⟩
    · rcases ih' with rfl | ⟨hb, hb'⟩
      · exact .inl rfl
      · exact .inr (by simp [hasElement_append, hb, hb'])
    · exact .inr (by simp [hasElement_append, ha, ha'])
  | inside => exact .inr ⟨rfl, rfl⟩
  | attributes => exact .inr ⟨rfl, rfl⟩
  | emptyAttributes => exact .inr ⟨rfl, rfl⟩
  | text layout hfilter ha =>
    exact .inr ⟨ha, by rw [← hasElement_filter, ← hfilter, hasElement_filter, ha]⟩
  | wrap stop ha => exact .inr ⟨ha, rfl⟩

/-! ### What an edit does to a record -/

namespace Node

variable {node : Node} {name : String} {attributes : Attributes} {children children' : List Element}

/-- Records do not look at attributes. -/
lemma readElement_attributes (name : String) (attributes attributes' : Attributes)
    (children : List Element) (text : String) :
    (readElement ⟨name, attributes, children, text⟩ : EStateM Error Node Unit)
      = readElement ⟨name, attributes', children, text⟩ := by
  rw [readElement, readElement]
  rfl

/-- An element with child elements is read by the record that owns its inside, and the text behind
them is not looked at. -/
lemma IsComplete.readElement_congr (h : node.IsComplete) (hne : children ≠ [])
    (hne' : children' ≠ [])
    (hinside : ∀ inner : Node, inner.IsComplete → inner.layout = node.layout.inside name →
      readAll children inner = readAll children' inner) (text text' : String) :
    readElement ⟨name, attributes, children, text⟩ node
      = readElement ⟨name, attributes, children', text'⟩ node := by
  cases hslot : node.shape.claimingSlot? name with
  | none =>
    have hclaim : Receiver.claim node name attributes = (false, node) := claim_of_none hslot
    rw [readElement_of_unclaimed hclaim hne, readElement_of_unclaimed hclaim hne']
    exact hinside node h (inside_layout_of_none hslot).symm
  | some found =>
    obtain ⟨i, content⟩ := found
    have hclaim : Receiver.claim node name attributes
        = (true, node.modifyCell i (openedCell content)) := claim_of_some hslot
    obtain ⟨shape, hshape⟩ := exists_openedShape?_of_claimingSlot hslot (node.layout.marker i)
    -- the child is fresh, so what it owns does not depend on what the record held before
    have hchild := h.child?_of_claimingSlot hslot hshape
    rw [readElement_of_claimed hclaim hne hchild, readElement_of_claimed hclaim hne' hchild,
      hinside (fresh shape) (isComplete_fresh shape) (inside_layout_of_some hslot hshape).symm]

/-- Edited fragments are read alike. -/
theorem readAll_edited (h : Edited layout a b) (trim : Bool) {node : Node} (hnode : node.IsComplete)
    (hlayout : node.layout = layout) :
    readAll (elementsOfAll trim a) node = readAll (elementsOfAll trim b) node := by
  induction h generalizing node with
  | refl => rfl
  | symm _ ih => exact (ih hnode hlayout).symm
  | trans _ _ ih ih' => exact (ih hnode hlayout).trans (ih' hnode hlayout)
  | @append _ a a' _ _ _ _ ih ih' =>
    rw [elementsOfAll_append, elementsOfAll_append, readAll_append, readAll_append,
      ih hnode hlayout]
    cases hread : readAll (elementsOfAll trim a') node with
    | ok _ mid =>
      -- what was read in front leaves the record complete and of the same layout
      have hevolves := evolves_readAll (elementsOfAll trim a') node
      rw [leave_of_eq_ok hread] at hevolves
      exact ih' (hnode.evolves hevolves) ((layout_eq_of_evolves hevolves).trans hlayout)
    | error error mid => rfl
  | inside hedited ih =>
    rcases hedited.eq_or_hasElement with rfl | ⟨ha, ha'⟩
    · rfl
    · -- the text behind the child elements may differ, but only leaves are asked for it
      simp only [elementsOfAll_singleton, elements, readAll_singleton]
      exact hnode.readElement_congr (elementsOfAll_ne_nil ha trim) (elementsOfAll_ne_nil ha' trim)
        (fun inner hinner hin => ih hinner (by rw [hin, hlayout])) _ _
  | attributes layout a stop hname =>
    simp only [elementsOfAll_singleton, elements, readAll_singleton, tagName, hname]
    rw [readElement_attributes]
  | emptyAttributes layout hname =>
    simp only [elementsOfAll_singleton, elements, readAll_singleton, tagName, hname]
    rw [readElement_attributes]
  | text layout hfilter ha =>
    rw [← elementsOfAll_filter, hfilter, elementsOfAll_filter]
  | wrap stop ha hclaims =>
    subst hlayout
    simp only [elementsOfAll_singleton, elements, readAll_singleton]
    rw [readElement_of_unclaimed (claim_of_none (claims_eq_false_iff.1 hclaims))
      (elementsOfAll_ne_nil ha trim)]

/-! ### Documents -/

/-- Decoding a document is reading the elements of its fragments. -/
lemma decode_of_spells {bytes : List UInt8} {events : List Event} {doc : List Fragment}
    (haccepted : Event.ofDocument trim bytes = .ok events) (hdoc : Spells bytes doc) (root : Node) :
    decode ⟨trim, none⟩ bytes root = readAll (elementsOfAll trim doc) root := by
  rw [← dispatch_node, ← eq_events_of_spells haccepted hdoc]
  simp only [decode, haccepted]

/-- An accepted document is made of fragments, and an accepted document whose fragments are edited
ones of these is decoded with the same outcome into the same record. -/
theorem decode_edited (root : Node) (hroot : root.IsComplete) (trim : Bool) (bytes : List UInt8)
    (events : List Event) (haccepted : Event.ofDocument trim bytes = .ok events) :
    (∃ doc, Spells bytes doc) ∧
    ∀ doc bytes' events' doc', Spells bytes doc → Event.ofDocument trim bytes' = .ok events' →
      Spells bytes' doc' → Edited root.layout doc doc' →
        decode ⟨trim, none⟩ bytes' root = decode ⟨trim, none⟩ bytes root := by
  refine ⟨exists_spells haccepted, ?_⟩
  intro doc bytes' events' doc' hdoc haccepted' hdoc' hedited
  rw [decode_of_spells haccepted hdoc, decode_of_spells haccepted' hdoc',
    readAll_edited hedited trim hroot rfl]

/-- A virtual switch with a name, whose tags have a marker of their own. -/
def sampleMarked : Node :=
  ⟨.entity .virtualSwitch, [.value none, .value (some (.text "n")), .value none,
    .records [emptyCollector "tag" .tag]], ∅⟩

/-- The fragments of a list of one tag. -/
def sampleItem : Fragment :=
  .element (Ascii.bytes "tag")
    [.element (Ascii.bytes "key") [.piece (.text (Ascii.bytes "k")) rfl] (Ascii.bytes "key")]
    (Ascii.bytes "tag")

/-- The fragments of a virtual switch with something inside the list of its tags, between other
fragments. -/
def sampleSwitchOf (start : String) (before inside after : List Fragment) : Fragment :=
  .element (Ascii.bytes start)
    (before ++ [.element (Ascii.bytes "tagSet") inside (Ascii.bytes "tagSet")] ++ after)
    (Ascii.bytes "v")

/-- The fragments of a list of one tag, wrapped in what is no member of this list. -/
def sampleWrapped : Fragment := .element (Ascii.bytes "item") [sampleItem] (Ascii.bytes "item")

/-- A switch with attributes, stray text beside its list of tags and a wrapper inside that list. -/
def sampleEditedSwitch : Fragment :=
  sampleSwitchOf "v a=\"1\"" [.piece (.text (Ascii.bytes "x")) rfl] [sampleWrapped]
    [.piece (.text (Ascii.bytes "z")) rfl]

/-- The edited switch is made by three edits inside a wrapper around the root element. -/
lemma sample_edited : Edited sampleMarked.layout [sampleSwitchOf "v" [] [sampleItem] []]
    [.element (Ascii.bytes "w") [sampleEditedSwitch] (Ascii.bytes "w")] := by
  have hinner : sampleMarked.layout.inside (tagName (Ascii.bytes "tagSet"))
      = (fresh (.collector "tag" .tag)).layout := by decide +kernel
  have hsame : sampleMarked.layout.inside (tagName (Ascii.bytes "v")) = sampleMarked.layout := by
    decide +kernel
  have hwrapped : Edited (fresh (.collector "tag" .tag)).layout [sampleItem] [sampleWrapped] :=
    .wrap _ rfl (by decide +kernel)
  have hlist : Edited sampleMarked.layout
      [.element (Ascii.bytes "tagSet") [sampleItem] (Ascii.bytes "tagSet")]
      [.element (Ascii.bytes "tagSet") [sampleWrapped] (Ascii.bytes "tagSet")] :=
    .inside (hinner ▸ hwrapped)
  have hinside : Edited sampleMarked.layout [sampleSwitchOf "v" [] [sampleItem] []]
      [sampleSwitchOf "v" [.piece (.text (Ascii.bytes "x")) rfl] [sampleWrapped]
        [.piece (.text (Ascii.bytes "z")) rfl]] :=
    .inside (hsame.symm ▸ hlist.trans (.text _ rfl rfl))
  have hattributes : Edited sampleMarked.layout
      [sampleSwitchOf "v" [.piece (.text (Ascii.bytes "x")) rfl] [sampleWrapped]
        [.piece (.text (Ascii.bytes "z")) rfl]] [sampleEditedSwitch] := .attributes _ _ _ rfl
  exact (hinside.trans hattributes).trans (.wrap _ rfl (by decide +kernel))

/-- The document of a switch with one tag. -/
def samplePlain : List UInt8 := Ascii.bytes "<v><tagSet><tag><key>k</key></tag></tagSet></v>"

/-- The document of the edited switch, wrapped. -/
def sampleEdited : List UInt8 :=
  Ascii.bytes "<w><v a=\"1\">x<tagSet><item><tag><key>k</key></tag></item></tagSet>z</v></w>"

theorem decode_edited_sample :
    sampleMarked.IsComplete ∧ ∃ events events',
      Event.ofDocument true samplePlain = .ok events ∧
      Event.ofDocument true sampleEdited = .ok events' ∧
      decode ⟨true, none⟩ sampleEdited sampleMarked
        = decode ⟨true, none⟩ samplePlain sampleMarked := by
  have hdoc : Spells samplePlain [sampleSwitchOf "v" [] [sampleItem] []] :=
    .cons rfl (.cons rfl (.cons rfl (.cons rfl (.cons rfl (.cons rfl (.cons rfl (.cons rfl
      (.cons rfl .nil))))))))
  have hdoc' : Spells sampleEdited
      [.element (Ascii.bytes "w") [sampleEditedSwitch] (Ascii.bytes "w")] :=
    .cons rfl (.cons rfl (.cons rfl (.cons rfl (.cons rfl (.cons rfl (.cons rfl (.cons rfl
      (.cons rfl (.cons rfl (.cons rfl (.cons rfl (.cons rfl (.cons rfl (.cons rfl
        .nil))))))))))))))
  obtain ⟨events, haccepted⟩ : ∃ events, Event.ofDocument true samplePlain = .ok events :=
    ⟨_, by cbv⟩
  obtain ⟨events', haccepted'⟩ : ∃ events', Event.ofDocument true sampleEdited = .ok events' :=
    ⟨_, by cbv⟩
  exact ⟨rfl, events, events', haccepted, haccepted',
    (decode_edited sampleMarked rfl true _ events haccepted).2 _ _ events' _ hdoc haccepted' hdoc'
      sample_edited⟩

end Node

end CloudCodec.Response
