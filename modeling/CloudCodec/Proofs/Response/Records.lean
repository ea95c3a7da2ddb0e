/-
# The records inside a record

What fills a record of a shape is told of the record by itself, with the records inside it decoded
from what the elements hold that they come from.  So the same can be told of these, and of those
inside them (`Records`), down to the records of elements that hold nothing: the elements get
smaller, and a list without a wrapper has no members.

This is how the record of a whole document is described (`records_of_decode`).
-/
import CloudCodec.Proofs.Response.Contents

namespace CloudCodec.Response

open Decode Xml Node

/-- The record is what a forest says, and so is every record inside it.  The leaves and the claimed
elements in scope fill it (`fills`); the records in a slot are what the forests say that the slot is
decoded from (`below`); and a list is without members if no element in scope wraps it, which is so
for every list whose slot has no name (`withoutWrapper`). -/
inductive Records : List Element → Node → Prop
  | intro {forest : List Element} {node : Node}
      (fills : Fills node.shape (leaves node.shape.claims forest)
        (claimed node.shape.claims forest) node)
      (below : ∀ {i : Nat} {slot : Slot} {nodes : List Node}, node.shape.slots[i]? = some slot →
        node.cells[i]? = some (.records nodes) →
        List.Forall₂ Records
          (slot.content.forests (named slot.names (claimed node.shape.claims forest)))
          nodes.reverse)
      (withoutWrapper : ∀ {i : Nat} {slot : Slot} {entity : Entity},
        node.shape.slots[i]? = some slot → slot.content = .list entity →
        named slot.names (claimed node.shape.claims forest) = [] →
        node.cells[i]? = some (.records [emptyCollector itemMarker entity])) :
      Records forest node

/-! ### Forests -/

variable {shape : Shape} {forest : List Element} {node : Node}

/-- What fills a slot is what an element in scope holds, or nothing where a list has no wrapper. -/
lemma of_mem_forests {content : Content} {es : List Element} (h : forest ∈ content.forests es) :
    (∃ e ∈ es, forest = e.children) ∨ forest = [] ∧ ∃ entity, content = .list entity := by
  cases content with
  | leaf kind => cases h
  | flag => cases h
  | optional entity =>
    obtain ⟨e, he, rfl⟩ := Option.map_eq_some_iff.1 (Option.mem_toList.1 h)
    exact Or.inl ⟨e, List.mem_of_getLast? he, rfl⟩
  | list entity =>
    obtain rfl := List.mem_singleton.1 h
    cases hlast : es.getLast? with
    | none => exact Or.inr ⟨rfl, entity, rfl⟩
    | some e => exact Or.inl ⟨e, List.mem_of_getLast? hlast, rfl⟩
  | members entity =>
    obtain ⟨e, he, rfl⟩ := List.mem_map.1 h
    exact Or.inl ⟨e, he, rfl⟩

/-- A record is what its forest says as soon as the records inside it are. -/
lemma records_of_below (hread : readAll forest (fresh shape) = .ok () node)
    (hbelow : ∀ {slot : Slot} {shape' : Shape} {forest' : List Element} {child : Node},
      slot.content.shape? = some shape' → slot ∈ shape.slots →
      forest' ∈ slot.content.forests (named slot.names (claimed shape.claims forest)) →
      dispatch none (Element.eventsOfAll forest') (fresh shape') = .ok () child →
      Records forest' child) :
    Records forest node := by
  have hfills := fills_of_readAll hread
  obtain rfl := hfills.shape_eq
  refine .intro hfills ?_ ?_
  · intro i slot nodes hslot hcell
    cases hshape : slot.content.shape? with
    | none =>
      obtain ⟨kind, hkind⟩ := shape?_eq_none_iff.1 hshape
      obtain ⟨value?, hvalue⟩ := exists_value_of_holdsLast hkind (hfills.value hslot hkind)
      cases hcell.symm.trans hvalue
    | some shape' =>
      obtain ⟨nodes', hcell', hnodes⟩ := hfills.records hslot hshape
      cases hcell.symm.trans hcell'
      have hboth := (List.forall₂_and_left _ _).2 ⟨fun _ hmem => hmem, hnodes⟩
      refine hboth.imp ?_
      rintro forest' child ⟨hforest', hchild⟩
      exact hbelow hshape (List.mem_of_getElem? hslot) hforest' hchild
  · intro i slot entity hslot hcontent hnone
    have hshape : slot.content.shape? = some (.collector itemMarker entity) := by
      rw [hcontent, Content.shape?, Content.openedShape?]
    obtain ⟨nodes, hcell, hnodes⟩ := hfills.records hslot hshape
    rw [hnone, hcontent] at hnodes
    obtain ⟨child, rest, hchild, hrest, hreverse⟩ := List.forall₂_cons_left_iff.1 hnodes
    cases hchild
    obtain rfl := List.forall₂_nil_left_iff.1 hrest
    rw [hcell, List.reverse_eq_iff.1 hreverse]
    rfl

/-- The list of nothing. -/
lemma records_nil_collector (entity : Entity) :
    Records [] (fresh (.collector itemMarker entity)) := by
  have hread : readAll [] (fresh (.collector itemMarker entity))
      = .ok () (fresh (.collector itemMarker entity)) := rfl
  refine records_of_below hread ?_
  intro slot shape' forest' child _ hslot hforest' _
  obtain rfl := List.mem_singleton.1 hslot
  cases hforest'

/-- A record that is read from a forest is what the forest says, and so are the records inside. -/
theorem records_of_readAll {shape : Shape} {forest : List Element} {node : Node}
    (hread : readAll forest (fresh shape) = .ok () node) : Records forest node := by
  refine records_of_below hread ?_
  intro slot shape' forest' child hshape' _ hforest' hchild
  -- what an element holds is smaller than the forest; a list without a wrapper is not, but it holds
  -- nothing more
  rcases of_mem_forests hforest' with ⟨e, he, rfl⟩ | ⟨rfl, entity, hcontent⟩
  · have hscope : e ∈ scopeAll shape.claims forest :=
      (List.mem_filter.1 (List.mem_filter.1 he).1).1
    have hlt := sizeOf_children_of_mem_scopeAll hscope
    rw [dispatch_node] at hchild
    exact records_of_readAll hchild
  · rw [hcontent] at hshape'
    cases hshape'
    cases hchild
    exact records_nil_collector entity
termination_by sizeOf forest

/-! ### Documents -/

/-- A document with a field inside an unknown element, a wrapper that repeats, a leaf that fills no
slot and a leaf that looks like a list member. -/
def sampleText : String :=
  "<r><x><switchName>a</switchName><item>b</item></x><tagSet><item><key>j</key></item></tagSet>"
    ++ "<tagSet><item/><item><value>v</value><key>k</key></item></tagSet><note>1</note></r>"

/-- What is decoded from it. -/
def sampleRecord : Node :=
  ⟨.entity .virtualSwitch,
    [.value none, .value (some (.text "a")), .value none,
      .records [collectorOf itemMarker .tag [tag none none, tag (some "k") (some "v")]]],
    .ofList [("note", "1")]⟩

end CloudCodec.Response
