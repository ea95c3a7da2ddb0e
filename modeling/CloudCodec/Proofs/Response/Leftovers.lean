/-
# Leaves that fill no slot

A record keeps the leaves that fill no slot by name.  Each of them was offered to the record because
the record did not claim an element of its name, and was kept because no slot takes such leaves.  So
the kept names are never those of a slot, neither of one that leaves fill nor of one that claims
elements, and never the marker of lists, in any record that documents are decoded into
(`unknown_apart`).
-/
import CloudCodec.Proofs.Response.Inclusion

namespace CloudCodec.Response

open Decode Xml

namespace Shape

/-- A name that belongs to no leaf and is not claimed is that of no slot. -/
lemma notMem_names {shape : Shape} {name : String} (hleaf : shape.leafSlot? name = none)
    (hclaiming : shape.claimingSlot? name = none) : ∀ slot ∈ shape.slots, name ∉ slot.names := by
  intro slot hslot hname
  obtain ⟨i, hi⟩ := List.getElem?_of_mem hslot
  cases hkind : slot.content.leafKind? with
  | some kind =>
    rw [leafSlot?_of_mem hi hkind hname] at hleaf
    cases hleaf
  | none =>
    have hslotClaims : slot.content.isClaiming = true := by simp [Content.isClaiming, hkind]
    rw [claimingSlot?_of_mem hi hslotClaims hname] at hclaiming
    cases hclaiming

end Shape

namespace Node

variable {shape : Shape} {root node : Node} {name text : String}

/-- The leaves that a record keeps by name have neither the name of a slot nor that of the members
of lists. -/
def KeepsApart (node : Node) : Prop :=
  ∀ name, node.unknown.contains name = true →
    name ≠ itemMarker ∧ ∀ slot ∈ node.shape.slots, name ∉ slot.names

/-- What is kept depends on the shape and the kept leaves only. -/
lemma KeepsApart.congr {node' : Node} (h : node.KeepsApart) (hshape : node'.shape = node.shape)
    (hunknown : node'.unknown = node.unknown) : node'.KeepsApart := by
  rw [KeepsApart, hshape, hunknown]
  exact h

/-- One more leaf of a name that fits. -/
lemma KeepsApart.takeUnknown (h : node.KeepsApart)
    (hname : ∀ slot ∈ node.shape.slots, name ∉ slot.names) (text : String) :
    (node.takeUnknown name text).KeepsApart := by
  rw [Node.takeUnknown]
  cases node.shape.leftovers with
  | dropped => exact h
  | kept key isOmitted =>
    by_cases hmarker : name = itemMarker
    · exact h.congr rfl (by simp [recordUnknown, hmarker])
    · intro name' hname'
      have hinsert : (node.unknown.insert name text).contains name' = true := by
        simpa [recordUnknown, hmarker] using hname'
      obtain ⟨text', htext'⟩ := TextMap.contains_iff.1 hinsert
      rw [TextMap.get?_insert] at htext'
      split_ifs at htext' with heq
      · rw [heq]
        exact ⟨hmarker, hname⟩
      · exact h name' (TextMap.contains_iff.2 ⟨text', htext'⟩)

theorem persists_keepsApart : Persists KeepsApart := by
  constructor
  · intro shape name hname
    cases hname
  · intro node name attributes h
    cases hslot : node.shape.claimingSlot? name with
    | none =>
      rwa [claim_of_none hslot]
    | some slot =>
      rw [claim_of_some hslot]
      exact h.congr rfl rfl
  · intro node node' name text h hdeclines htake
    obtain ⟨hslot, rfl⟩ | ⟨i, kind, value, -, -, rfl⟩ := of_takeLeaf_eq_ok htake
    · exact h.takeUnknown (Shape.notMem_names hslot (declines_iff.1 hdeclines)) text
    · exact h.congr rfl rfl
  · intro node child child' name h hchild _
    obtain ⟨i, content, older, hslot, -⟩ := child?_eq_some_iff.1 hchild
    rw [withChild_of_some hslot]
    exact h.congr rfl rfl

/-- In every record that documents were decoded into, and in all records inside it, a leaf that is
kept by name is not a marker of list members, has the name of no slot of its record, and is of a
name that the record does not claim. -/
theorem unknown_apart (hroot : Reached shape root) (hnode : root.Includes node)
    (hname : node.unknown.contains name = true) :
    name ≠ itemMarker ∧ (∀ slot ∈ node.shape.slots, name ∉ slot.names) ∧ Declines node name := by
  obtain ⟨hmarker, hslots⟩ := persists_keepsApart.all_of_reached hroot node hnode name hname
  refine ⟨hmarker, hslots, ?_⟩
  rw [declines_iff, Option.eq_none_iff_forall_ne_some]
  rintro ⟨i, content⟩ hslot
  obtain ⟨slot, hi, -, -, hmem⟩ := Shape.claimingSlot?_eq_some_iff.1 hslot
  exact hslots slot (List.mem_of_getElem? hi) hmem

/-- A tag with a leaf that tags do not have. -/
def sampleTag : Node :=
  ⟨.entity .tag, [.value (some (.text "k")), .value none], TextMap.ofList [("tagSet", "")]⟩

/-- What a listing keeps of two documents, of which the first one fails at a flag and the second one
at its nesting. -/
def sampleKept : Node :=
  ⟨.page itemMarker .virtualSwitch,
    [.records
      [⟨.entity .virtualSwitch, [.value none, .value none, .value none,
        .records [collectorOf itemMarker .tag [sampleTag]]], ∅⟩,
      ⟨.entity .virtualSwitch, [.value none, .value none, .value none,
        .records [collectorOf itemMarker .tag []]], TextMap.ofList [("key", "j")]⟩],
      .value none, .value none, .value none], ∅⟩

theorem unknown_apart_sample :
    Reached (.page itemMarker .virtualSwitch) sampleKept ∧ sampleKept.Includes sampleTag ∧
    sampleTag.unknown.contains "tagSet" = true ∧
    ("tagSet" ≠ itemMarker ∧ (∀ slot ∈ sampleTag.shape.slots, "tagSet" ∉ slot.names) ∧
      Declines sampleTag "tagSet") := by
  have hreached : Reached (.page itemMarker .virtualSwitch) sampleKept := by
    have hdecodes : leave (decode ⟨true, some 5⟩ (Utf8.encode
        "<r><item><tagSet><item><tagSet/><key>k</key><a><b/></a></item></tagSet></item></r>"))
        (leave (decode ⟨true, none⟩ (Utf8.encode
          "<r><item><item/><key>j</key><tagSet/><return>x</return></item></r>"))
          (fresh (.page itemMarker .virtualSwitch))) = sampleKept := by cbv
    rw [← hdecodes]
    exact .decode _ _ (.decode _ _ .fresh)
  have htags : (collectorOf itemMarker .tag [sampleTag]).Includes sampleTag :=
    .inside List.mem_cons_self List.mem_cons_self (.self _)
  have hincludes : sampleKept.Includes sampleTag := by
    -- the tags are in the fourth cell of the first switch
    refine .inside List.mem_cons_self List.mem_cons_self (.inside (List.mem_cons_of_mem _
      (List.mem_cons_of_mem _ (List.mem_cons_of_mem _ List.mem_cons_self))) ?_ htags)
    exact List.mem_singleton_self _
  have hname : sampleTag.unknown.contains "tagSet" = true := by decide
  exact ⟨hreached, hincludes, hname, unknown_apart hreached hincludes hname⟩

end Node

end CloudCodec.Response
