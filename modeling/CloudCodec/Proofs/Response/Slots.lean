/-
# The slots of a shape

An element or a leaf belongs to one slot of its record at most: two slots of a shape that are both
filled by elements, or both by leaves, have no name in common (`pairwise_apart`).  So the slot that
is found for a name is the one that has the name, wherever it stands in the shape.
-/
import CloudCodec.Response.Shape
import Mathlib.Tactic.Lemma

namespace CloudCodec.Response

open Decode (Kind)

/-- Two slots that are filled alike have no name in common. -/
def Slot.Apart (s t : Slot) : Prop :=
  s.content.isClaiming = t.content.isClaiming → ∀ name ∈ s.names, name ∉ t.names

instance : DecidableRel Slot.Apart := fun s t =>
  inferInstanceAs (Decidable (s.content.isClaiming = t.content.isClaiming →
    ∀ name ∈ s.names, name ∉ t.names))

/-- Of places that are apart, the one that satisfies a condition is the first to do so. -/
lemma findIdx?_eq_some_of_pairwise {α : Type} {R : α → α → Prop} {p : α → Bool} {l : List α}
    {i : Nat} {a : α} (hl : l.Pairwise R) (hR : ∀ {a b}, R a b → p a = true → p b = false)
    (hi : l[i]? = some a) (ha : p a = true) : l.findIdx? p = some i := by
  obtain ⟨hlt, rfl⟩ := List.getElem?_eq_some_iff.1 hi
  rw [List.findIdx?_eq_some_iff_getElem]
  refine ⟨hlt, ha, ?_⟩
  intro j hj hpj
  rw [hR (List.pairwise_iff_getElem.1 hl j i (Nat.lt_trans hj hlt) hlt hj) hpj] at ha
  cases ha

namespace Shape

variable {shape : Shape} {name : String} {i : Nat} {content : Content} {kind : Kind} {slot : Slot}

/-- The slots of a shape are apart. -/
theorem pairwise_apart (shape : Shape) : shape.slots.Pairwise Slot.Apart := by
  cases shape with
  | entity entity => cases entity <;> decide
  | collector marker entity => exact List.pairwise_singleton _ _
  | page marker entity =>
    -- only the slot of the members claims elements, so any name may be their marker
    refine List.pairwise_cons.2 ⟨?_, by decide⟩
    intro slot hslot hclaiming
    simp only [List.mem_cons, List.not_mem_nil, or_false] at hslot
    rcases hslot with rfl | rfl | rfl <;> cases hclaiming
  | status => decide
  | generic => decide

/-- Among slots that are filled alike, the one that has a name is the first one to have it. -/
lemma findIdx?_of_mem {q : Slot → Bool}
    (hq : ∀ {s t : Slot}, q s = true → q t = true → s.content.isClaiming = t.content.isClaiming)
    (hslot : shape.slots[i]? = some slot) (hqslot : q slot = true) (hname : name ∈ slot.names) :
    (shape.slots.findIdx? fun slot => q slot && slot.names.contains name) = some i := by
  refine findIdx?_eq_some_of_pairwise shape.pairwise_apart ?_ hslot ?_
  · intro s t hst hs
    obtain ⟨hqs, hs⟩ := Bool.and_eq_true_iff.1 hs
    rw [Bool.eq_false_iff]
    intro ht
    obtain ⟨hqt, ht⟩ := Bool.and_eq_true_iff.1 ht
    exact hst (hq hqs hqt) name (List.contains_iff_mem.1 hs) (List.contains_iff_mem.1 ht)
  · rw [hqslot, Bool.true_and]
    exact List.contains_iff_mem.2 hname

/-! ### Slots that elements fill -/

lemma claimingSlot?_of_mem (hslot : shape.slots[i]? = some slot)
    (hclaiming : slot.content.isClaiming = true) (hname : name ∈ slot.names) :
    shape.claimingSlot? name = some (i, slot.content) := by
  have hfind := findIdx?_of_mem (fun hs ht => hs.trans ht.symm) hslot hclaiming hname
  simp only [claimingSlot?]
  rw [hfind, Option.bind_some, hslot, Option.map_some]

/-- The slot that claims a name is the one that elements of this name fill. -/
theorem claimingSlot?_eq_some_iff : shape.claimingSlot? name = some (i, content) ↔
    ∃ slot, shape.slots[i]? = some slot ∧ slot.content = content ∧
      content.isClaiming = true ∧ name ∈ slot.names := by
  constructor
  · intro h
    obtain ⟨j, hfind, hj⟩ := Option.bind_eq_some_iff.1 h
    obtain ⟨slot, hslot, heq⟩ := Option.map_eq_some_iff.1 hj
    cases heq
    obtain ⟨hlt, hp, -⟩ := List.findIdx?_eq_some_iff_getElem.1 hfind
    obtain ⟨_, rfl⟩ := List.getElem?_eq_some_iff.1 hslot
    simp only [Bool.and_eq_true, List.contains_iff_mem] at hp
    exact ⟨_, hslot, rfl, hp.1, hp.2⟩
  · rintro ⟨slot, hslot, rfl, hclaiming, hname⟩
    exact claimingSlot?_of_mem hslot hclaiming hname

/-! ### Slots that leaves fill -/

lemma isClaiming_eq_false_iff :
    content.isClaiming = false ↔ ∃ kind, content.leafKind? = some kind := by
  rw [Content.isClaiming, Option.isNone_eq_false_iff, Option.isSome_iff_exists]

lemma leafSlot?_of_mem (hslot : shape.slots[i]? = some slot)
    (hkind : slot.content.leafKind? = some kind) (hname : name ∈ slot.names) :
    shape.leafSlot? name = some (i, kind) := by
  have hclaiming : slot.content.isClaiming = false := isClaiming_eq_false_iff.2 ⟨kind, hkind⟩
  have hfind := findIdx?_of_mem (q := fun slot => !slot.content.isClaiming)
    (fun hs ht => by simp_all) hslot (by simp [hclaiming]) hname
  simp only [leafSlot?]
  rw [hfind, Option.bind_some, hslot, Option.bind_some, hkind, Option.map_some]

/-- The slot of a leaf is the one that leaves of its name fill. -/
theorem leafSlot?_eq_some_iff : shape.leafSlot? name = some (i, kind) ↔
    ∃ slot, shape.slots[i]? = some slot ∧ slot.content.leafKind? = some kind ∧
      name ∈ slot.names := by
  constructor
  · intro h
    obtain ⟨j, hfind, hj⟩ := Option.bind_eq_some_iff.1 h
    obtain ⟨slot, hslot, hkind⟩ := Option.bind_eq_some_iff.1 hj
    obtain ⟨kind', hkind', heq⟩ := Option.map_eq_some_iff.1 hkind
    cases heq
    obtain ⟨hlt, hp, -⟩ := List.findIdx?_eq_some_iff_getElem.1 hfind
    obtain ⟨_, rfl⟩ := List.getElem?_eq_some_iff.1 hslot
    simp only [Bool.and_eq_true, List.contains_iff_mem] at hp
    exact ⟨_, hslot, hkind', hp.2⟩
  · rintro ⟨slot, hslot, hkind, hname⟩
    exact leafSlot?_of_mem hslot hkind hname

end Shape

end CloudCodec.Response
