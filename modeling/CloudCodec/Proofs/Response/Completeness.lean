/-
# Complete records

A record has a cell for every slot of its shape, and whatever is decoded into it, it keeps them all
(`IsComplete`).  This is all that it takes to be found again: an element that a complete record
claims puts a fresh record into a cell that is there, and a fresh record is complete itself.  So no
decoding of a record loses a child, whatever was decoded into the record before
(`decode_attached`), and a limit on the nesting changes nothing but where the decoding stops
(`decode_limited`).
-/
import CloudCodec.Proofs.Decode.Attachment
import CloudCodec.Proofs.Response.Contents

namespace CloudCodec.Response

open Decode Xml

namespace Node

/-- There is a cell for every slot. -/
def IsComplete (node : Node) : Prop := node.cells.length = node.shape.slots.length

variable {node node' child root : Node} {name : String} {attributes : Attributes} {i : Nat}

lemma isComplete_fresh (shape : Shape) : (fresh shape).IsComplete := List.length_map ..

lemma IsComplete.modifyCell (h : node.IsComplete) (i : Nat) (f : Cell Node → Cell Node) :
    (node.modifyCell i f).IsComplete := by
  rw [IsComplete, length_cells_modifyCell]
  exact h

lemma eq_of_parts (hshape : node.shape = node'.shape) (hcells : node.cells = node'.cells)
    (hunknown : node.unknown = node'.unknown) : node = node' := by
  rcases node with ⟨shape, cells, unknown⟩
  rcases node' with ⟨shape', cells', unknown'⟩
  exact (Node.mk.injEq ..).mpr ⟨hshape, hcells, hunknown⟩

/-- Two complete records of a shape agree if what is in each of their slots does, and what they keep
by name. -/
lemma IsComplete.eq_of_cells (h : node.IsComplete) (h' : node'.IsComplete)
    (hshape : node.shape = node'.shape)
    (hcells : ∀ {i : Nat} {slot : Slot}, node.shape.slots[i]? = some slot →
      node.cells[i]? = node'.cells[i]?)
    (hunknown : node.unknown = node'.unknown) : node = node' := by
  refine eq_of_parts hshape (List.ext_getElem? fun i => ?_) hunknown
  cases hslot : node.shape.slots[i]? with
  | some slot => exact hcells hslot
  | none =>
    have hle : node.shape.slots.length ≤ i := List.getElem?_eq_none_iff.1 hslot
    rw [List.getElem?_eq_none (Eq.trans_le h hle),
      List.getElem?_eq_none (Eq.trans_le h' (hshape ▸ hle))]

/-- What a record does when an element opens. -/
lemma IsComplete.claim (h : node.IsComplete) (name : String) (attributes : Attributes) :
    (Receiver.claim node name attributes).2.IsComplete := by
  cases hslot : node.shape.claimingSlot? name with
  | none =>
    rw [claim_of_none hslot]
    exact h
  | some slot =>
    rw [claim_of_some hslot]
    exact h.modifyCell _ _

/-- A complete record stays complete, whatever becomes of it. -/
theorem IsComplete.evolves (h : node.IsComplete) (h' : Evolves node node') : node'.IsComplete := by
  induction h' with
  | refl => exact h
  | opening name attributes _ ih => exact (ih h).claim name attributes
  | @leaf r s name text _ ih =>
    have hs : s.IsComplete := ih h
    rw [leave]
    cases hslot : s.shape.leafSlot? name with
    | none =>
      rw [takeLeaf_of_none hslot]
      simpa [IsComplete] using hs
    | some slot =>
      obtain ⟨i, kind⟩ := slot
      cases hread : kind.read name text with
      | ok value =>
        rw [takeLeaf_of_ok hslot hread]
        exact hs.modifyCell _ _
      | error e =>
        rw [takeLeaf_of_error hslot hread]
        exact hs
  | @inside r s s' c c' name attributes _ hclaim _ _ ih _ =>
    have hs' : s'.IsComplete := by
      have hopened := (ih h).claim name attributes
      rwa [hclaim] at hopened
    cases hslot : s'.shape.claimingSlot? name with
    | none => simpa [Receiver.withChild, hslot] using hs'
    | some slot =>
      rw [withChild_of_some hslot]
      exact hs'.modifyCell _ _

lemma IsComplete.exists_cell_of_slot {slot : Slot} (h : node.IsComplete)
    (hslot : node.shape.slots[i]? = some slot) : ∃ cell, node.cells[i]? = some cell := by
  have hlt : i < node.cells.length := by
    rw [h]
    exact (List.getElem?_eq_some_iff.1 hslot).1
  exact ⟨_, List.getElem?_eq_getElem hlt⟩

/-- A complete record has a cell for every slot that claims elements. -/
lemma IsComplete.exists_cell {content : Content} (h : node.IsComplete)
    (hslot : node.shape.claimingSlot? name = some (i, content)) :
    ∃ cell, node.cells[i]? = some cell := by
  obtain ⟨slot, hi, -⟩ := Shape.claimingSlot?_eq_some_iff.1 hslot
  exact h.exists_cell_of_slot hi

/-- What a complete record keeps for an element that it claims is a fresh record of the shape that
the slot says, given the marker of the list that was there. -/
lemma IsComplete.child?_of_claimingSlot {content : Content} {shape : Shape} (h : node.IsComplete)
    (hslot : node.shape.claimingSlot? name = some (i, content))
    (hshape : content.openedShape? (node.layout.marker i) = some shape) :
    Receiver.child? (node.modifyCell i (openedCell content)) name = some (fresh shape) := by
  obtain ⟨slot, hi, rfl, -⟩ := Shape.claimingSlot?_eq_some_iff.1 hslot
  obtain ⟨cell, hcell⟩ := h.exists_cell hslot
  rw [openedShape?_layout hi hcell] at hshape
  obtain ⟨older, holder⟩ := exists_openedCell_eq hshape
  refine child?_eq_some_iff.2 ⟨i, slot.content, older, hslot, ?_⟩
  rw [cells_modifyCell_self hcell, holder]

/-- The child of an element that a complete record claims is fresh. -/
lemma IsComplete.child?_of_claim (h : node.IsComplete)
    (hclaim : Receiver.claim node name attributes = (true, node')) :
    ∃ shape, Receiver.child? node' name = some (fresh shape) := by
  cases hslot : node.shape.claimingSlot? name with
  | none =>
    rw [claim_of_none hslot] at hclaim
    cases hclaim
  | some found =>
    obtain ⟨i, content⟩ := found
    rw [claim_of_some hslot] at hclaim
    cases hclaim
    obtain ⟨shape, hshape⟩ := exists_openedShape?_of_claimingSlot hslot (node.layout.marker i)
    exact ⟨shape, h.child?_of_claimingSlot hslot hshape⟩

/-- Every record that is met while a document is decoded into a complete one is complete. -/
lemma IsComplete.of_occurs (h : root.IsComplete) (hocc : Occurs root node) : node.IsComplete := by
  induction hocc with
  | root hr => exact h.evolves hr
  | child _ hclaim hchild hc ih =>
    obtain ⟨shape, hfresh⟩ := ih.child?_of_claim hclaim
    cases hfresh.symm.trans hchild
    exact (isComplete_fresh shape).evolves hc

/-- A complete record keeps the children of the elements that it claims. -/
theorem IsComplete.attaches (h : root.IsComplete) : Attaches root := by
  intro node node' name attributes hocc hclaim
  obtain ⟨shape, hchild⟩ := (h.of_occurs hocc).child?_of_claim hclaim
  exact ⟨fresh shape, keepsChild hchild⟩

/-- Decoding a document, whether it succeeds or fails, keeps the layout of a complete record. -/
lemma IsComplete.layout_decode (h : root.IsComplete) (settings : Settings) (bytes : List UInt8) :
    (leave (decode settings bytes) root).layout = root.layout :=
  layout_eq_of_evolves (evolves_decode spares h.attaches settings bytes)

/-! ### Children are found -/

/-- Decoding into a complete record never misses a child, and leaves the record complete, whether it
succeeds or fails.  Behind all events that are taken in, the claimed names lead from the record to
the children that were handed out. -/
theorem decode_attached (root : Node) (hroot : root.IsComplete) (settings : Settings)
    (bytes : List UInt8) :
    (∀ name root', decode settings bytes root ≠ .error (.detachedChild name) root') ∧
    (leave (decode settings bytes) root).IsComplete ∧
    ∀ before after d, Event.ofDocument settings.trim bytes = .ok (before ++ after) →
      Dispatch.run settings.maxDepth before (Dispatch.start root) = .ok () d →
      Dispatch.Leads settings.maxDepth root before d := by
  refine ⟨?_, ?_, ?_⟩
  · intro name root'
    exact decode_ne_detachedChild spares hroot.attaches
  · exact hroot.evolves (evolves_decode spares hroot.attaches settings bytes)
  · intro before after d hdocument hrun
    obtain ⟨e, he⟩ := exists_eq_events hdocument
    obtain ⟨path, hpath, -⟩ := exists_path he.symm
    exact Dispatch.leads_of_run hroot.attaches hpath hrun

/-- A listing that a failed decoding left behind, with a virtual switch that has a tag. -/
def sampleLeft : Node :=
  ⟨.page itemMarker .virtualSwitch,
    [.records [⟨.entity .virtualSwitch, [.value none, .value none, .value none,
      .records [collectorOf itemMarker .tag [tag (some "k") none]]], ∅⟩],
      .value none, .value none, .value none], ∅⟩

/-- Events up to the key of a tag of another switch, below an unknown element. -/
def sampleBefore : List Event :=
  [.opening "r" ∅, .opening "x" ∅, .opening "item" ∅, .opening "tagSet" ∅, .opening "item" ∅,
    .opening "key" ∅]

theorem decode_attached_sample :
    decode ⟨true, none⟩ (Utf8.encode
      "<r><item><tagSet><item><key>k</key></item></tagSet><return>x</return></item></r>")
      (fresh (.page itemMarker .virtualSwitch))
        = .error (.unexpectedValue "return" "x" .boolean) sampleLeft ∧
    sampleLeft.IsComplete ∧
    (∀ name root', decode ⟨true, none⟩ (Utf8.encode
      "<r><x><item><tagSet><item><key>j</key></item></tagSet></item></x></r>")
      sampleLeft ≠ .error (.detachedChild name) root') ∧
    ∃ root' frames, Dispatch.run none sampleBefore (Dispatch.start sampleLeft)
        = .ok () ⟨root', frames, ["item", "tagSet", "item"]⟩ ∧
      Dispatch.Leads none sampleLeft sampleBefore ⟨root', frames, ["item", "tagSet", "item"]⟩ := by
  have hfailed : decode ⟨true, none⟩ (Utf8.encode
      "<r><item><tagSet><item><key>k</key></item></tagSet><return>x</return></item></r>")
      (fresh (.page itemMarker .virtualSwitch))
      = .error (.unexpectedValue "return" "x" .boolean) sampleLeft := by cbv
  have hdocument : Event.ofDocument true (Utf8.encode
      "<r><x><item><tagSet><item><key>j</key></item></tagSet></item></x></r>")
      = .ok (sampleBefore ++ [.closing "key" "j", .closing "item" "", .closing "tagSet" "",
        .closing "item" "", .closing "x" "", .closing "r" ""]) := by cbv
  have hleft : sampleLeft.IsComplete := rfl
  obtain ⟨hne, -, hleads⟩ := decode_attached sampleLeft hleft ⟨true, none⟩ _
  obtain ⟨root', frames, hrun⟩ : ∃ root' frames,
      Dispatch.run none sampleBefore (Dispatch.start sampleLeft)
        = .ok () ⟨root', frames, ["item", "tagSet", "item"]⟩ := ⟨_, _, by cbv⟩
  exact ⟨hfailed, hleft, hne, root', frames, hrun, hleads _ _ _ hdocument hrun⟩

/-! ### Limits -/

/-- Under a limit of `n` an accepted document is decoded up to the first opening of an element at
depth `n + 1` as it is without a limit: an unexpected text before it is told first, then the
element is refused, and if there is no such element, nothing is.  So whatever succeeds under a
limit is the same under every larger one and without one. -/
theorem decode_limited (root : Node) (hroot : root.IsComplete) (trim : Bool) (bytes : List UInt8)
    (events : List Event) (hdocument : Event.ofDocument trim bytes = .ok events) (n : Nat) :
    (∃ before after, Cut n events before after) ∧
    (∀ before after, Cut n events before after →
      decode ⟨trim, some n⟩ bytes root
        = (do
          dispatch none before
          unless after.isEmpty do
            throw (.depthExceeded n) : EStateM Error Node Unit) root ∧
      ∀ e root', dispatch none before root = .error e root' →
        ∃ field text domain, e = .unexpectedValue field text domain) ∧
    ∀ root', decode ⟨trim, some n⟩ bytes root = .ok () root' →
      decode ⟨trim, none⟩ bytes root = .ok () root' ∧
      ∀ m, n ≤ m → decode ⟨trim, some m⟩ bytes root = .ok () root' := by
  obtain ⟨e, rfl⟩ := exists_eq_events hdocument
  have hdecode : ∀ maxDepth, decode ⟨trim, maxDepth⟩ bytes root
      = dispatch maxDepth e.events root := by
    intro maxDepth
    simp only [decode, hdocument]
  refine ⟨exists_cut n e, ?_, ?_⟩
  · intro before after hcut
    obtain ⟨path, hpath, -⟩ := exists_path hcut.eq_append
    refine ⟨?_, ?_⟩
    · rw [hdecode, dispatch_eq_of_cut hcut]
    · intro error root' h
      exact unexpectedValue_of_dispatch spares hroot.attaches hpath h
  · intro root' h
    rw [hdecode] at h
    obtain ⟨hnone, hsome⟩ := dispatch_eq_of_le h
    refine ⟨?_, ?_⟩
    · rw [hdecode, hnone]
    · intro m hm
      rw [hdecode, hsome m hm]

theorem decode_limited_sample :
    sampleSwitch.IsComplete ∧
    ∃ events, Event.ofDocument true (Utf8.encode "<v><a>m</a><tagSet><item/></tagSet></v>")
        = .ok events ∧
      (∃ before after, Cut 2 events before after ∧
        decode ⟨true, some 2⟩ (Utf8.encode "<v><a>m</a><tagSet><item/></tagSet></v>") sampleSwitch
          = (do
            dispatch none before
            unless after.isEmpty do
              throw (.depthExceeded 2) : EStateM Error Node Unit) sampleSwitch) ∧
      ∃ root', decode ⟨true, some 3⟩ (Utf8.encode "<v><a>m</a><tagSet><item/></tagSet></v>")
          sampleSwitch = .ok () root' ∧
        ∀ m, 3 ≤ m → decode ⟨true, some m⟩
          (Utf8.encode "<v><a>m</a><tagSet><item/></tagSet></v>") sampleSwitch = .ok () root' := by
  have hcomplete : sampleSwitch.IsComplete := rfl
  obtain ⟨events, hdocument⟩ : ∃ events, Event.ofDocument true
      (Utf8.encode "<v><a>m</a><tagSet><item/></tagSet></v>") = .ok events := ⟨_, by cbv⟩
  obtain ⟨root', hdecode⟩ : ∃ root', decode ⟨true, some 3⟩
      (Utf8.encode "<v><a>m</a><tagSet><item/></tagSet></v>") sampleSwitch = .ok () root' :=
    ⟨_, by cbv⟩
  obtain ⟨⟨before, after, hcut⟩, heq, -⟩ :=
    decode_limited sampleSwitch hcomplete true _ events hdocument 2
  obtain ⟨-, -, hsame⟩ := decode_limited sampleSwitch hcomplete true _ events hdocument 3
  exact ⟨hcomplete, events, hdocument, ⟨before, after, hcut, (heq before after hcut).1⟩, root',
    hdecode, (hsame root' hdecode).2⟩

end Node

end CloudCodec.Response
