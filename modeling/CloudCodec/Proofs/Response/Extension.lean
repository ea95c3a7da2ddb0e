/-
# Records that extend another one

The records of some entities are those of another entity with slots of their own in front
(`Extends`).  These own slots are filled by leaves of names that are nothing to the other entity, so
a leaf that fills one of them would be kept by name in a record without it.

Decode a document into the larger and into the smaller record side by side, and they stay in step
(`Embeds`): every element is claimed by both or by neither, behind a claimed element both have the
same child, and a leaf fills the same slot in both, is kept by both, or fills an own slot of the one
and is kept by the other (`Embeds.step`).  Only an own slot can refuse a leaf that the smaller
record takes.  So whatever is decoded into the larger record is decoded into the smaller one, and
the one record tells what the other is (`decode_extends`).
-/
import CloudCodec.Proofs.Response.Contents

namespace CloudCodec.Response

open Decode Xml Node

/-! ### Entities that extend another one -/

/-- The slots of an entity are some own slots and those of another entity. -/
inductive Extends : Entity → List Slot → Entity → Prop
  | snapshotImport : Extends .snapshotImport [.textAs "id" "importTaskId"] .diskImport
  | volumeOffering : Extends .volumeOffering [.text "type", .count "iops"] .service
  | instanceTypeOffering :
      Extends .instanceTypeOffering [.count "cpu", .size "memory", .decimal "ccus"] .service
  | hostOffering :
      Extends .hostOffering [.text "cpu_generation", .count "physical_cores", .count "sockets",
        .size "memory", .decimal "ccus", .count "commitment", .text "type"] .service

/-- The names of the elements that fill some slots. -/
def slotNames (slots : List Slot) : List String := slots.flatMap Slot.names

/-- What a slot of leaves holds, given the text that was kept under its name where there is no such
slot. -/
def Reads (kind : Kind) (name : String) (text? : Option String) (cell? : Option (Cell Node)) :
    Prop :=
  match text? with
  | none => cell? = some (.value none)
  | some text => ∃ value, kind.read name text = .ok value ∧ cell? = some (.value (some value))

variable {sub base : Entity} {own : List Slot} {slot : Slot} {name text : String} {i : Nat}
  {kind : Kind} {whole whole' alone : Node}

namespace Extends

lemma slots_eq (h : Extends sub own base) : sub.slots = own ++ base.slots := by
  cases h <;> rfl

/-- An own slot is filled by the leaves of one name, which does not mark the members of lists. -/
lemma exists_leaf (h : Extends sub own base) (hslot : slot ∈ own) :
    ∃ kind name, slot.content = .leaf kind ∧ slot.names = [name] ∧ name ≠ itemMarker := by
  revert slot
  cases h <;>
    simp [Slot.textAs, Slot.text, Slot.count, Slot.size, Slot.decimal, itemMarker]

lemma getElem?_own (h : Extends sub own base) (hslot : own[i]? = some slot) :
    (Shape.entity sub).slots[i]? = some slot := by
  obtain ⟨hlt, -⟩ := List.getElem?_eq_some_iff.1 hslot
  rw [Shape.slots, h.slots_eq, List.getElem?_append_left hlt, hslot]

lemma getElem?_base (h : Extends sub own base) (i : Nat) :
    (Shape.entity sub).slots[own.length + i]? = (Shape.entity base).slots[i]? := by
  rw [Shape.slots, Shape.slots, h.slots_eq, List.getElem?_append_right (Nat.le_add_right _ _),
    Nat.add_sub_cancel_left]

/-- A slot of the larger record is an own one or one of the smaller record. -/
lemma own_or_base (h : Extends sub own base) (hslot : (Shape.entity sub).slots[i]? = some slot) :
    own[i]? = some slot ∨ ∃ j, i = own.length + j ∧ (Shape.entity base).slots[j]? = some slot := by
  rcases Nat.lt_or_ge i own.length with hlt | hge
  · rw [Shape.slots, h.slots_eq, List.getElem?_append_left hlt] at hslot
    exact .inl hslot
  · obtain ⟨j, rfl⟩ := Nat.exists_eq_add_of_le hge
    exact .inr ⟨j, rfl, (h.getElem?_base j).symm.trans hslot⟩

/-- The larger record claims what the smaller one claims, for the same slot. -/
lemma claimingSlot?_eq (h : Extends sub own base) (name : String) :
    (Shape.entity sub).claimingSlot? name
      = ((Shape.entity base).claimingSlot? name).map fun s => (own.length + s.1, s.2) := by
  cases hbase : (Shape.entity base).claimingSlot? name with
  | some s =>
    obtain ⟨j, content⟩ := s
    obtain ⟨slot, hslot, rfl, hclaiming, hname⟩ := Shape.claimingSlot?_eq_some_iff.1 hbase
    exact Shape.claimingSlot?_of_mem ((h.getElem?_base j).trans hslot) hclaiming hname
  | none =>
    rw [Option.map_none, Option.eq_none_iff_forall_ne_some]
    rintro ⟨i, content⟩ hsub
    obtain ⟨slot, hslot, rfl, hclaiming, hname⟩ := Shape.claimingSlot?_eq_some_iff.1 hsub
    rcases h.own_or_base hslot with hown | ⟨j, -, hslot⟩
    · obtain ⟨kind, _, hleaf, -⟩ := h.exists_leaf (List.mem_of_getElem? hown)
      rw [hleaf] at hclaiming
      cases hclaiming
    · cases hbase.symm.trans (Shape.claimingSlot?_of_mem hslot hclaiming hname)

lemma leafSlot?_of_base {j : Nat} (h : Extends sub own base)
    (hbase : (Shape.entity base).leafSlot? name = some (j, kind)) :
    (Shape.entity sub).leafSlot? name = some (own.length + j, kind) := by
  obtain ⟨slot, hslot, hkind, hname⟩ := Shape.leafSlot?_eq_some_iff.1 hbase
  exact Shape.leafSlot?_of_mem ((h.getElem?_base j).trans hslot) hkind hname

lemma leafSlot?_of_own (h : Extends sub own base) (hslot : own[i]? = some slot)
    (hleaf : slot.content = .leaf kind) (hname : name ∈ slot.names) :
    (Shape.entity sub).leafSlot? name = some (i, kind) :=
  Shape.leafSlot?_of_mem (h.getElem?_own hslot) (by rw [hleaf]; rfl) hname

/-- A leaf that fills an own slot fills no other one. -/
lemma leafSlot?_base_of_own (h : Extends sub own base) (hname : name ∈ slotNames own) :
    (Shape.entity base).leafSlot? name = none := by
  obtain ⟨slot, hslot, hname⟩ := List.mem_flatMap.1 hname
  obtain ⟨kind, _, hleaf, -⟩ := h.exists_leaf hslot
  obtain ⟨i, hi⟩ := List.mem_iff_getElem?.1 hslot
  rw [Option.eq_none_iff_forall_ne_some]
  rintro ⟨j, kind'⟩ hbase
  cases (h.leafSlot?_of_own hi hleaf hname).symm.trans (h.leafSlot?_of_base hbase)
  exact absurd (List.getElem?_eq_some_iff.1 hi).1 (by omega)

/-- A leaf that is neither for an own slot nor for another one is for none. -/
lemma leafSlot?_eq_none (h : Extends sub own base) (hname : name ∉ slotNames own)
    (hbase : (Shape.entity base).leafSlot? name = none) :
    (Shape.entity sub).leafSlot? name = none := by
  rw [Option.eq_none_iff_forall_ne_some]
  rintro ⟨i, kind⟩ hsub
  obtain ⟨slot, hslot, hkind, hmem⟩ := Shape.leafSlot?_eq_some_iff.1 hsub
  rcases h.own_or_base hslot with hown | ⟨j, -, hslot⟩
  · exact hname (List.mem_flatMap.2 ⟨slot, List.mem_of_getElem? hown, hmem⟩)
  · cases hbase.symm.trans (Shape.leafSlot?_of_mem hslot hkind hmem)

lemma ne_itemMarker (h : Extends sub own base) (hname : name ∈ slotNames own) :
    name ≠ itemMarker := by
  obtain ⟨slot, hslot, hname⟩ := List.mem_flatMap.1 hname
  obtain ⟨_, name', -, hnames, hne⟩ := h.exists_leaf hslot
  rw [hnames, List.mem_singleton] at hname
  rwa [hname]

end Extends

/-! ### Records in step -/

lemma exists_cell_of_reads {text? : Option String} {cell? : Option (Cell Node)}
    (h : Reads kind name text? cell?) : ∃ cell, cell? = some cell := by
  cases text? with
  | none => exact ⟨_, h⟩
  | some text =>
    obtain ⟨value, -, hcell⟩ := h
    exact ⟨_, hcell⟩

/-- The record `whole` holds what `alone` does and in its own slots what these read of the leaves
that `alone` keeps under their names; the other leaves are kept by both. -/
structure Embeds (sub : Entity) (own : List Slot) (base : Entity) (whole alone : Node) : Prop where
  whole_shape : whole.shape = .entity sub
  alone_shape : alone.shape = .entity base
  /-- Behind the own slots both hold the same. -/
  cells : whole.cells.drop own.length = alone.cells
  unknown : ∀ name, whole.unknown.get? name
    = if name ∈ slotNames own then none else alone.unknown.get? name
  reads : ∀ {i : Nat} {slot : Slot} {kind : Kind} {name : String}, own[i]? = some slot →
    slot.content = .leaf kind → slot.names = [name] →
    Reads kind name (alone.unknown.get? name) whole.cells[i]?

lemma embeds_fresh (h : Extends sub own base) :
    Embeds sub own base (fresh (.entity sub)) (fresh (.entity base)) := by
  constructor
  · rfl
  · rfl
  · rw [fresh, Shape.slots, h.slots_eq, List.map_append, List.drop_left' (by simp)]
    rfl
  · simp [fresh]
  · intro i slot kind name hslot hleaf _
    simp [fresh, Reads, h.getElem?_own hslot, hleaf, freshCell]

namespace Embeds

lemma getElem?_cells (h : Embeds sub own base whole alone) (i : Nat) :
    whole.cells[own.length + i]? = alone.cells[i]? := by
  rw [← h.cells, List.getElem?_drop]

/-- A change behind the own slots is made in both. -/
lemma modifyCell (h : Embeds sub own base whole alone) (i : Nat) (f : Cell Node → Cell Node) :
    Embeds sub own base (whole.modifyCell (own.length + i) f) (alone.modifyCell i f) := by
  constructor
  · exact h.whole_shape
  · exact h.alone_shape
  · apply List.ext_getElem?
    intro j
    have hij : own.length + i = own.length + j ↔ i = j := by omega
    simp only [Node.modifyCell, List.getElem?_drop, List.getElem?_modify, h.getElem?_cells, hij]
  · exact h.unknown
  · intro j slot kind name hslot hleaf hnames
    have hne : own.length + i ≠ j := by
      have hlt := (List.getElem?_eq_some_iff.1 hslot).1
      omega
    rw [cells_modifyCell_of_ne hne]
    exact h.reads hslot hleaf hnames

/-! ### Elements -/

/-- Both claim an element, or neither does. -/
lemma offerOpening {attributes : Attributes} {isClaimed : Bool}
    (h : Embeds sub own base whole alone) (hx : Extends sub own base)
    (hopen : Decode.offerOpening name attributes whole = .ok isClaimed whole') :
    ∃ alone', Decode.offerOpening name attributes alone = .ok isClaimed alone' ∧
      Embeds sub own base whole' alone' := by
  have hslot := hx.claimingSlot?_eq name
  rw [← h.whole_shape, ← h.alone_shape] at hslot
  cases hbase : alone.shape.claimingSlot? name with
  | none =>
    rw [hbase, Option.map_none] at hslot
    simp only [Decode.offerOpening, claim_of_none hslot] at hopen
    cases hopen
    exact ⟨alone, by simp only [Decode.offerOpening, claim_of_none hbase], h⟩
  | some s =>
    rw [hbase, Option.map_some] at hslot
    simp only [Decode.offerOpening, claim_of_some hslot] at hopen
    cases hopen
    exact ⟨_, by simp only [Decode.offerOpening, claim_of_some hbase], h.modifyCell s.1 _⟩

/-- Behind a claimed element both have the same child. -/
lemma child?_eq (h : Embeds sub own base whole alone) (hx : Extends sub own base) (name : String) :
    Receiver.child? whole name = Receiver.child? alone name := by
  have hslot := hx.claimingSlot?_eq name
  rw [← h.whole_shape, ← h.alone_shape] at hslot
  simp only [Receiver.child?, hslot]
  cases alone.shape.claimingSlot? name with
  | none => rfl
  | some s => simp only [Option.map_some, h.getElem?_cells]

lemma withChild (h : Embeds sub own base whole alone) (hx : Extends sub own base) (name : String)
    (child : Node) :
    Embeds sub own base (Receiver.withChild whole name child)
      (Receiver.withChild alone name child) := by
  have hslot := hx.claimingSlot?_eq name
  rw [← h.whole_shape, ← h.alone_shape] at hslot
  simp only [Receiver.withChild, hslot]
  cases alone.shape.claimingSlot? name with
  | none => exact h
  | some s => exact h.modifyCell s.1 _

/-! ### Leaves -/

/-- A leaf that neither has a slot for is kept by both. -/
lemma takeUnknown (h : Embeds sub own base whole alone) (hname : name ∉ slotNames own)
    (hwhole : whole.shape.leafSlot? name = none) (halone : alone.shape.leafSlot? name = none)
    (text : String) :
    Embeds sub own base (whole.takeUnknown name text) (alone.takeUnknown name text) := by
  have hkeeps : whole.shape.keeps name = alone.shape.keeps name := by
    rw [Shape.keeps, Shape.keeps, hwhole, halone, h.whole_shape, h.alone_shape]
    rfl
  constructor
  · rw [shape_takeUnknown, h.whole_shape]
  · rw [shape_takeUnknown, h.alone_shape]
  · rw [cells_takeUnknown, cells_takeUnknown, h.cells]
  · intro n
    rw [get?_takeUnknown hwhole, get?_takeUnknown halone, hkeeps, h.unknown]
    by_cases hn : n = name
    · subst hn
      simp [hname]
    · simp [hn]
  · intro i slot kind n hslot hleaf hnames
    have hn : n ≠ name := by
      rintro rfl
      exact hname (List.mem_flatMap.2 ⟨slot, List.mem_of_getElem? hslot, by simp [hnames]⟩)
    rw [cells_takeUnknown, get?_takeUnknown halone, if_neg (by simp [hn])]
    exact h.reads hslot hleaf hnames

/-- A leaf that fills an own slot is kept by the other record. -/
lemma takeOwn {value : Scalar} (h : Embeds sub own base whole alone) (hx : Extends sub own base)
    (hslot : own[i]? = some slot) (hleaf : slot.content = .leaf kind) (hnames : slot.names = [name])
    (hread : kind.read name text = .ok value) :
    Embeds sub own base (whole.modifyCell i fun _ => .value (some value))
      (alone.takeUnknown name text) := by
  have hown : name ∈ slotNames own :=
    List.mem_flatMap.2 ⟨slot, List.mem_of_getElem? hslot, by simp [hnames]⟩
  have halone : alone.shape.leafSlot? name = none := by
    rw [h.alone_shape]
    exact hx.leafSlot?_base_of_own hown
  have hkept : ∀ n, (alone.takeUnknown name text).unknown.get? n
      = if n = name then some text else alone.unknown.get? n := by
    intro n
    have hkeeps : alone.shape.keeps name = true := by
      rw [Shape.keeps, halone, h.alone_shape]
      simpa [Shape.leftovers] using hx.ne_itemMarker hown
    rw [get?_takeUnknown halone]
    simp [hkeeps]
  have hlt := (List.getElem?_eq_some_iff.1 hslot).1
  constructor
  · exact h.whole_shape
  · rw [shape_takeUnknown, h.alone_shape]
  · rw [cells_takeUnknown, ← h.cells]
    apply List.ext_getElem?
    intro j
    rw [List.getElem?_drop, List.getElem?_drop, cells_modifyCell_of_ne (by omega)]
  · intro n
    rw [unknown_modifyCell, h.unknown, hkept]
    by_cases hn : n = name
    · simp [hn, hown]
    · simp [hn]
  · intro j slot' kind' n hslot' hleaf' hnames'
    rw [hkept]
    by_cases hij : i = j
    · subst hij
      cases hslot.symm.trans hslot'
      cases hleaf.symm.trans hleaf'
      cases hnames.symm.trans hnames'
      obtain ⟨cell, hcell⟩ := exists_cell_of_reads (h.reads hslot hleaf hnames)
      rw [if_pos rfl, cells_modifyCell_self hcell]
      exact ⟨value, hread, rfl⟩
    · -- two own slots are filled by leaves of different names
      have hn : n ≠ name := by
        rintro rfl
        have hfirst : (Shape.entity sub).leafSlot? n = some (i, kind) :=
          hx.leafSlot?_of_own hslot hleaf (by simp [hnames])
        have hsecond : (Shape.entity sub).leafSlot? n = some (j, kind') :=
          hx.leafSlot?_of_own hslot' hleaf' (by simp [hnames'])
        exact hij (congrArg Prod.fst (Option.some.inj (hfirst.symm.trans hsecond)))
      rw [if_neg hn, cells_modifyCell_of_ne hij]
      exact h.reads hslot' hleaf' hnames'

/-- A leaf that the larger record takes in is taken in by the smaller one. -/
lemma takeLeaf (h : Embeds sub own base whole alone) (hx : Extends sub own base)
    (htake : Receiver.takeLeaf name text whole = .ok () whole') :
    ∃ alone', Receiver.takeLeaf name text alone = .ok () alone' ∧
      Embeds sub own base whole' alone' := by
  cases hbase : (Shape.entity base).leafSlot? name with
  | some s =>
    obtain ⟨j, kind⟩ := s
    have hwhole := hx.leafSlot?_of_base hbase
    rw [← h.whole_shape] at hwhole
    rw [← h.alone_shape] at hbase
    cases hread : kind.read name text with
    | error e => cases (takeLeaf_of_error hwhole hread).symm.trans htake
    | ok value =>
      cases (takeLeaf_of_ok hwhole hread).symm.trans htake
      exact ⟨_, takeLeaf_of_ok hbase hread, h.modifyCell j _⟩
  | none =>
    have halone : alone.shape.leafSlot? name = none := by rw [h.alone_shape, hbase]
    refine ⟨alone.takeUnknown name text, takeLeaf_of_none halone, ?_⟩
    by_cases hown : name ∈ slotNames own
    · obtain ⟨slot, hslot, hname⟩ := List.mem_flatMap.1 hown
      obtain ⟨kind, name', hleaf, hnames, -⟩ := hx.exists_leaf hslot
      obtain rfl : name = name' := by simpa [hnames] using hname
      obtain ⟨i, hi⟩ := List.mem_iff_getElem?.1 hslot
      have hwhole := hx.leafSlot?_of_own hi hleaf hname
      rw [← h.whole_shape] at hwhole
      cases hread : kind.read name text with
      | error e => cases (takeLeaf_of_error hwhole hread).symm.trans htake
      | ok value =>
        cases (takeLeaf_of_ok hwhole hread).symm.trans htake
        exact h.takeOwn hx hi hleaf hnames hread
    · have hwhole := hx.leafSlot?_eq_none hown hbase
      rw [← h.whole_shape] at hwhole
      cases (takeLeaf_of_none hwhole).symm.trans htake
      exact h.takeUnknown hown hwhole halone text

/-! ### Events -/

variable {α : Type} {a : α} {act : EStateM Error Node α} {names : List String}

/-- What is done to the innermost receivers keeps the records in step, if it does so to the records
themselves: behind a claimed element it is done to the same child. -/
lemma reaching (h : Embeds sub own base whole alone) (hx : Extends sub own base)
    (hact : ∀ {whole'}, act whole = .ok a whole' →
      ∃ alone', act alone = .ok a alone' ∧ Embeds sub own base whole' alone')
    (hreach : Decode.reaching names act whole = .ok a whole') :
    ∃ alone', Decode.reaching names act alone = .ok a alone' ∧
      Embeds sub own base whole' alone' := by
  cases names with
  | nil => exact hact hreach
  | cons name names =>
    cases hchild : Receiver.child? whole name with
    | none => cases (reaching_cons_of_none hchild).symm.trans hreach
    | some child =>
      rw [reaching_cons_of_some hchild] at hreach
      rw [h.child?_eq hx] at hchild
      rw [reaching_cons_of_some hchild]
      cases hin : Decode.reaching names act child with
      | error e child' =>
        rw [hin] at hreach
        cases hreach
      | ok a' child' =>
        rw [hin] at hreach
        cases hreach
        exact ⟨_, rfl, h.withChild hx name child'⟩

/-- An event that is dispatched to the larger record is dispatched to the smaller one, and they stay
in step. -/
theorem step {limit : Option Nat} {event : Event} {frames : List Frame} {claimed : List String}
    {d : Dispatch Node} (h : Embeds sub own base whole alone) (hx : Extends sub own base)
    (hstep : Dispatch.step limit event ⟨whole, frames, claimed⟩ = .ok () d) :
    ∃ alone', Dispatch.step limit event ⟨alone, frames, claimed⟩
        = .ok () ⟨alone', d.frames, d.claimed⟩ ∧ Embeds sub own base d.root alone' := by
  cases event with
  | opening name attributes =>
    rcases Dispatch.reaches_or_below limit frames.length with ⟨n, rfl, hn⟩ | hlimit
    · cases (Dispatch.step_opening_of_le hn).symm.trans hstep
    · rw [Dispatch.step_opening hlimit] at hstep ⊢
      cases hreach :
        Decode.reaching claimed.reverse (Decode.offerOpening name attributes) whole with
      | error e whole' =>
        rw [hreach] at hstep
        cases hstep
      | ok isClaimed whole' =>
        rw [hreach] at hstep
        cases hstep
        obtain ⟨alone', halone, hembeds⟩ := h.reaching hx (h.offerOpening hx) hreach
        rw [halone]
        exact ⟨alone', rfl, hembeds⟩
  | closing name text =>
    rcases frames with _ | ⟨⟨_ | _, _ | _⟩, frames⟩
    · cases hstep
    · rw [Dispatch.step_closing_leaf] at hstep ⊢
      cases hreach : Decode.reaching claimed.reverse (Receiver.takeLeaf name text) whole with
      | error e whole' =>
        rw [hreach] at hstep
        cases hstep
      | ok _ whole' =>
        rw [hreach] at hstep
        cases hstep
        obtain ⟨alone', halone, hembeds⟩ := h.reaching hx (h.takeLeaf hx) hreach
        rw [halone]
        exact ⟨alone', rfl, hembeds⟩
    all_goals
      cases hstep
      exact ⟨alone, rfl, h⟩

/-- Events one after the other keep the records in step. -/
theorem run {limit : Option Nat} {events : List Event} {frames : List Frame} {claimed : List String}
    {d : Dispatch Node} (h : Embeds sub own base whole alone) (hx : Extends sub own base)
    (hrun : Dispatch.run limit events ⟨whole, frames, claimed⟩ = .ok () d) :
    ∃ alone', Dispatch.run limit events ⟨alone, frames, claimed⟩
        = .ok () ⟨alone', d.frames, d.claimed⟩ ∧ Embeds sub own base d.root alone' := by
  induction events generalizing whole alone frames claimed with
  | nil =>
    cases hrun
    exact ⟨alone, rfl, h⟩
  | cons event events ih =>
    rw [Dispatch.run_cons] at hrun ⊢
    cases hstep : Dispatch.step limit event ⟨whole, frames, claimed⟩ with
    | error e mid =>
      rw [hstep] at hrun
      cases hrun
    | ok _ mid =>
      rw [hstep] at hrun
      obtain ⟨alone', halone, hembeds⟩ := h.step hx hstep
      rw [halone]
      exact ih hembeds hrun

end Embeds

/-! ### Documents -/

/-- A volume type, with a leaf that fills no slot. -/
def sampleVolume : Node :=
  ⟨.entity .volumeOffering, [.value (some (.text "ssd")), .value (some (.integer 3000)),
    .value none, .value none, .value none, .value (some (.boolean false)),
    .records [collectorOf itemMarker .rate [fresh (.entity .rate)]]], .ofList [("note", "x")]⟩

/-- A document of that volume type, whose own type is told twice. -/
def sampleVolumeDocument : List UInt8 :=
  Utf8.encode
    "<v><type>hdd</type><iops>3000</iops><rates><item/></rates><note>x</note><type>ssd</type></v>"

end CloudCodec.Response
