/-
# Decoding into a record again

A record of a single thing takes from a document what the document says and keeps nothing in its
place: a slot that an element or a leaf fills is filled anew, and a leaf that fills no slot is bound
anew under its name.  So what decoding does to such a record is to put a patch over it (`Patch`),
and of the record only its layout tells which patch, and what the outcome is (`run_overwrites`).
The reason is that the dispatch never looks at what the patch has not put there: the way to the
innermost receiver begins at an element that the record claimed, and the cell of that element was
filled when it opened (`Covers`).

A patch over itself changes nothing, and so a document may be decoded again, after a success or a
failure (`decode_again`).  Lists and listings are different: each decoding adds members to them.
-/
import CloudCodec.Proofs.Response.Completeness

namespace CloudCodec.Response

open Decode Xml

/-- Whether records of a shape describe a single thing, and not the members of a list. -/
def Shape.isSingle : Shape → Bool
  | .entity _ | .status | .generic => true
  | .collector _ _ | .page _ _ => false

/-- Whether every element of its names adds a record to a slot. -/
def Content.isMembers : Content → Bool
  | .members _ => true
  | _ => false

/-- The slots of a single thing hold no members. -/
lemma Shape.isMembers_eq_false {shape : Shape} (h : shape.isSingle = true) :
    ∀ slot ∈ shape.slots, slot.content.isMembers = false := by
  cases shape with
  | entity entity => cases entity <;> decide
  | status => decide
  | generic => decide
  | collector marker entity => cases h
  | page marker entity => cases h

namespace Node

variable {node : Node} {i : Nat} {cell : Cell Node} {content : Content} {name text : String}
  {attributes : Attributes}

/-- Unless it holds members, a slot is filled anew by the opening of an element. -/
lemma openedCell_eq_singleton {inner : Shape} (h : content.openedShape? cell.marker = some inner)
    (hmembers : content.isMembers = false) : openedCell content cell = .records [fresh inner] := by
  cases content with
  | leaf kind => cases h
  | flag => cases h
  | optional entity =>
    cases h
    rfl
  | list entity =>
    cases h
    rfl
  | members entity => cases hmembers

/-! ### Patches -/

/-- What a document puts over a record: cells for some of its slots, and leaves that fill no
slot. -/
structure Patch where
  /-- The cell that is put at a place, if there is one. -/
  cells : Nat → Option (Cell Node)
  /-- The leaves that are bound by name, in order. -/
  leaves : List (String × String)

namespace Patch

/-- The record with a patch over it. -/
def apply (p : Patch) (node : Node) : Node where
  shape := node.shape
  cells := node.cells.mapIdx fun i cell => (p.cells i).getD cell
  unknown := node.unknown.insertMany p.leaves

/-- The patch that leaves everything as it is. -/
def blank : Patch := ⟨fun _ => none, []⟩

/-- The patch with a cell put at a place. -/
def put (p : Patch) (i : Nat) (cell : Cell Node) : Patch :=
  { p with cells := Function.update p.cells i (some cell) }

/-- The patch with one more leaf. -/
def bind (p : Patch) (name text : String) : Patch :=
  { p with leaves := p.leaves ++ [(name, text)] }

/-- A patch goes over a complete record of a layout, and leaves it that layout. -/
structure Over (p : Patch) (layout : Layout) (root : Node) : Prop where
  isComplete : root.IsComplete
  layout_eq : root.layout = layout
  layout_apply : (p.apply root).layout = layout

/-- Where a patch puts a cell, another one puts one too. -/
def Within (p q : Patch) : Prop := ∀ i, (p.cells i).isSome = true → (q.cells i).isSome = true

variable {p q : Patch} {layout : Layout} {root : Node}

lemma Over.shape_eq (h : p.Over layout root) : root.shape = layout.shape :=
  congrArg Layout.shape h.layout_eq

@[simp] lemma shape_apply (p : Patch) (node : Node) : (p.apply node).shape = node.shape := rfl

lemma getElem?_cells_apply (p : Patch) (node : Node) (i : Nat) :
    (p.apply node).cells[i]? = node.cells[i]?.map fun cell => (p.cells i).getD cell := by
  simp [apply]

@[simp] lemma blank_apply (node : Node) : blank.apply node = node := by
  rcases node with ⟨shape, cells, unknown⟩
  have hcells : cells.mapIdx (fun _ cell => cell) = cells := by
    apply List.ext_getElem?
    simp
  simp [apply, blank, TextMap.insertMany, hcells]

lemma within_put (p : Patch) (i : Nat) (cell : Cell Node) : p.Within (p.put i cell) := by
  intro j hj
  by_cases hji : j = i
  · simp [put, hji]
  · simpa [put, hji] using hj

lemma over_blank (h : root.IsComplete) : Patch.blank.Over root.layout root :=
  ⟨h, rfl, by rw [blank_apply]⟩

/-- A cell that does not depend on the record becomes part of the patch. -/
lemma put_apply {f : Cell Node → Cell Node}
    (h : ∀ old, node.cells[i]? = some old → f ((p.cells i).getD old) = cell) :
    (p.put i cell).apply node = (p.apply node).modifyCell i f := by
  have hcells : ((p.put i cell).apply node).cells = (p.apply node).cells.modify i f := by
    apply List.ext_getElem?
    intro j
    rw [List.getElem?_modify, getElem?_cells_apply, getElem?_cells_apply]
    by_cases hij : i = j
    · subst hij
      cases hold : node.cells[i]? with
      | none => rfl
      | some old => simp [put, h old hold]
    · simp [put, hij, Ne.symm hij]
  rw [modifyCell, ← hcells]
  rfl

lemma bind_apply (p : Patch) (node : Node) (name text : String) :
    (p.bind name text).apply node
      = { p.apply node with unknown := (p.apply node).unknown.insert name text } := by
  simp [apply, bind, TextMap.insertMany]

/-- A patch over itself changes nothing. -/
theorem apply_apply (p : Patch) (node : Node) : p.apply (p.apply node) = p.apply node := by
  have hcells : (p.apply (p.apply node)).cells = (p.apply node).cells := by
    apply List.ext_getElem?
    intro i
    rw [getElem?_cells_apply, getElem?_cells_apply, Option.map_map]
    congr 1
    funext cell
    cases p.cells i <;> rfl
  have hunknown : (p.apply (p.apply node)).unknown = (p.apply node).unknown :=
    TextMap.insertMany_insertMany_self node.unknown p.leaves
  exact (Node.mk.injEq ..).mpr ⟨rfl, hcells, hunknown⟩

end Patch

/-! ### Acts that put a patch over a record -/

/-- An answer together with the state that an act leaves. -/
def result {σ α : Type} (answer : Except Error α) (s : σ) : EStateM.Result Error σ α :=
  match answer with
  | .ok a => .ok a s
  | .error e => .error e s

variable {α : Type} {layout : Layout} {p q : Patch} {act : EStateM Error Node α} {root : Node}

/-- What an act puts over a record leaves the record its layout, if the act does. -/
lemma Patch.Over.of_eq {answer : Except Error α} (h : p.Over layout root)
    (hact : ∀ node, (leave act node).layout = node.layout)
    (heq : act (p.apply root) = result answer (q.apply root)) : q.Over layout root := by
  have hq := hact (p.apply root)
  rw [leave, heq] at hq
  refine ⟨h.isComplete, h.layout_eq, ?_⟩
  cases answer <;> exact hq.trans h.layout_apply

/-- Over a patch an act gives the same answer on all records of a layout, and what it does to them
is to put more over them. -/
def Overwrites (layout : Layout) (p : Patch) (act : EStateM Error Node α) : Prop :=
  ∃ (answer : Except Error α) (q : Patch), p.Within q ∧
    ∀ root : Node, p.Over layout root → act (p.apply root) = result answer (q.apply root)

/-- The opening of an element fills the slot that claims it, whatever was in there. -/
lemma overwrites_offerOpening (hsingle : layout.shape.isSingle = true) (p : Patch) (name : String)
    (attributes : Attributes) :
    ∃ q : Patch, p.Within q ∧
      (∀ slot, layout.shape.claimingSlot? name = some slot → (q.cells slot.1).isSome = true) ∧
      ∀ root : Node, p.Over layout root →
        offerOpening name attributes (p.apply root)
          = .ok (layout.shape.claims name) (q.apply root) := by
  cases hslot : layout.shape.claimingSlot? name with
  | none =>
    refine ⟨p, fun _ => id, by simp, ?_⟩
    intro root hover
    have hclaim : Receiver.claim (p.apply root) name attributes = (false, p.apply root) :=
      claim_of_none (by rw [Patch.shape_apply, hover.shape_eq, hslot])
    simp [offerOpening, hclaim, claims_eq_false_iff.2 hslot]
  | some found =>
    obtain ⟨i, content⟩ := found
    obtain ⟨slot, hi, rfl, -⟩ := Shape.claimingSlot?_eq_some_iff.1 hslot
    have hmembers := Shape.isMembers_eq_false hsingle slot (List.mem_of_getElem? hi)
    obtain ⟨inner, hinner⟩ := exists_openedShape?_of_claimingSlot hslot (layout.marker i)
    refine ⟨p.put i (.records [fresh inner]), p.within_put _ _, ?_, ?_⟩
    · rintro _ ⟨⟩
      simp [Patch.put]
    · intro root hover
      have hclaim : Receiver.claim (p.apply root) name attributes
          = (true, (p.apply root).modifyCell i (openedCell slot.content)) :=
        claim_of_some (by rw [Patch.shape_apply, hover.shape_eq, hslot])
      rw [Patch.put_apply (f := openedCell slot.content) ?_]
      · simp [offerOpening, hclaim, claims_eq_true_iff.2 ⟨_, _, hslot⟩]
      · -- the marker of the list in the cell is the one of the layout, also behind the patch
        intro old hold
        have hcell : (p.apply root).cells[i]? = some ((p.cells i).getD old) := by
          rw [Patch.getElem?_cells_apply, hold, Option.map_some]
        have hslot' : (p.apply root).shape.slots[i]? = some slot := by
          rw [Patch.shape_apply, hover.shape_eq, hi]
        have hopened := openedShape?_layout hslot' hcell
        rw [hover.layout_apply, hinner] at hopened
        exact openedCell_eq_singleton hopened.symm hmembers

/-- A leaf fills its slot, or is bound under its name. -/
lemma overwrites_takeLeaf (layout : Layout) (p : Patch) (name text : String) :
    Overwrites layout p (Receiver.takeLeaf name text) := by
  cases hslot : layout.shape.leafSlot? name with
  | some found =>
    obtain ⟨i, kind⟩ := found
    cases hread : kind.read name text with
    | error e =>
      refine ⟨.error e, p, fun _ => id, ?_⟩
      intro root hover
      exact takeLeaf_of_error (hover.shape_eq ▸ hslot) hread
    | ok value =>
      refine ⟨.ok (), p.put i (.value (some value)), p.within_put _ _, ?_⟩
      intro root hover
      rw [takeLeaf_of_ok (hover.shape_eq ▸ hslot) hread]
      exact congrArg (EStateM.Result.ok ()) (Patch.put_apply fun _ _ => rfl).symm
  | none =>
    have hkept : ∀ root : Node, p.Over layout root →
        (p.apply root).shape.leftovers = layout.shape.leftovers := fun root hover => by
      rw [Patch.shape_apply, hover.shape_eq]
    cases hleftovers : layout.shape.leftovers with
    | dropped =>
      refine ⟨.ok (), p, fun _ => id, fun root hover => ?_⟩
      rw [takeLeaf_of_none (hover.shape_eq ▸ hslot), takeUnknown, hkept root hover, hleftovers]
      rfl
    | kept key isOmitted =>
      by_cases hitem : name = itemMarker
      · refine ⟨.ok (), p, fun _ => id, fun root hover => ?_⟩
        rw [takeLeaf_of_none (hover.shape_eq ▸ hslot), takeUnknown, hkept root hover, hleftovers]
        simp only [recordUnknown, if_pos hitem]
        rfl
      · refine ⟨.ok (), p.bind name text, fun _ => id, fun root hover => ?_⟩
        rw [takeLeaf_of_none (hover.shape_eq ▸ hslot), takeUnknown, hkept root hover, hleftovers,
          Patch.bind_apply]
        simp only [recordUnknown, if_neg hitem]
        rfl

/-- Whatever is done behind an element that the record claimed is done in the cell of that element,
and if the patch has put this cell there, the record does not matter. -/
lemma overwrites_reaching {names : List String} {slot : Nat × Content}
    (hslot : layout.shape.claimingSlot? name = some slot) (hcell : (p.cells slot.1).isSome = true)
    (act : EStateM Error Node α) : Overwrites layout p (reaching (name :: names) act) := by
  obtain ⟨i, content⟩ := slot
  obtain ⟨cell, hcell⟩ := Option.isSome_iff_exists.1 hcell
  have hin : ∀ root : Node, p.Over layout root → (p.apply root).cells[i]? = some cell := by
    intro root hover
    obtain ⟨old, hold⟩ := hover.isComplete.exists_cell (hover.shape_eq ▸ hslot)
    simp [Patch.getElem?_cells_apply, hold, hcell]
  cases hnewest : cell.newest? with
  | none =>
    refine ⟨.error (.detachedChild name), p, fun _ => id, ?_⟩
    intro root hover
    refine reaching_cons_of_none ?_
    simp [Receiver.child?, hover.shape_eq, hslot, hin root hover, hnewest]
  | some child =>
    have hreach : ∀ root : Node, p.Over layout root →
        reaching (name :: names) act (p.apply root)
          = putInto (fun child => (p.put i (cell.replaceNewest child)).apply root)
              (reaching names act child) := by
      intro root hover
      have hchild : Receiver.child? (p.apply root) name = some child := by
        simp [Receiver.child?, hover.shape_eq, hslot, hin root hover, hnewest]
      rw [reaching_cons_of_some hchild]
      congr 1
      funext child
      rw [withChild_of_some (by simpa [hover.shape_eq] using hslot)]
      exact (Patch.put_apply fun old _ => by simp [hcell]).symm
    cases hact : reaching names act child with
    | ok a child' =>
      refine ⟨.ok a, p.put i (cell.replaceNewest child'), p.within_put _ _, ?_⟩
      intro root hover
      rw [hreach root hover, hact]
      rfl
    | error e child' =>
      refine ⟨.error e, p.put i (cell.replaceNewest child'), p.within_put _ _, ?_⟩
      intro root hover
      rw [hreach root hover, hact]
      rfl

/-! ### Events -/

/-- The patch has put a cell where the outermost of the claimed elements is. -/
def Covers (shape : Shape) (p : Patch) (claimed : List String) : Prop :=
  ∀ name ∈ claimed.getLast?, ∃ slot, shape.claimingSlot? name = some slot ∧
    (p.cells slot.1).isSome = true

variable {shape : Shape} {claimed : List String}

lemma Covers.mono (h : Covers shape p claimed) (hpq : p.Within q) : Covers shape q claimed := by
  intro name hname
  obtain ⟨slot, hslot, hcell⟩ := h name hname
  exact ⟨slot, hslot, hpq _ hcell⟩

lemma Covers.tail (h : Covers shape p claimed) : Covers shape p claimed.tail := by
  intro name hname
  refine h name ?_
  rcases claimed with _ | ⟨first, _ | ⟨second, rest⟩⟩
  · exact hname
  · cases hname
  · simpa using hname

lemma Covers.inside {first : String} {rest : List String} (h : Covers shape p (first :: rest))
    (name : String) : Covers shape p (name :: first :: rest) := by
  intro name' hname'
  exact h name' (by rwa [List.getLast?_cons_cons] at hname')

/-- An act of the innermost receiver puts a patch over the root. -/
lemma overwrites_innermost (hcovers : Covers layout.shape p claimed)
    (hact : Overwrites layout p act) : Overwrites layout p (reaching claimed.reverse act) := by
  rcases List.eq_nil_or_concat' claimed with rfl | ⟨inner, name, rfl⟩
  · exact hact
  · obtain ⟨slot, hslot, hcell⟩ := hcovers name (by simp)
    rw [List.reverse_append]
    exact overwrites_reaching hslot hcell act

/-- An opening behind a patch puts more over the root, and if it is claimed, the patch reaches as
far as the way to the child. -/
lemma overwrites_opening (hsingle : layout.shape.isSingle = true)
    (hcovers : Covers layout.shape p claimed) (name : String) (attributes : Attributes) :
    ∃ (answer : Except Error Bool) (q : Patch), p.Within q ∧
      (answer = .ok true → Covers layout.shape q (name :: claimed)) ∧
      ∀ root : Node, p.Over layout root →
        reaching claimed.reverse (offerOpening name attributes) (p.apply root)
          = result answer (q.apply root) := by
  rcases List.eq_nil_or_concat' claimed with rfl | ⟨inner, outermost, rfl⟩
  · obtain ⟨q, hpq, hslot, hact⟩ := overwrites_offerOpening hsingle p name attributes
    refine ⟨.ok (layout.shape.claims name), q, hpq, ?_, hact⟩
    rintro hclaims name' ⟨⟩
    obtain ⟨i, content, hfound⟩ := claims_eq_true_iff.1 (Except.ok.inj hclaims)
    exact ⟨_, hfound, hslot _ hfound⟩
  · -- the way to the child goes on from the cell that the patch has put there before
    obtain ⟨slot, hslot, hcell⟩ := hcovers outermost (by simp)
    obtain ⟨answer, q, hpq, hact⟩ : Overwrites layout p
        (reaching (outermost :: inner.reverse) (offerOpening name attributes)) :=
      overwrites_reaching hslot hcell _
    rw [List.reverse_append]
    refine ⟨answer, q, hpq, ?_, hact⟩
    intro _
    have hmono := hcovers.mono hpq
    obtain ⟨first, rest, hclaimed⟩ := List.exists_cons_of_ne_nil
      (List.append_ne_nil_of_right_ne_nil inner (List.cons_ne_nil outermost []))
    rw [hclaimed] at hmono ⊢
    exact hmono.inside name

/-- An event gives the same answer behind a patch whatever the record of a layout, and puts more
over it. -/
theorem step_overwrites (hsingle : layout.shape.isSingle = true)
    (hcovers : Covers layout.shape p claimed) (limit : Option Nat) (event : Event)
    (frames : List Frame) :
    ∃ (answer : Except Error Unit) (q : Patch) (frames' : List Frame) (claimed' : List String),
      Covers layout.shape q claimed' ∧ ∀ root : Node, p.Over layout root → q.Over layout root ∧
        Dispatch.step limit event ⟨p.apply root, frames, claimed⟩
          = result answer ⟨q.apply root, frames', claimed'⟩ := by
  cases event with
  | opening name attributes =>
    -- the open elements are counted without a look at the record
    rcases Dispatch.reaches_or_below limit frames.length with ⟨n, rfl, hn⟩ | hlimit
    · refine ⟨.error (.depthExceeded n), p, frames, claimed, hcovers, fun root hover => ⟨hover, ?_⟩⟩
      rw [Dispatch.step_opening_of_le hn]
      rfl
    · obtain ⟨answer, q, hpq, hclaimed, hact⟩ := overwrites_opening hsingle hcovers name attributes
      have hq : ∀ root : Node, p.Over layout root → q.Over layout root := fun root hover =>
        hover.of_eq (layout_reaching (layout_offerOpening · name attributes) _) (hact root hover)
      cases answer with
      | error e =>
        refine ⟨.error e, q, Dispatch.markParent frames, claimed, hcovers.mono hpq,
          fun root hover => ⟨hq root hover, ?_⟩⟩
        rw [Dispatch.step_opening hlimit, hact root hover]
        rfl
      | ok isClaimed =>
        refine ⟨.ok (), q, ⟨isClaimed, false⟩ :: Dispatch.markParent frames,
          if isClaimed then name :: claimed else claimed, ?_,
          fun root hover => ⟨hq root hover, ?_⟩⟩
        · cases isClaimed with
          | true => exact hclaimed rfl
          | false => exact hcovers.mono hpq
        · rw [Dispatch.step_opening hlimit, hact root hover]
          rfl
  | closing name text =>
    rcases frames with _ | ⟨⟨_ | _, _ | _⟩, frames⟩
    · exact ⟨.error (.malformed (.unbalancedClose name)), p, [], claimed, hcovers,
        fun _ hover => ⟨hover, Dispatch.step_closing_of_nil⟩⟩
    · obtain ⟨answer, q, hpq, hact⟩ :=
        overwrites_innermost hcovers (overwrites_takeLeaf layout p name text)
      refine ⟨answer, q, frames, claimed, hcovers.mono hpq, fun root hover => ⟨?_, ?_⟩⟩
      · exact hover.of_eq (layout_reaching (layout_takeLeaf · name text) _) (hact root hover)
      · rw [Dispatch.step_closing_leaf, hact root hover]
        cases answer <;> rfl
    · exact ⟨.ok (), p, frames, claimed, hcovers,
        fun _ hover => ⟨hover, Dispatch.step_closing_of_hasChildren⟩⟩
    · exact ⟨.ok (), p, frames, claimed.tail, hcovers.tail,
        fun _ hover => ⟨hover, Dispatch.step_closing_of_claimed⟩⟩
    · exact ⟨.ok (), p, frames, claimed.tail, hcovers.tail,
        fun _ hover => ⟨hover, Dispatch.step_closing_of_claimed⟩⟩

/-- Events one after the other give the same answer behind a patch whatever the record of a layout,
and put more over it. -/
theorem run_overwrites (hsingle : layout.shape.isSingle = true) (limit : Option Nat)
    (events : List Event) {p : Patch} {claimed : List String}
    (hcovers : Covers layout.shape p claimed) (frames : List Frame) :
    ∃ (answer : Except Error Unit) (q : Patch) (frames' : List Frame) (claimed' : List String),
      ∀ root : Node, p.Over layout root →
        Dispatch.run limit events ⟨p.apply root, frames, claimed⟩
          = result answer ⟨q.apply root, frames', claimed'⟩ := by
  induction events generalizing p claimed frames with
  | nil => exact ⟨.ok (), p, frames, claimed, fun _ _ => rfl⟩
  | cons event events ih =>
    obtain ⟨answer, q, frames', claimed', hcovers', hstep⟩ :=
      step_overwrites hsingle hcovers limit event frames
    cases answer with
    | error e =>
      refine ⟨.error e, q, frames', claimed', fun root hover => ?_⟩
      rw [Dispatch.run_cons, (hstep root hover).2]
      rfl
    | ok _ =>
      obtain ⟨answer, q', frames'', claimed'', hrun⟩ := ih hcovers' frames'
      refine ⟨answer, q', frames'', claimed'', fun root hover => ?_⟩
      obtain ⟨hover', hroot⟩ := hstep root hover
      rw [Dispatch.run_cons, hroot]
      exact hrun root hover'

/-! ### Documents -/

/-- To decode a document is to put a patch over the record, which the layout of the record tells. -/
theorem decode_overwrites (hsingle : layout.shape.isSingle = true) (settings : Settings)
    (bytes : List UInt8) :
    ∃ (answer : Except Error Unit) (p : Patch), ∀ root : Node, root.IsComplete →
      root.layout = layout → decode settings bytes root = result answer (p.apply root) := by
  cases hdocument : Event.ofDocument settings.trim bytes with
  | error fault =>
    refine ⟨.error (.malformed fault), .blank, fun root _ _ => ?_⟩
    rw [Patch.blank_apply]
    simp only [decode, hdocument]
    rfl
  | ok events =>
    have hcovers : Covers layout.shape .blank [] := by simp [Covers]
    obtain ⟨answer, p, frames, claimed, hrun⟩ :=
      run_overwrites hsingle settings.maxDepth events hcovers []
    refine ⟨answer, p, fun root hcomplete hlayout => ?_⟩
    have hroot := hrun root (hlayout ▸ Patch.over_blank hcomplete)
    rw [Patch.blank_apply] at hroot
    simp only [decode, hdocument, dispatch_eq_run, Dispatch.start, hroot]
    cases answer <;> rfl

/-- What an act answers, apart from the state that it leaves. -/
def answerOf {σ α : Type} (act : EStateM Error σ α) (s : σ) : Except Error α :=
  match act s with
  | .ok a _ => .ok a
  | .error e _ => .error e

/-- An offering whose services have a marker of their own. -/
def sampleOffering : Node :=
  ⟨.entity .instanceOffering, [.value none, .value none, .value none, .value none,
    .records [emptyCollector "service" .service]], ∅⟩

/-- A service with a name. -/
def sampleService (name : Option String) : Node :=
  ⟨.entity .service, [.value (name.map .text), .value none, .value none,
    .value (some (.boolean false)), .records [emptyCollector itemMarker .rate]], ∅⟩

/-- The offering that a failed decoding left behind, with a service and another leaf. -/
def sampleFailed : Node :=
  ⟨.entity .instanceOffering, [.value none, .value none, .value none, .value none,
    .records [collectorOf "service" .service [sampleService (some "a")]]], .ofList [("note", "1")]⟩

/-- The offering that the next attempt leaves behind, with its first service and a beginning of the
second. -/
def sampleCut : Node :=
  ⟨.entity .instanceOffering, [.value none, .value none, .value none, .value none,
    .records [collectorOf "service" .service [sampleService (some "b"), sampleService none]]],
    .ofList [("note", "1")]⟩

/-- A document with a service, and a text that is refused behind it. -/
def sampleAttempt : String :=
  "<o><note>1</note><services><service><name>a</name></service></services><cpu>x</cpu></o>"

/-- A document with a list that is cut short, since a text of its second service is refused. -/
def sampleRetry : String :=
  "<o><services><service><name>b</name></service>"
    ++ "<service><deprecated>x</deprecated></service></services></o>"

/-- Where services have the usual marker, there is none in this document, and nothing to refuse. -/
example : answerOf (decode ⟨true, none⟩ (Utf8.encode sampleRetry))
    (fresh (.entity .instanceOffering)) = .ok () := by cbv

end Node

end CloudCodec.Response
