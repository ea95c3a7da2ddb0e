/-
# What a decoded record holds

A record is filled by two lists of elements: the leaves in scope that it does not claim, and the
elements in scope that it claims.  A slot of leaves holds what the last leaf of its names says, a
slot of elements holds a record for the last or for every element of its names, each decoded from a
fresh one, and every other leaf is kept by name (`Fills`).  Reading an element of the frontier adds
it to one of the two lists (`Fills.addLeaf`, `Fills.addClaimed`), so the whole forest is taken in by
going along its frontier.
-/
import CloudCodec.Proofs.Response.Layout
import CloudCodec.Proofs.TextMap
import CloudCodec.Proofs.Xml.Scope

namespace CloudCodec.Response

open Decode Xml Node

/-! ### The description -/

/-- Whether records of a shape claim elements of a name. -/
def Shape.claims (shape : Shape) (name : String) : Bool := (shape.claimingSlot? name).isSome

/-- Whether records of a shape keep leaves of a name that fill no slot. -/
def Shape.keeps (shape : Shape) (name : String) : Bool :=
  match shape.leftovers with
  | .dropped => false
  | .kept _ _ => name != itemMarker && (shape.leafSlot? name).isNone

/-- The shape of the records that elements open in a slot of a fresh record, where every list has
the usual marker. -/
def Content.shape? (content : Content) : Option Shape := content.openedShape? itemMarker

/-- What the records of a slot are decoded from, given the elements that the slot claims: from what
the last of them holds, or from what each of them holds.  Without a wrapper a list is decoded from
nothing. -/
def Content.forests (content : Content) (es : List Element) : List (List Element) :=
  match content with
  | .leaf _ | .flag => []
  | .optional _ => (es.getLast?.map Element.children).toList
  | .list _ => [(es.getLast?.map Element.children).getD []]
  | .members _ => es.map Element.children

/-- The cell of a slot of leaves, given the last leaf of its names: the value of the leaf, or what
filled the slot at first if there is none. -/
def Slot.HoldsLast (slot : Slot) (kind : Kind) (last? : Option Element)
    (cell? : Option (Cell Node)) : Prop :=
  match last? with
  | none => cell? = some (freshCell slot.content)
  | some e => ∃ value, kind.read e.name e.text = .ok value ∧ cell? = some (.value (some value))

/-- A record of a shape is filled by some leaves and by some claimed elements. -/
structure Fills (shape : Shape) (leaves claimed : List Element) (node : Node) : Prop where
  shape_eq : node.shape = shape
  /-- There is a cell for every slot. -/
  length_cells : node.cells.length = shape.slots.length
  /-- Every slot of leaves holds the last leaf of its names. -/
  value : ∀ {i : Nat} {slot : Slot} {kind : Kind}, shape.slots[i]? = some slot →
    slot.content.leafKind? = some kind →
    slot.HoldsLast kind (named slot.names leaves).getLast? node.cells[i]?
  /-- The last leaf of every other name is kept. -/
  unknown : ∀ name : String, node.unknown.get? name
    = if shape.keeps name then (named [name] leaves).getLast?.map Element.text else none
  /-- Every record in a slot of elements is decoded into a fresh one. -/
  records : ∀ {i : Nat} {slot : Slot} {shape' : Shape}, shape.slots[i]? = some slot →
    slot.content.shape? = some shape' → ∃ nodes : List Node,
      node.cells[i]? = some (.records nodes) ∧
      List.Forall₂
        (fun forest child =>
          dispatch none (Element.eventsOfAll forest) (fresh shape') = .ok () child)
        (slot.content.forests (named slot.names claimed)) nodes.reverse

/-! ### Slots of leaves and of elements -/

lemma shape?_eq_none_iff {content : Content} :
    content.shape? = none ↔ ∃ kind, content.leafKind? = some kind := by
  cases content <;> simp [Content.shape?, Content.openedShape?, Content.leafKind?]

lemma isClaiming_of_shape? {content : Content} {shape : Shape} (h : content.shape? = some shape) :
    content.isClaiming = true := by
  cases content with
  | leaf kind => cases h
  | flag => cases h
  | optional entity => rfl
  | list entity => rfl
  | members entity => rfl

/-! ### Reading along the frontier -/

/-- Records take in elements as if they were read by descent. -/
lemma dispatch_node (es : List Element) (node : Node) :
    dispatch none (Element.eventsOfAll es) node = readAll es node :=
  dispatch_eq_readAll node (handsBack node) es

section Frontier

variable {shape : Shape} {node : Node}

lemma claims_eq_false_iff {name : String} :
    shape.claims name = false ↔ shape.claimingSlot? name = none := by
  rw [Shape.claims, Option.isSome_eq_false_iff, Option.isNone_iff_eq_none]

lemma claims_eq_true_iff {name : String} :
    shape.claims name = true ↔ ∃ i content, shape.claimingSlot? name = some (i, content) := by
  rw [Shape.claims, Option.isSome_iff_exists, Prod.exists]

/-- The claimed names are those of the slots that claim elements. -/
lemma claims_iff_exists_slot {name : String} : shape.claims name = true ↔
    ∃ slot ∈ shape.slots, slot.content.isClaiming = true ∧ name ∈ slot.names := by
  rw [claims_eq_true_iff]
  constructor
  · rintro ⟨i, content, hslot⟩
    obtain ⟨slot, hi, rfl, hclaiming, hname⟩ := Shape.claimingSlot?_eq_some_iff.1 hslot
    exact ⟨slot, List.mem_of_getElem? hi, hclaiming, hname⟩
  · rintro ⟨slot, hslot, hclaiming, hname⟩
    obtain ⟨i, hi⟩ := List.mem_iff_getElem?.1 hslot
    exact ⟨i, slot.content, Shape.claimingSlot?_of_mem hi hclaiming hname⟩

/-- Reading elements keeps the shape of a record. -/
lemma shape_of_readAll {es : List Element} {node' : Node} (h : readAll es node = .ok () node') :
    node'.shape = node.shape := by
  have hevolves := evolves_readAll es node
  rw [leave_of_eq_ok h] at hevolves
  exact shape_eq_of_evolves hevolves

mutual

/-- Reading an element reads its frontier. -/
theorem readAll_frontier_singleton (e : Element) {node : Node} (hshape : node.shape = shape) :
    readAll (frontier shape.claims [e]) node = readElement e node := by
  cases hwhole : shape.claims e.name || e.isLeaf with
  | true => rw [frontier_singleton_of_whole hwhole, readAll_singleton]
  | false =>
    rcases e with ⟨name, attributes, children, text⟩
    obtain ⟨hclaims, hleaf⟩ := Bool.or_eq_false_iff.1 hwhole
    have hunclaimed : Receiver.claim node name attributes = (false, node) :=
      claim_of_none (hshape ▸ claims_eq_false_iff.1 hclaims)
    have hchildren : children ≠ [] := by simpa [Element.isLeaf] using hleaf
    rw [frontier_singleton_of_not_whole hwhole, readElement_of_unclaimed hunclaimed hchildren]
    exact readAll_frontier children hshape

/-- Reading a forest reads its frontier. -/
theorem readAll_frontier (forest : List Element) {node : Node} (hshape : node.shape = shape) :
    readAll (frontier shape.claims forest) node = readAll forest node := by
  cases forest with
  | nil => rfl
  | cons e rest =>
    rw [← List.singleton_append, frontier_append, readAll_append,
      readAll_frontier_singleton e hshape, readAll_append, readAll_singleton]
    cases hread : readElement e node with
    | ok _ node' =>
      have hshape' : node'.shape = shape := by
        rw [← hshape]
        exact shape_of_readAll (by rw [readAll_singleton, hread])
      exact readAll_frontier rest hshape'
    | error error node' => rfl

end

end Frontier

/-! ### One element more -/

variable {shape : Shape} {ls cs : List Element} {node node' : Node} {e : Element}

theorem fills_fresh (shape : Shape) : Fills shape [] [] (fresh shape) := by
  constructor
  · rfl
  · simp [fresh]
  · intro i slot kind hslot _
    simp [Slot.HoldsLast, named, fresh, hslot]
  · intro name
    simp [named, fresh]
  · intro i slot shape' hslot hshape
    have hcell : (fresh shape).cells[i]? = some (freshCell slot.content) := by
      simp [fresh, hslot]
    rw [hcell]
    cases hcontent : slot.content with
    | leaf kind => simp [hcontent, Content.shape?, Content.openedShape?] at hshape
    | flag => simp [hcontent, Content.shape?, Content.openedShape?] at hshape
    | optional entity => exact ⟨[], rfl, .nil⟩
    | list entity =>
      rw [hcontent] at hshape
      cases hshape
      exact ⟨[emptyCollector itemMarker entity], rfl, .cons rfl .nil⟩
    | members entity => exact ⟨[], rfl, .nil⟩

/-- What is found under a name after a leaf that fills no slot. -/
lemma get?_takeUnknown {name : String} (h : node.shape.leafSlot? name = none) (text n : String) :
    (node.takeUnknown name text).unknown.get? n
      = if n = name ∧ node.shape.keeps name = true then some text else node.unknown.get? n := by
  cases hleftovers : node.shape.leftovers with
  | dropped => simp [takeUnknown, Shape.keeps, hleftovers]
  | kept key isOmitted =>
    by_cases hitem : name = itemMarker
    · simp [takeUnknown, Shape.keeps, hleftovers, recordUnknown, hitem]
    · simp [takeUnknown, Shape.keeps, hleftovers, recordUnknown, hitem, h, TextMap.get?_insert]

lemma exists_freshCell_of_leafKind? {content : Content} {kind : Kind}
    (h : content.leafKind? = some kind) : ∃ value?, freshCell content = .value value? := by
  cases content with
  | leaf kind => exact ⟨none, rfl⟩
  | flag => exact ⟨some (.boolean false), rfl⟩
  | optional entity => cases h
  | list entity => cases h
  | members entity => cases h

/-- A slot of leaves holds a value, or none. -/
lemma exists_value_of_holdsLast {slot : Slot} {kind kind' : Kind} {last? : Option Element}
    {cell? : Option (Cell Node)} (hkind : slot.content.leafKind? = some kind')
    (h : slot.HoldsLast kind last? cell?) : ∃ value?, cell? = some (.value value?) := by
  cases last? with
  | some e =>
    obtain ⟨value, -, hcell⟩ := h
    exact ⟨_, hcell⟩
  | none =>
    obtain ⟨value?, hvalue⟩ := exists_freshCell_of_leafKind? hkind
    exact ⟨value?, hvalue ▸ h⟩

lemma not_keeps_of_leafSlot? {name : String} {slot : Nat × Kind}
    (h : shape.leafSlot? name = some slot) : shape.keeps name = false := by
  rw [Shape.keeps]
  split
  · rfl
  · simp [h]

/-- A leaf that fills no slot adds to what is kept by name. -/
lemma Fills.addUnknown (h : Fills shape ls cs node) (hslot : shape.leafSlot? e.name = none) :
    Fills shape (ls ++ [e]) cs (node.takeUnknown e.name e.text) := by
  obtain rfl := h.shape_eq
  constructor
  · rw [shape_takeUnknown]
  · rw [cells_takeUnknown]
    exact h.length_cells
  · intro i slot kind hi hkind
    have hname : e.name ∉ slot.names := by
      intro hmem
      cases hslot.symm.trans (Shape.leafSlot?_of_mem hi hkind hmem)
    rw [named_concat_of_notMem _ hname, cells_takeUnknown]
    exact h.value hi hkind
  · intro name
    rw [get?_takeUnknown hslot, h.unknown]
    by_cases hname : name = e.name
    · subst hname
      rw [named_concat_of_mem _ (List.mem_singleton_self _)]
      cases hkeeps : node.shape.keeps e.name <;> simp
    · rw [named_concat_of_notMem _ (by simpa using Ne.symm hname)]
      simp [hname]
  · intro i slot shape' hi hshape
    rw [cells_takeUnknown]
    exact h.records hi hshape

/-- A leaf that fills a slot takes the place of what filled it before. -/
lemma Fills.addValue {i₀ : Nat} {kind₀ : Kind} {value : Scalar} (h : Fills shape ls cs node)
    (hslot : shape.leafSlot? e.name = some (i₀, kind₀))
    (hread : kind₀.read e.name e.text = .ok value) :
    Fills shape (ls ++ [e]) cs (node.modifyCell i₀ fun _ => .value (some value)) := by
  obtain ⟨s₀, hi₀, hkind₀, hname₀⟩ := Shape.leafSlot?_eq_some_iff.1 hslot
  constructor
  · exact h.shape_eq
  · rw [length_cells_modifyCell]
    exact h.length_cells
  · intro i slot kind hi hkind
    by_cases hii : i₀ = i
    · subst hii
      cases hi₀.symm.trans hi
      cases hkind₀.symm.trans hkind
      obtain ⟨cell, hcell⟩ := exists_value_of_holdsLast hkind (h.value hi hkind)
      rw [named_concat_of_mem _ hname₀, List.getLast?_concat, cells_modifyCell_self hcell]
      exact ⟨value, hread, rfl⟩
    · -- the slots of a shape are apart, so the leaf is none of this one
      have hname : e.name ∉ slot.names := by
        intro hmem
        cases hslot.symm.trans (Shape.leafSlot?_of_mem hi hkind hmem)
        exact hii rfl
      rw [named_concat_of_notMem _ hname, cells_modifyCell_of_ne hii]
      exact h.value hi hkind
  · intro name
    rw [unknown_modifyCell, h.unknown]
    by_cases hname : name = e.name
    · subst hname
      simp [not_keeps_of_leafSlot? hslot]
    · rw [named_concat_of_notMem _ (by simpa using Ne.symm hname)]
  · intro i slot shape' hi hshape
    have hii : i₀ ≠ i := by
      rintro rfl
      cases hi₀.symm.trans hi
      exact absurd hshape (by simp [shape?_eq_none_iff.2 ⟨_, hkind₀⟩])
    rw [cells_modifyCell_of_ne hii]
    exact h.records hi hshape

/-- Taking in a leaf adds it to the leaves that fill the record. -/
theorem Fills.addLeaf (h : Fills shape ls cs node)
    (htake : Receiver.takeLeaf e.name e.text node = .ok () node') :
    Fills shape (ls ++ [e]) cs node' := by
  cases hslot : node.shape.leafSlot? e.name with
  | none =>
    rw [takeLeaf_of_none hslot] at htake
    cases htake
    exact h.addUnknown (h.shape_eq ▸ hslot)
  | some slot =>
    obtain ⟨i, kind⟩ := slot
    cases hread : kind.read e.name e.text with
    | error error =>
      rw [takeLeaf_of_error hslot hread] at htake
      cases htake
    | ok value =>
      rw [takeLeaf_of_ok hslot hread] at htake
      cases htake
      exact h.addValue (h.shape_eq ▸ hslot) hread

/-! ### One claimed element more -/

/-- The records of a slot that stay when an element opens that it claims, last one first. -/
def Content.older (content : Content) (records : List Node) : List Node :=
  match content with
  | .members _ => records
  | _ => []

lemma openedCell_records {content : Content} {shape' : Shape} {records : List Node}
    (h : content.openedShape? (Cell.records records).marker = some shape') :
    openedCell content (.records records) = .records (fresh shape' :: content.older records) := by
  cases content <;> cases h <;> rfl

/-- A claimed element is read into a fresh record, which is put before the older ones. -/
lemma readElement_of_claimingSlot {i : Nat} {content : Content} {shape' : Shape}
    {records : List Node} (hslot : node.shape.claimingSlot? e.name = some (i, content))
    (hshape : content.openedShape? (Cell.records records).marker = some shape')
    (hcell : node.cells[i]? = some (.records records)) :
    readElement e node
      = putInto (fun child => node.modifyCell i fun _ => .records (child :: content.older records))
          (readAll e.children (fresh shape')) := by
  rcases e with ⟨name, attributes, children, text⟩
  have hclaim : Receiver.claim node name attributes
      = (true, node.modifyCell i (openedCell content)) := claim_of_some hslot
  have hopened : node.modifyCell i (openedCell content)
      = node.modifyCell i fun _ => .records (fresh shape' :: content.older records) :=
    modifyCell_congr hcell (openedCell_records hshape)
  rw [hopened] at hclaim
  by_cases hchildren : children = []
  · subst hchildren
    rw [readElement_of_claimed_nil hclaim, readAll_nil, putInto_ok]
  · have hchild : Receiver.child? (node.modifyCell i fun _ => .records (fresh shape' ::
        content.older records)) name = some (fresh shape') :=
      child?_eq_some_iff.2 ⟨i, content, _, hslot, cells_modifyCell_self hcell _⟩
    rw [readElement_of_claimed hclaim hchildren hchild]
    congr 1
    funext child
    rw [withChild_of_some (by exact hslot), modifyCell_modifyCell]
    rfl

/-- One claimed element more fills a slot with its record. -/
lemma forall₂_forests_concat {content : Content} {R : List Element → Node → Prop}
    {es : List Element} {records : List Node} {child : Node} {shape' : Shape}
    (hshape : content.shape? = some shape')
    (h : List.Forall₂ R (content.forests es) records.reverse) (hchild : R e.children child) :
    List.Forall₂ R (content.forests (es ++ [e])) (child :: content.older records).reverse := by
  cases content with
  | leaf kind => cases hshape
  | flag => cases hshape
  | optional entity => simpa [Content.forests, Content.older] using hchild
  | list entity => simpa [Content.forests, Content.older] using hchild
  | members entity =>
    simp only [Content.forests, Content.older, List.map_append, List.reverse_cons] at h ⊢
    exact List.rel_append h (.cons hchild .nil)

/-- The record of a claimed element is put into the slot that claims it. -/
lemma Fills.addRecord {i₀ : Nat} {s₀ : Slot} {shape' : Shape} {records : List Node} {child : Node}
    (h : Fills shape ls cs node) (hi₀ : shape.slots[i₀]? = some s₀) (hname₀ : e.name ∈ s₀.names)
    (hshape' : s₀.content.shape? = some shape') (hcell : node.cells[i₀]? = some (.records records))
    (hchild : dispatch none (Element.eventsOfAll e.children) (fresh shape') = .ok () child) :
    Fills shape ls (cs ++ [e])
      (node.modifyCell i₀ fun _ => .records (child :: s₀.content.older records)) := by
  have hslot := Shape.claimingSlot?_of_mem hi₀ (isClaiming_of_shape? hshape') hname₀
  constructor
  · exact h.shape_eq
  · rw [length_cells_modifyCell]
    exact h.length_cells
  · intro i slot kind hi hkind
    have hii : i₀ ≠ i := by
      rintro rfl
      cases hi₀.symm.trans hi
      exact absurd hshape' (by simp [shape?_eq_none_iff.2 ⟨_, hkind⟩])
    rw [cells_modifyCell_of_ne hii]
    exact h.value hi hkind
  · exact h.unknown
  · intro i slot shape'' hi hshape''
    by_cases hii : i₀ = i
    · subst hii
      cases hi₀.symm.trans hi
      cases hshape'.symm.trans hshape''
      obtain ⟨records', hcell', hrecords⟩ := h.records hi hshape''
      cases hcell.symm.trans hcell'
      refine ⟨_, cells_modifyCell_self hcell _, ?_⟩
      rw [named_concat_of_mem _ hname₀]
      exact forall₂_forests_concat hshape' hrecords hchild
    · -- the slots of a shape are apart, so this one does not claim the element
      have hname : e.name ∉ slot.names := by
        intro hmem
        have hslot' := Shape.claimingSlot?_of_mem hi (isClaiming_of_shape? hshape'') hmem
        exact hii (congrArg Prod.fst (Option.some.inj (hslot.symm.trans hslot')))
      rw [named_concat_of_notMem _ hname, cells_modifyCell_of_ne hii]
      exact h.records hi hshape''

/-- The list in a slot of a record that is filled has the usual marker, as it had at first. -/
lemma Fills.openedShape?_eq {i : Nat} {slot : Slot} {shape' : Shape} {cell : Cell Node}
    (h : Fills shape ls cs node) (hi : shape.slots[i]? = some slot)
    (hshape : slot.content.shape? = some shape') (hcell : node.cells[i]? = some cell) :
    slot.content.openedShape? cell.marker = some shape' := by
  obtain ⟨nodes, hnodes, hread⟩ := h.records hi hshape
  cases hcell.symm.trans hnodes
  cases hcontent : slot.content with
  | list entity =>
    rw [hcontent] at hshape hread
    cases hshape
    obtain ⟨list, rest, hlist, hrest, hreverse⟩ := List.forall₂_cons_left_iff.1 hread
    obtain rfl := List.forall₂_nil_left_iff.1 hrest
    obtain rfl : nodes = [list] := List.reverse_eq_iff.1 hreverse
    rw [dispatch_node] at hlist
    have hmarker : (Cell.records [list]).marker = itemMarker := by
      simp [Cell.marker, Cell.newest?, Cell.nodes, marker?, shape_of_readAll hlist, fresh]
    rw [Content.openedShape?, hmarker]
  | _ =>
    rw [hcontent] at hshape
    exact hshape

/-- Reading a claimed element adds it to the claimed elements that fill the record. -/
theorem Fills.addClaimed (h : Fills shape ls cs node) (hclaims : shape.claims e.name = true)
    (hread : readElement e node = .ok () node') :
    Fills shape ls (cs ++ [e]) node' := by
  obtain rfl := h.shape_eq
  obtain ⟨i, content, hslot⟩ := claims_eq_true_iff.1 hclaims
  obtain ⟨slot, hi, rfl, hclaiming, hname⟩ := Shape.claimingSlot?_eq_some_iff.1 hslot
  obtain ⟨shape', hshape'⟩ : ∃ shape', slot.content.shape? = some shape' :=
    exists_openedShape? hclaiming itemMarker
  obtain ⟨records, hcell, -⟩ := h.records hi hshape'
  rw [readElement_of_claimingSlot hslot (h.openedShape?_eq hi hshape' hcell) hcell,
    ← dispatch_node] at hread
  cases hchild : dispatch none (Element.eventsOfAll e.children) (fresh shape') with
  | error error child =>
    rw [hchild] at hread
    cases hread
  | ok _ child =>
    rw [hchild] at hread
    cases hread
    exact h.addRecord hi hname hshape' hcell hchild

/-! ### Forests -/

variable {forest : List Element}

/-- Reading an element that is taken in as a whole adds it to the leaves or to the claimed
elements. -/
theorem Fills.addWhole (h : Fills shape ls cs node)
    (hwhole : (shape.claims e.name || e.isLeaf) = true)
    (hread : readElement e node = .ok () node') :
    Fills shape (ls ++ [e].filter fun e => !shape.claims e.name)
      (cs ++ [e].filter fun e => shape.claims e.name) node' := by
  cases hclaims : shape.claims e.name with
  | true =>
    have hls : [e].filter (fun e => !shape.claims e.name) = [] := by simp [hclaims]
    have hcs : [e].filter (fun e => shape.claims e.name) = [e] := by simp [hclaims]
    rw [hls, hcs, List.append_nil]
    exact h.addClaimed hclaims hread
  | false =>
    have hls : [e].filter (fun e => !shape.claims e.name) = [e] := by simp [hclaims]
    have hcs : [e].filter (fun e => shape.claims e.name) = [] := by simp [hclaims]
    rw [hls, hcs, List.append_nil]
    rcases e with ⟨name, attributes, children, text⟩
    obtain rfl : children = [] := by simpa [hclaims, Element.isLeaf] using hwhole
    have hunclaimed : Receiver.claim node name attributes = (false, node) :=
      claim_of_none (h.shape_eq ▸ claims_eq_false_iff.1 hclaims)
    rw [readElement_leaf hunclaimed] at hread
    exact h.addLeaf hread

/-- Elements that are all taken in as a whole fill a record one after the other. -/
lemma fills_of_readAll_whole {es : List Element}
    (hes : ∀ e ∈ es, (shape.claims e.name || e.isLeaf) = true)
    (hread : readAll es (fresh shape) = .ok () node) :
    Fills shape (es.filter fun e => !shape.claims e.name) (es.filter fun e => shape.claims e.name)
      node := by
  induction es using List.reverseRecOn generalizing node with
  | nil =>
    cases hread
    exact fills_fresh shape
  | append_singleton es e ih =>
    obtain ⟨mid, hmid, hlast⟩ := exists_of_readAll_concat hread
    have hfills := ih (fun e he => hes e (List.mem_append_left _ he)) hmid
    rw [List.filter_append, List.filter_append]
    exact hfills.addWhole (hes e (List.mem_append_right _ (List.mem_singleton_self e))) hlast

/-- A record that is read from a forest is filled by the leaves and by the claimed elements in
scope. -/
theorem fills_of_readAll (hread : readAll forest (fresh shape) = .ok () node) :
    Fills shape (leaves shape.claims forest) (claimed shape.claims forest) node := by
  rw [← readAll_frontier forest rfl] at hread
  have hfills := fills_of_readAll_whole (fun e he => whole_of_mem_frontier he) hread
  rwa [filter_frontier_leaves, filter_frontier_claimed] at hfills

end CloudCodec.Response
