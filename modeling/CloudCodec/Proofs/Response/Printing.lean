/-
# Printed records

A record that is not a list is printed as an object.  Each slot gives at most one field
(`Slot.json?`), under its key, and the leaves that fill no slot give one at most.  The keys of a
shape are all different (`nodup_keys`), so what is found under the key of a slot is what is printed
for its cell (`lookup_fields`), and no name occurs twice in an object (`hasDistinctNames_toJson`).
-/
import CloudCodec.Proofs.Json.Sameness
import CloudCodec.Proofs.TextMap
import CloudCodec.Response.Printer

namespace CloudCodec.Response

open Decode (Scalar)

variable {node : Node} {slot : Slot} {cell : Cell Node} {i : Nat} {name key : String}
  {isOmitted : Bool} {value : Json}

/-- What holds of a record if it holds of all records in its cells holds of every record. -/
@[elab_as_elim]
theorem Node.induction {motive : Node → Prop}
    (step : ∀ node : Node, (∀ cell ∈ node.cells, ∀ child ∈ cell.nodes, motive child) → motive node)
    (node : Node) : motive node := by
  refine step node ?_
  intro cell hcell child hchild
  have hlt : sizeOf child < sizeOf node := by
    cases cell with
    | value value? => cases hchild
    | records nodes =>
      have hnodes : sizeOf child < sizeOf nodes := List.sizeOf_lt_of_mem hchild
      have hcells : sizeOf (Cell.records nodes) < sizeOf node.cells := List.sizeOf_lt_of_mem hcell
      cases node
      simp only [Cell.records.sizeOf_spec, Node.mk.sizeOf_spec] at hcells ⊢
      omega
  exact induction step child
termination_by sizeOf node

/-! ### Slots -/

/-- What is printed for a slot that holds nothing. -/
def Slot.blank? (slot : Slot) : Option Json := if slot.isOmitted then none else some .null

/-- What is printed for a slot, unless it is left out. -/
def Slot.json? (slot : Slot) : Cell Node → Option Json
  | .value (some v) => some (scalarJson v)
  | .value none => slot.blank?
  | .records nodes =>
    match slot.content with
    | .members _ => some (.array (nodes.reverse.map Node.toJson))
    | _ => (nodes.head?.map Node.toJson).or slot.blank?

lemma nodesJson_eq (done : List Json) (nodes : List Node) :
    nodesJson done nodes = nodes.reverse.map Node.toJson ++ done := by
  induction nodes generalizing done with
  | nil => rfl
  | cons node older ih => rw [nodesJson, ih, List.reverse_cons, List.map_append, List.append_assoc,
      List.map_singleton, List.singleton_append]

lemma cellField_eq (slot : Slot) (cell : Cell Node) :
    cellField slot cell = ((slot.json? cell).map (slot.key, ·)).toList := by
  cases cell with
  | value value? =>
    cases value? with
    | some v => rfl
    | none =>
      rw [cellField, Slot.json?, Slot.blank?]
      split_ifs <;> rfl
  | records nodes =>
    rw [cellField.eq_def, Slot.json?]
    cases nodes with
    | nil =>
      rw [List.head?_nil, Option.map_none, Option.none_or, Slot.blank?]
      cases slot.content with
      | members entity => rfl
      | _ =>
        simp only
        split_ifs <;> rfl
    | cons node older =>
      cases slot.content with
      | members entity => simp [nodesJson_eq]
      | _ => rfl

/-- The fields of the slots are those that the cells give. -/
lemma mem_cellFields {slots : List Slot} {cells : List (Cell Node)} :
    (name, value) ∈ cellFields slots cells ↔ ∃ (i : Nat) (slot : Slot) (cell : Cell Node),
      slots[i]? = some slot ∧ cells[i]? = some cell ∧ slot.key = name ∧
        slot.json? cell = some value := by
  induction slots generalizing cells with
  | nil => simp [cellFields]
  | cons slot slots ih =>
    cases cells with
    | nil => simp [cellFields]
    | cons cell cells =>
      rw [cellFields, List.mem_append, cellField_eq, ih]
      constructor
      · rintro (h | ⟨i, h⟩)
        · obtain ⟨value', hvalue', heq⟩ := Option.map_eq_some_iff.1 (Option.mem_toList.1 h)
          cases heq
          exact ⟨0, slot, cell, rfl, rfl, rfl, hvalue'⟩
        · exact ⟨i + 1, h⟩
      · rintro ⟨i, slot', cell', hslot, hcell, rfl, hvalue⟩
        cases i with
        | zero =>
          cases hslot
          cases hcell
          exact .inl (Option.mem_toList.2 (by rw [hvalue]; rfl))
        | succ i => exact .inr ⟨i, slot', cell', hslot, hcell, rfl, hvalue⟩

/-! ### The fields of a record -/

/-- The key under which leaves that fill no slot are printed, if they are kept. -/
def Leftovers.key? : Leftovers → Option String
  | .dropped => none
  | .kept key _ => some key

/-- What is printed for the leaves that fill no slot, unless it is left out. -/
def Leftovers.json? (leftovers : Leftovers) (unknown : TextMap) : Option Json :=
  match leftovers with
  | .dropped => none
  | .kept _ isOmitted =>
    if isOmitted && unknown.isEmpty then none else some (.ofPairs unknown.entries)

/-- The fields of a record that is printed as an object. -/
def Node.fields (node : Node) : List (String × Json) :=
  cellFields node.shape.slots node.cells ++ leftoverFields node.shape.leftovers node.unknown

lemma Node.toJson_eq_object (h : ∀ marker entity, node.shape ≠ .collector marker entity) :
    node.toJson = .object node.fields := by
  obtain ⟨shape, cells, unknown⟩ := node
  cases shape with
  | collector marker entity => exact absurd rfl (h marker entity)
  | entity entity => rfl
  | page marker entity => rfl
  | status => rfl
  | generic => rfl

/-- A list is printed as the array of its members. -/
lemma Node.toJson_collector (marker : String) (entity : Entity) (nodes : List Node)
    (unknown : TextMap) : Node.toJson ⟨.collector marker entity, [.records nodes], unknown⟩
      = .array (nodes.reverse.map Node.toJson) := by
  rw [Node.toJson, collectedJson, nodesJson_eq, List.append_nil]

/-- A record of the shape of a list is printed as an array of records in its cells. -/
lemma Node.exists_toJson_eq_array {marker : String} {entity : Entity}
    (h : node.shape = .collector marker entity) : ∃ nodes : List Node,
      (∀ child ∈ nodes, ∃ cell ∈ node.cells, child ∈ cell.nodes) ∧
      node.toJson = .array (nodes.reverse.map Node.toJson) := by
  obtain ⟨shape, cells, unknown⟩ := node
  cases h
  by_cases hcells : ∃ nodes : List Node, cells = [.records nodes]
  · obtain ⟨nodes, rfl⟩ := hcells
    exact ⟨nodes, fun child hchild => ⟨_, List.mem_singleton_self _, hchild⟩,
      toJson_collector marker entity nodes unknown⟩
  · refine ⟨[], by simp, ?_⟩
    rw [Node.toJson, collectedJson.eq_def]
    split
    · exact absurd ⟨_, rfl⟩ hcells
    · rfl

lemma mem_leftoverFields {leftovers : Leftovers} {unknown : TextMap} :
    (name, value) ∈ leftoverFields leftovers unknown ↔
      leftovers.key? = some name ∧ leftovers.json? unknown = some value := by
  cases leftovers with
  | dropped => simp [leftoverFields, Leftovers.key?]
  | kept key isOmitted =>
    rw [leftoverFields, Leftovers.key?, Leftovers.json?]
    split_ifs <;> simp [eq_comm]

lemma Node.mem_fields : (name, value) ∈ node.fields ↔
    (∃ (i : Nat) (slot : Slot) (cell : Cell Node), node.shape.slots[i]? = some slot ∧
      node.cells[i]? = some cell ∧ slot.key = name ∧ slot.json? cell = some value) ∨
    node.shape.leftovers.key? = some name ∧
      node.shape.leftovers.json? node.unknown = some value := by
  rw [Node.fields, List.mem_append, mem_cellFields, mem_leftoverFields]

/-! ### Keys -/

/-- The keys under which a record is printed are all different. -/
theorem Shape.nodup_keys (shape : Shape) :
    (shape.slots.map Slot.key ++ shape.leftovers.key?.toList).Nodup := by
  cases shape with
  | entity entity => cases entity <;> decide
  | collector marker entity => exact List.nodup_singleton _
  | page marker entity =>
    -- the marker is a name of elements and no key
    change ["items", "request_id", "next_token", "is_truncated"].Nodup
    decide
  | status => decide
  | generic => decide

lemma names_cellFields (slots : List Slot) (cells : List (Cell Node)) :
    ((cellFields slots cells).map Prod.fst).Sublist (slots.map Slot.key) := by
  induction slots generalizing cells with
  | nil => simp [cellFields]
  | cons slot slots ih =>
    cases cells with
    | nil => exact List.nil_sublist _
    | cons cell cells =>
      rw [cellFields, List.map_append, cellField_eq, List.map_cons]
      cases slot.json? cell with
      | none => exact (ih cells).cons _
      | some value => exact (ih cells).cons_cons _

lemma names_leftoverFields (leftovers : Leftovers) (unknown : TextMap) :
    ((leftoverFields leftovers unknown).map Prod.fst).Sublist leftovers.key?.toList := by
  cases leftovers with
  | dropped => exact .slnil
  | kept key isOmitted =>
    rw [leftoverFields]
    split_ifs
    · exact List.nil_sublist _
    · exact List.Sublist.refl _

lemma Node.nodup_names_fields (node : Node) : (node.fields.map Prod.fst).Nodup := by
  rw [Node.fields, List.map_append]
  exact ((names_cellFields _ _).append (names_leftoverFields _ _)).nodup node.shape.nodup_keys

/-- What is found under the key of a slot is what is printed for its cell. -/
lemma Node.lookup_fields (hslot : node.shape.slots[i]? = some slot)
    (hcell : node.cells[i]? = some cell) : node.fields.lookup slot.key = slot.json? cell := by
  obtain ⟨hslots, -, hleft⟩ := List.nodup_append.1 node.shape.nodup_keys
  refine Option.ext fun value => ?_
  rw [TextMap.lookup_eq_some_iff node.nodup_names_fields, Node.mem_fields]
  constructor
  · rintro (⟨j, slot', cell', hslot', hcell', hkey, hvalue⟩ | ⟨hkey, -⟩)
    · have hij : (node.shape.slots.map Slot.key)[j]? = (node.shape.slots.map Slot.key)[i]? := by
        rw [List.getElem?_map, List.getElem?_map, hslot, hslot', Option.map_some, Option.map_some,
          hkey]
      have hlt : j < (node.shape.slots.map Slot.key).length := by
        rw [List.length_map]
        exact (List.getElem?_eq_some_iff.1 hslot').1
      obtain rfl := (List.getElem?_inj hlt hslots).1 hij
      cases hslot.symm.trans hslot'
      cases hcell.symm.trans hcell'
      exact hvalue
    · exact absurd rfl (hleft _ (List.mem_map_of_mem (List.mem_of_getElem? hslot)) _
        (Option.mem_toList.2 hkey))
  · intro hvalue
    exact .inl ⟨i, slot, cell, hslot, hcell, rfl, hvalue⟩

/-- What is found under the key of the leaves that fill no slot. -/
lemma Node.lookup_leftovers (hkey : node.shape.leftovers.key? = some key) :
    node.fields.lookup key = node.shape.leftovers.json? node.unknown := by
  obtain ⟨-, -, hleft⟩ := List.nodup_append.1 node.shape.nodup_keys
  refine Option.ext fun value => ?_
  rw [TextMap.lookup_eq_some_iff node.nodup_names_fields, Node.mem_fields]
  constructor
  · rintro (⟨j, slot, cell, hslot, -, rfl, -⟩ | ⟨-, hvalue⟩)
    · exact absurd rfl (hleft _ (List.mem_map_of_mem (List.mem_of_getElem? hslot)) _
        (Option.mem_toList.2 hkey))
    · exact hvalue
  · intro hvalue
    exact .inr ⟨hkey, hvalue⟩

/-! ### Repeated names -/

lemma hasDistinctNames_scalarJson (v : Scalar) : (scalarJson v).HasDistinctNames := by
  cases v with
  | text s => exact .text s
  | boolean b => exact .boolean b
  | integer n => exact .integer n
  | decimal d => exact .text d.text

lemma hasDistinctNames_ofPairs (m : TextMap) : (Json.ofPairs m.entries).HasDistinctNames := by
  refine .object ?_ ?_
  · rw [List.map_map]
    exact m.sorted.nodup_names
  · intro field hfield
    obtain ⟨p, -, rfl⟩ := List.mem_map.1 hfield
    exact .text p.2

lemma Slot.eq_null_of_blank? (h : slot.blank? = some value) : value = .null := by
  rw [Slot.blank?] at h
  split_ifs at h
  exact (Option.some.inj h).symm

/-- Records are printed as an array, or the last one is. -/
lemma Slot.json?_records (slot : Slot) (nodes : List Node) :
    slot.json? (.records nodes) = some (.array (nodes.reverse.map Node.toJson)) ∨
      slot.json? (.records nodes) = (nodes.head?.map Node.toJson).or slot.blank? := by
  rw [Slot.json?]
  split
  · exact .inl rfl
  · exact .inr rfl

lemma hasDistinctNames_array {nodes : List Node}
    (h : ∀ child ∈ nodes, child.toJson.HasDistinctNames) :
    (Json.array (nodes.reverse.map Node.toJson)).HasDistinctNames := by
  refine .array ?_
  intro element helement
  obtain ⟨child, hchild, rfl⟩ := List.mem_map.1 helement
  exact h child (List.mem_reverse.1 hchild)

/-- Where no name is repeated in the records of a cell, none is in what is printed for it. -/
lemma Slot.hasDistinctNames_json? (hnodes : ∀ child ∈ cell.nodes, child.toJson.HasDistinctNames)
    (h : slot.json? cell = some value) : value.HasDistinctNames := by
  cases cell with
  | value value? =>
    cases value? with
    | none =>
      rw [Slot.eq_null_of_blank? h]
      exact .null
    | some v =>
      cases h
      exact hasDistinctNames_scalarJson v
  | records nodes =>
    rcases slot.json?_records nodes with hjson | hjson
    · cases hjson.symm.trans h
      exact hasDistinctNames_array hnodes
    · rw [hjson, Option.or_eq_some_iff] at h
      rcases h with hfirst | ⟨-, hblank⟩
      · obtain ⟨child, hchild, rfl⟩ := Option.map_eq_some_iff.1 hfirst
        exact hnodes child (List.mem_of_mem_head? hchild)
      · rw [Slot.eq_null_of_blank? hblank]
        exact .null

/-- No name occurs twice in an object of a printed record. -/
theorem Node.hasDistinctNames_toJson (node : Node) : node.toJson.HasDistinctNames := by
  induction node using Node.induction with
  | step node ih =>
    by_cases hcollector : ∃ marker entity, node.shape = .collector marker entity
    · obtain ⟨marker, entity, hshape⟩ := hcollector
      obtain ⟨nodes, hnodes, hjson⟩ := Node.exists_toJson_eq_array hshape
      rw [hjson]
      refine hasDistinctNames_array fun child hchild => ?_
      obtain ⟨cell, hcell, hchild⟩ := hnodes child hchild
      exact ih cell hcell child hchild
    · rw [Node.toJson_eq_object (by simpa using hcollector)]
      refine .object node.nodup_names_fields ?_
      rintro ⟨name, value⟩ hfield
      rcases Node.mem_fields.1 hfield with ⟨i, slot, cell, -, hcell, -, hvalue⟩ | ⟨-, hvalue⟩
      · exact Slot.hasDistinctNames_json? (ih cell (List.mem_of_getElem? hcell)) hvalue
      · rw [Leftovers.json?.eq_def] at hvalue
        split at hvalue
        · cases hvalue
        · split_ifs at hvalue
          cases hvalue
          exact hasDistinctNames_ofPairs _

end CloudCodec.Response
