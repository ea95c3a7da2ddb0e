/-
# The parameters of an argument

The leaves of an argument are its scalars, each with the steps that lead to it: names of fields and
numbers of items.  The name of a leaf puts its steps behind a root, with dots between them.  The
encoder carries the name along while it descends, so its names are built from the left; that they
are the dotted names of the leaves is `scalars_eq_named`.

Names are texts, and different steps may be written alike.  An encoding succeeds exactly when that
happens to no two leaves, and otherwise it names the first leaf whose name an earlier one has
(`Encodes`).  The main statement is `encodes_object_and_list`.
-/
import CloudCodec.Parameter.ItemList
import CloudCodec.Proofs.TextMap
import Mathlib.Data.List.Nodup

namespace CloudCodec.Parameter

/-! ### The leaves of an argument -/

/-- A step from an argument to one inside it. -/
inductive Step
  /-- To a field of an object. -/
  | field (name : String)
  /-- To the item of a list that has a number. -/
  | item (index : Nat)

/-- How a step is written. -/
def Step.text : Step → String
  | .field name => name
  | .item index => Numeral.naturalText index

mutual

/-- The scalars of an argument in order, each with the steps that lead to it. -/
def Argument.leaves : Argument → List (List Step × Value)
  | .scalar value => [([], value)]
  | .object fields => fieldLeaves fields
  | .list numbering items => itemLeaves numbering 0 items

/-- The leaves of the fields of an object. -/
def fieldLeaves : List (String × Argument) → List (List Step × Value)
  | [] => []
  | (name, field) :: fields =>
    field.leaves.map (fun leaf => (.field name :: leaf.1, leaf.2)) ++ fieldLeaves fields

/-- The leaves of the items of a list, the first of them at a position. -/
def itemLeaves (numbering : Numbering) (position : Nat) :
    List Argument → List (List Step × Value)
  | [] => []
  | item :: items =>
    item.leaves.map (fun leaf => (.item (numbering.index position) :: leaf.1, leaf.2))
      ++ itemLeaves numbering (position + 1) items

end

/-- The name of the leaf to which some steps lead from a root. -/
def dotted (root : String) (steps : List Step) : String :=
  ".".intercalate (root :: steps.map Step.text)

/-- The leaves of an argument at a root, each as its name and its text on the wire. -/
def Argument.named (root : String) (argument : Argument) : List (String × String) :=
  argument.leaves.map fun leaf => (dotted root leaf.1, leaf.2.wire)

@[simp] lemma dotted_nil (root : String) : dotted root [] = root := rfl

/-- A step may be written behind the root at once. -/
lemma dotted_cons (root : String) (step : Step) (steps : List Step) :
    dotted root (step :: steps) = dotted (under root step.text) steps := rfl

mutual

/-- The encoder lists the leaves of an argument under their dotted names. -/
theorem scalars_eq_named (path : String) (argument : Argument) :
    argument.scalars path = argument.named path := by
  cases argument with
  | scalar value => rfl
  | object fields => exact fieldScalars_eq path fields
  | list numbering items => exact itemScalars_eq path numbering 0 items

theorem fieldScalars_eq (path : String) (fields : List (String × Argument)) :
    fieldScalars path fields
      = (fieldLeaves fields).map fun leaf => (dotted path leaf.1, leaf.2.wire) := by
  match fields with
  | [] => rfl
  | (name, field) :: fields =>
    rw [fieldScalars, fieldLeaves, List.map_append, List.map_map,
      scalars_eq_named (under path name) field, fieldScalars_eq path fields]
    rfl

theorem itemScalars_eq (path : String) (numbering : Numbering) (position : Nat)
    (items : List Argument) :
    itemScalars path numbering position items
      = (itemLeaves numbering position items).map fun leaf =>
          (dotted path leaf.1, leaf.2.wire) := by
  match items with
  | [] => rfl
  | item :: items =>
    rw [itemScalars, itemLeaves, List.map_append, List.map_map,
      scalars_eq_named _ item, itemScalars_eq path numbering (position + 1) items]
    rfl

end

/-! ### Adding parameters one after the other -/

/-- What an outcome says of the named texts that were to be encoded. -/
structure Encodes (leaves : List (String × String)) (outcome : Except Error ParameterSet) :
    Prop where
  /-- It is a success exactly when the names are pairwise distinct. -/
  isOk_iff : (∃ set, outcome = .ok set) ↔ (leaves.map Prod.fst).Nodup
  /-- The set then holds these names with these texts, and no other name. -/
  get?_eq_some_iff : ∀ set, outcome = .ok set →
    ∀ name text, set.get? name = some text ↔ (name, text) ∈ leaves
  /-- A failure tells the first name that an earlier leaf has. -/
  eq_duplicateName : ∀ e, outcome = .error e →
    ∃ before name text after, leaves = before ++ (name, text) :: after ∧
      (before.map Prod.fst).Nodup ∧ name ∈ before.map Prod.fst ∧ e = .duplicateName name

variable {set set' : ParameterSet} {leaves : List (String × String)}

lemma add_of_get?_eq_none {name : String} (h : set.get? name = none) (text : String) :
    ParameterSet.add set name text = .ok (set.insert name text) := by
  rw [ParameterSet.add, TextMap.contains_eq_false_iff.2 h]
  rfl

lemma add_of_contains {name : String} (h : set.contains name = true) (text : String) :
    ParameterSet.add set name text = .error (.duplicateName name) := by
  rw [ParameterSet.add, h]
  rfl

/-- A name that is not bound after a binding is another one, and was not bound before. -/
lemma of_get?_insert_eq_none {n t name : String} (h : (set.insert n t).get? name = none) :
    name ≠ n ∧ set.get? name = none := by
  rw [TextMap.get?_insert] at h
  split_ifs at h with hname
  exact ⟨hname, h⟩

/-- Leaves that are distinct and new behind a new one are so together with it. -/
lemma nodup_and_new_cons {n t : String} (hnew : set.get? n = none)
    (hnodup : (leaves.map Prod.fst).Nodup)
    (hfresh : ∀ leaf ∈ leaves, (set.insert n t).get? leaf.1 = none) :
    (((n, t) :: leaves).map Prod.fst).Nodup ∧
      ∀ leaf ∈ (n, t) :: leaves, set.get? leaf.1 = none := by
  constructor
  · rw [List.map_cons, List.nodup_cons]
    refine ⟨?_, hnodup⟩
    intro hmem
    obtain ⟨leaf, hleaf, heq⟩ := List.mem_map.1 hmem
    exact (of_get?_insert_eq_none (hfresh leaf hleaf)).1 heq
  · intro leaf hleaf
    rcases List.mem_cons.1 hleaf with rfl | hleaf
    · exact hnew
    · exact (of_get?_insert_eq_none (hfresh leaf hleaf)).2

/-- Once all are added, the names were distinct and new, and the set has grown by them. -/
lemma of_addAll_eq_ok (h : ParameterSet.addAll set leaves = .ok set') :
    (leaves.map Prod.fst).Nodup ∧ (∀ leaf ∈ leaves, set.get? leaf.1 = none) ∧
      ∀ name text, set'.get? name = some text ↔
        set.get? name = some text ∨ (name, text) ∈ leaves := by
  induction leaves generalizing set with
  | nil =>
    cases h
    simp
  | cons leaf rest ih =>
    obtain ⟨n, t⟩ := leaf
    cases hn : set.contains n with
    | true =>
      rw [ParameterSet.addAll, add_of_contains hn] at h
      cases h
    | false =>
      have hnew : set.get? n = none := TextMap.contains_eq_false_iff.1 hn
      rw [ParameterSet.addAll, add_of_get?_eq_none hnew] at h
      obtain ⟨hnodup, hfresh, hget⟩ := ih h
      obtain ⟨hnodup', hfresh'⟩ := nodup_and_new_cons hnew hnodup hfresh
      refine ⟨hnodup', hfresh', ?_⟩
      intro name text
      rw [hget, TextMap.get?_insert, List.mem_cons, Prod.mk.injEq]
      by_cases hname : name = n
      · subst hname
        rw [if_pos rfl, hnew]
        grind
      · rw [if_neg hname]
        grind

/-- A failure tells the first name that is bound already or that an earlier leaf has. -/
lemma of_addAll_eq_error {e : Error} (h : ParameterSet.addAll set leaves = .error e) :
    ∃ before name text after, leaves = before ++ (name, text) :: after ∧
      (before.map Prod.fst).Nodup ∧ (∀ leaf ∈ before, set.get? leaf.1 = none) ∧
      (name ∈ before.map Prod.fst ∨ set.contains name = true) ∧ e = .duplicateName name := by
  induction leaves generalizing set with
  | nil => cases h
  | cons leaf rest ih =>
    obtain ⟨n, t⟩ := leaf
    cases hn : set.contains n with
    | true =>
      rw [ParameterSet.addAll, add_of_contains hn] at h
      cases h
      exact ⟨[], n, t, rest, rfl, List.nodup_nil, by simp, Or.inr hn, rfl⟩
    | false =>
      have hnew : set.get? n = none := TextMap.contains_eq_false_iff.1 hn
      rw [ParameterSet.addAll, add_of_get?_eq_none hnew] at h
      obtain ⟨before, name, text, after, rfl, hnodup, hfresh, hmem, rfl⟩ := ih h
      obtain ⟨hnodup', hfresh'⟩ := nodup_and_new_cons hnew hnodup hfresh
      refine ⟨(n, t) :: before, name, text, after, rfl, hnodup', hfresh', ?_, rfl⟩
      rw [List.map_cons, List.mem_cons]
      rcases hmem with hmem | hmem
      · exact Or.inl (Or.inr hmem)
      · obtain ⟨t', ht'⟩ := TextMap.contains_iff.1 hmem
        rw [TextMap.get?_insert] at ht'
        split_ifs at ht' with hname
        · exact Or.inl (Or.inl hname)
        · exact Or.inr (TextMap.contains_iff.2 ⟨t', ht'⟩)

/-- Adding named texts to the empty set encodes them. -/
lemma encodes_addAll (leaves : List (String × String)) :
    Encodes leaves (ParameterSet.addAll ∅ leaves) where
  isOk_iff := by
    constructor
    · rintro ⟨set, h⟩
      exact (of_addAll_eq_ok h).1
    · intro hnodup
      cases h : ParameterSet.addAll ∅ leaves with
      | ok set => exact ⟨set, rfl⟩
      | error e =>
        obtain ⟨before, name, text, after, rfl, -, -, hmem, -⟩ := of_addAll_eq_error h
        have hbefore : name ∈ before.map Prod.fst := by
          simpa [TextMap.contains] using hmem
        rw [List.map_append, List.nodup_append] at hnodup
        exact absurd rfl (hnodup.2.2 name hbefore name (by simp))
  get?_eq_some_iff := by
    intro set h name text
    rw [(of_addAll_eq_ok h).2.2, TextMap.get?_empty]
    simp
  eq_duplicateName := by
    intro e h
    obtain ⟨before, name, text, after, hleaves, hnodup, -, hmem, he⟩ := of_addAll_eq_error h
    refine ⟨before, name, text, after, hleaves, hnodup, ?_, he⟩
    simpa [TextMap.contains] using hmem

/-! ### Objects and lists -/

/-- The leaves of the fields of an object behind a scope. -/
def Fields.named (scope : Option String) (fields : Fields) : List (String × String) :=
  fields.flatMap fun field => field.2.named (qualify scope field.1)

/-- An object behind a scope, and a list without rules, are encoded as the leaves that they have in
order: fields and items are reached through the qualified name, a dot and further steps. -/
theorem encodes_object_and_list (scope : Option String) :
    (∀ fields : Fields, Encodes (fields.named scope) (encodeObject scope fields)) ∧
      ∀ (name : String) (numbering : Numbering) (items : List Argument),
        Encodes ((Argument.list numbering items).named (qualify scope name))
          (ItemList.encode ⟨name, numbering, []⟩ scope items) := by
  constructor
  · intro fields
    have hscalars : (fields.flatMap fun field => field.2.scalars (qualify scope field.1))
        = fields.named scope := by
      simp only [Fields.named, scalars_eq_named]
    rw [encodeObject, hscalars]
    exact encodes_addAll _
  · intro name numbering items
    have hscalars := scalars_eq_named (qualify scope name) (.list numbering items)
    rw [Argument.scalars] at hscalars
    rw [ItemList.encode, ItemList.validate, List.findSome?_nil, hscalars]
    exact encodes_addAll _

-- a dotted field name and a nested field are written alike
example :
    encodeObject (some "P.") [("a", .object [("b", .scalar (.integer 1))]),
        ("a.b", .scalar (.boolean true)), ("a", .object [])]
      = .error (.duplicateName "P.a.b") := by cbv

end CloudCodec.Parameter
