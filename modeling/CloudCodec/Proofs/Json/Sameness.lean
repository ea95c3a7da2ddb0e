/-
# Values that differ in the order of fields only

The fields of an object are found by name, so two values are the same if they differ at most in the
order of the fields of their objects (`Same`).  This is a comparison by what is found under each
name, and it says what it should of objects in which no name occurs twice (`HasDistinctNames`).
-/
import CloudCodec.Json.Basic
import Mathlib.Data.List.Forall2
import Mathlib.Tactic.Lemma

namespace CloudCodec.Json

/-- The values are the same, apart from the order of the fields of objects. -/
inductive Same : Json → Json → Prop
  | refl (value : Json) : Same value value
  | array {elements elements' : List Json} :
      List.Forall₂ Same elements elements' → Same (.array elements) (.array elements')
  | object {fields fields' : List (String × Json)} :
      (∀ name, Option.Rel Same (fields.lookup name) (fields'.lookup name)) →
      Same (.object fields) (.object fields')

/-- No object inside of the value has two fields of one name. -/
inductive HasDistinctNames : Json → Prop
  | null : HasDistinctNames .null
  | boolean (b : Bool) : HasDistinctNames (.boolean b)
  | integer (n : Int) : HasDistinctNames (.integer n)
  | real (spelling : String) : HasDistinctNames (.real spelling)
  | text (s : String) : HasDistinctNames (.text s)
  | unreadable : HasDistinctNames .unreadable
  | array {elements : List Json} :
      (∀ element ∈ elements, HasDistinctNames element) → HasDistinctNames (.array elements)
  | object {fields : List (String × Json)} :
      (fields.map Prod.fst).Nodup → (∀ field ∈ fields, HasDistinctNames field.2) →
      HasDistinctNames (.object fields)

variable {elements elements' : List Json} {fields fields' : List (String × Json)} {value : Json}

lemma rel_refl (value? : Option Json) : Option.Rel Same value? value? := by
  cases value? with
  | none => exact .none
  | some value => exact .some (.refl value)

lemma Same.array_iff :
    Same (.array elements) (.array elements') ↔ List.Forall₂ Same elements elements' := by
  constructor
  · intro h
    cases h with
    | refl => exact List.forall₂_same.2 fun value _ => .refl value
    | array h => exact h
  · exact .array

lemma Same.object_iff : Same (.object fields) (.object fields') ↔
    ∀ name, Option.Rel Same (fields.lookup name) (fields'.lookup name) := by
  constructor
  · intro h name
    cases h with
    | refl => exact rel_refl _
    | object h => exact h name
  · exact .object

lemma Same.eq_null (h : Same .null value) : value = .null := by
  cases h
  rfl

lemma Same.eq_null_of_right (h : Same value .null) : value = .null := by
  cases h
  rfl

lemma Same.text_iff {s t : String} : Same (.text s) (.text t) ↔ s = t := by
  constructor
  · intro h
    cases h
    rfl
  · rintro rfl
    exact .refl _

end CloudCodec.Json
