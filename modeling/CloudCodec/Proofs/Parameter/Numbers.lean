/-
# The numbers that a list uses

The items of a list are numbered by their positions, but only an item with a scalar in it leaves
parameters under its number.  So the numbers in use are those of the items that are not blank
(`Argument.ListAt.numberedBy`), and they go on without a gap, as many as there are items, if and
only if no item is blank (`NumberedBy.contiguous_iff`).  Whether the fields of an object are blank
is read off the parts that they are put together from.
-/
import CloudCodec.Proofs.Parameter.Paths
import Mathlib

namespace CloudCodec.Parameter

/-! ### Numbers in use -/

/-- A set has parameters under a number of a list. -/
def UsesNumber (set : ParameterSet) (root : String) (number : Nat) : Prop :=
  GoesOn set (under root (Numeral.naturalText number))

/-- A parameter whose name does not begin with a root lies under no number there. -/
lemma usesNumber_insert_iff {set : ParameterSet} {name text root : String} {number : Nat}
    (hroot : ¬ root.toList <+: name.toList) :
    UsesNumber (set.insert name text) root number ↔ UsesNumber set root number := by
  have hother : ∀ n rest, n.toList = (under root (Numeral.naturalText number)).toList ++ rest →
      (set.insert name text).get? n = set.get? n := by
    intro n rest heq
    rw [TextMap.get?_insert, if_neg]
    rintro rfl
    rw [toList_under, List.append_assoc] at heq
    exact hroot ⟨_, heq.symm⟩
  constructor
  · rintro ⟨n, t, rest, hn, hrest, heq⟩
    exact ⟨n, t, rest, hother n rest heq ▸ hn, hrest, heq⟩
  · rintro ⟨n, t, rest, hn, hrest, heq⟩
    exact ⟨n, t, rest, hother n rest heq ▸ hn, hrest, heq⟩

section Numbers

variable {α : Type} {set : ParameterSet} {root : String} {numbering : Numbering}

/-- The numbers in use are those of the items with a property. -/
def NumberedBy (set : ParameterSet) (root : String) (numbering : Numbering) (items : List α)
    (P : α → Prop) : Prop :=
  ∀ number, UsesNumber set root number ↔
    ∃ position item, items[position]? = some item ∧ P item ∧ numbering.index position = number

/-- The numbers in use are those from the first one on, without a gap, of a list of some length. -/
def Contiguous (set : ParameterSet) (root : String) (numbering : Numbering) (length : Nat) : Prop :=
  ∀ number, UsesNumber set root number ↔
    numbering.index 0 ≤ number ∧ number < numbering.index 0 + length

/-- The numbers in use leave no gap exactly if all items have the property. -/
theorem NumberedBy.contiguous_iff {items : List α} {P : α → Prop}
    (h : NumberedBy set root numbering items P) :
    Contiguous set root numbering items.length ↔ ∀ item ∈ items, P item := by
  constructor
  · intro hcontiguous item hitem
    obtain ⟨position, hposition⟩ := List.mem_iff_getElem?.1 hitem
    have hlt := (List.getElem?_eq_some_iff.1 hposition).1
    -- the number of the item is in use, and only the item itself can be the reason
    obtain ⟨position', item', hitem', hP, hindex⟩ := (h _).1
      ((hcontiguous _).2 (exists_index_eq_iff.1 ⟨position, hlt, rfl⟩))
    rw [index_injective numbering hindex, hposition] at hitem'
    rw [Option.some.inj hitem']
    exact hP
  · intro hall number
    rw [h number, ← exists_index_eq_iff]
    constructor
    · rintro ⟨position, item, hitem, -, hindex⟩
      exact ⟨position, (List.getElem?_eq_some_iff.1 hitem).1, hindex⟩
    · rintro ⟨position, hlt, hindex⟩
      exact ⟨position, items[position], List.getElem?_eq_getElem hlt,
        hall _ (List.getElem_mem hlt), hindex⟩

lemma NumberedBy.congr {items : List α} {P Q : α → Prop} (h : NumberedBy set root numbering items P)
    (hPQ : ∀ item ∈ items, P item ↔ Q item) : NumberedBy set root numbering items Q := by
  intro number
  rw [h number]
  refine exists_congr fun position => exists_congr fun item => and_congr_right fun hitem => ?_
  rw [hPQ item (List.mem_of_getElem? hitem)]

end Numbers

/-! ### Lists inside of an argument -/

/-- What lies behind some steps of an argument is what lies in a list. -/
def Argument.ListAt (argument : Argument) (texts : List String) (numbering : Numbering)
    (items : List Argument) : Prop :=
  ∀ rest wire, (texts ++ rest, wire) ∈ argument.paths ↔
    (rest, wire) ∈ (Argument.list numbering items).paths

namespace Argument

section Places

variable {fields : Fields} {numbering numbering' : Numbering} {items items' : List Argument}

lemma listAt_nil : (Argument.list numbering items).ListAt [] numbering items :=
  fun _ _ => Iff.rfl

lemma ListAt.ofItem {texts : List String} {position : Nat} {item : Argument}
    (h : item.ListAt texts numbering' items') (hitem : items[position]? = some item) :
    (Argument.list numbering items).ListAt
      (Numeral.naturalText (numbering.index position) :: texts) numbering' items' := by
  intro rest wire
  rw [List.cons_append, cons_mem_paths_list_iff hitem]
  exact h rest wire

/-- A list that is left out of an object without items lies there without items, too. -/
lemma listAt_field {name : String}
    (h : ∀ field, (name, field) ∈ fields ↔ items ≠ [] ∧ field = .list numbering items) :
    (Argument.object fields).ListAt [name] numbering items := by
  intro rest wire
  rw [List.singleton_append, mem_paths_object_iff]
  constructor
  · rintro ⟨name', field, rest', hmem, heq, hpath⟩
    obtain ⟨rfl, rfl⟩ := List.cons.inj heq
    rwa [((h field).1 hmem).2] at hpath
  · intro hpath
    refine ⟨name, .list numbering items, rest, (h _).2 ⟨?_, rfl⟩, rfl, hpath⟩
    rintro rfl
    obtain ⟨position, item, -, hitem, -⟩ := mem_paths_list_iff.1 hpath
    cases hitem

end Places

section Numbered

variable {α : Type} {argument : Argument} {fields : Fields} {set : ParameterSet} {root : String}
  {numbering : Numbering} {items : List α} {f : α → Argument} {texts : List String}

/-- A list with an argument for each item, behind some steps, uses the numbers of the items whose
arguments have a leaf. -/
theorem ListAt.numberedBy (h : argument.ListAt texts numbering (items.map f))
    (hgoes : ∀ number, UsesNumber set root number ↔
      ∃ rest wire, ((texts ++ [Numeral.naturalText number]) ++ rest, wire) ∈ argument.paths) :
    NumberedBy set root numbering items fun item => (f item).leaves ≠ [] := by
  intro number
  have hlist : UsesNumber set root number ↔ ∃ rest wire,
      (Numeral.naturalText number :: rest, wire)
        ∈ (Argument.list numbering (items.map f)).paths := by
    rw [hgoes number]
    refine exists_congr fun rest => exists_congr fun wire => ?_
    rw [List.append_assoc, h _ _, List.singleton_append]
  rw [hlist, exists_cons_mem_paths_list_iff]
  simp only [List.getElem?_map, Option.map_eq_some_iff]
  constructor
  · rintro ⟨position, _, ⟨item, hitem, rfl⟩, hne, hindex⟩
    exact ⟨position, item, hitem, hne, hindex⟩
  · rintro ⟨position, item, hitem, hne, hindex⟩
    exact ⟨position, _, ⟨item, hitem, rfl⟩, hne, hindex⟩

lemma dots_append_item {steps : List Step} (hdots : ∀ step ∈ steps, '.' ∉ step.text.toList)
    (number : Nat) : ∀ step ∈ steps ++ [.item number], '.' ∉ step.text.toList := by
  intro step hstep
  rcases List.mem_append.1 hstep with hstep | hstep
  · exact hdots step hstep
  · rw [List.mem_singleton.1 hstep]
    exact dot_notMem_naturalText number

/-- The numbers in use in a list of a tidy argument at a root. -/
theorem ListAt.numberedBy_dotted (steps : List Step)
    (h : argument.ListAt (steps.map Step.text) numbering (items.map f)) (htidy : argument.Tidy)
    (hget : ∀ name text, set.get? name = some text ↔ (name, text) ∈ argument.named root)
    (hdots : ∀ step ∈ steps, '.' ∉ step.text.toList) :
    NumberedBy set (dotted root steps) numbering items fun item => (f item).leaves ≠ [] := by
  refine h.numberedBy fun number => ?_
  have hgoes := goesOn_dotted_iff htidy hget (dots_append_item hdots number)
  rwa [dotted_concat, List.map_append] at hgoes

/-- The numbers in use in a list of tidy fields behind a scope. -/
theorem ListAt.numberedBy_nameBehind (steps : List Step)
    (h : (Argument.object fields).ListAt (steps.map Step.text) numbering (items.map f))
    (htidy : (Argument.object fields).Tidy) {scope : Option String}
    (hget : ∀ name text, set.get? name = some text ↔ (name, text) ∈ fields.named scope)
    (hdots : ∀ step ∈ steps, '.' ∉ step.text.toList) (hne : steps ≠ []) :
    NumberedBy set (nameBehind scope steps) numbering items
      fun item => (f item).leaves ≠ [] := by
  refine h.numberedBy fun number => ?_
  have hgoes := htidy.goesOn_nameBehind_iff hget (dots_append_item hdots number) (by simp)
  rwa [nameBehind_concat hne, List.map_append] at hgoes

end Numbered

end Argument

/-! ### Blank fields -/

lemma leaves_list_eq_nil_iff {numbering : Numbering} {items : List Argument} :
    (Argument.list numbering items).leaves = [] ↔ ∀ item ∈ items, item.leaves = [] := by
  rw [Argument.leaves, itemLeaves_eq_flatMap, List.flatMap_eq_nil_iff]
  simp only [List.map_eq_nil_iff]
  constructor
  · intro h item hitem
    obtain ⟨position, hposition⟩ := List.mem_iff_getElem?.1 hitem
    exact h (item, position) (List.mem_zipIdx_iff_getElem?.2 hposition)
  · rintro h ⟨item, position⟩ hitem
    exact h item (List.fst_mem_of_mem_zipIdx hitem)

lemma leaves_scalar_ne_nil (value : Value) : (Argument.scalar value).leaves ≠ [] := by
  simp [Argument.leaves]

namespace Fields

/-- No scalar is in any of the fields. -/
def IsBlank (fields : Fields) : Prop := (Argument.object fields).leaves = []

lemma isBlank_iff {fields : Fields} : fields.IsBlank ↔ ∀ field ∈ fields, field.2.leaves = [] := by
  rw [IsBlank, Argument.leaves, fieldLeaves_eq_flatMap, List.flatMap_eq_nil_iff]
  simp only [List.map_eq_nil_iff]

@[simp] lemma isBlank_append {fields fields' : Fields} :
    IsBlank (fields ++ fields') ↔ fields.IsBlank ∧ fields'.IsBlank := by
  simp only [isBlank_iff, List.mem_append, or_imp, forall_and]

@[simp] lemma isBlank_optional {name : String} {value? : Option Value} :
    (optional name value?).IsBlank ↔ value? = none := by
  cases value? <;> simp [isBlank_iff, optional, value, leaves_scalar_ne_nil]

@[simp] lemma isBlank_text? {name : String} {s? : Option String} :
    (text? name s?).IsBlank ↔ s? = none := by
  simp [text?]

@[simp] lemma isBlank_number? {name : String} {n? : Option UInt32} :
    (number? name n?).IsBlank ↔ n? = none := by
  simp [number?]

@[simp] lemma isBlank_boolean? {name : String} {b? : Option Bool} :
    (boolean? name b?).IsBlank ↔ b? = none := by
  simp [boolean?]

@[simp] lemma isBlank_object {name : String} {fields? : Option Fields} :
    (object name fields?).IsBlank ↔ ∀ fields ∈ fields?, fields.IsBlank := by
  rcases fields? with _ | _ | ⟨field, fields⟩
  · simp [isBlank_iff, object]
  · simp [isBlank_iff, object]
  · rw [isBlank_iff, object, List.forall_mem_singleton]
    simp only [Option.mem_def, Option.some.injEq, forall_eq', IsBlank]

@[simp] lemma isBlank_list {name : String} {numbering : Numbering} {items : List Argument} :
    (list name numbering items).IsBlank ↔ ∀ item ∈ items, item.leaves = [] := by
  cases items <;> simp [isBlank_iff, leaves_list_eq_nil_iff, list]

@[simp] lemma isBlank_texts {name : String} {numbering : Numbering} {ss : List String} :
    (texts name numbering ss).IsBlank ↔ ss = [] := by
  cases ss <;> simp [texts, leaves_scalar_ne_nil]

/-! What is under a name -/

@[simp] lemma mem_optional_iff {name n : String} {value? : Option Value} {field : Argument} :
    (n, field) ∈ optional name value? ↔ n = name ∧ ∃ v, value? = some v ∧ field = .scalar v := by
  cases value? <;> simp [optional, value]

@[simp] lemma mem_list_iff {name n : String} {numbering : Numbering} {items : List Argument}
    {field : Argument} :
    (n, field) ∈ list name numbering items ↔
      n = name ∧ items ≠ [] ∧ field = .list numbering items := by
  cases items <;> simp [list]

end Fields

end CloudCodec.Parameter
