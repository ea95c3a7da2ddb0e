/-
# Leaves by their paths

A name tells the steps to a leaf only by their texts, so a field that is called like the number of
an item is not told from it.  The paths of an argument are its leaves with the texts of their steps
(`Argument.paths`).  In a tidy argument no text holds a dot, and the parameters of the argument say
exactly its paths: some name goes on from a path if and only if a leaf lies there
(`goesOn_dotted_iff`).  The fields of an object are encoded behind a scope instead of a root, and
the same holds of them (`Argument.Tidy.goesOn_nameBehind_iff`).
-/
import CloudCodec.Proofs.Parameter.Naming
import Mathlib

namespace CloudCodec.Parameter

/-- A last step may be written behind the name of those before it. -/
lemma dotted_concat (root : String) (steps : List Step) (step : Step) :
    dotted root (steps ++ [step]) = under (dotted root steps) step.text := by
  induction steps generalizing root with
  | nil => rfl
  | cons first steps ih => rw [List.cons_append, dotted_cons, dotted_cons, ih]

/-! ### Paths -/

/-- The scalars of an argument, each as the texts of the steps that lead to it and its text on the
wire. -/
def Argument.paths (argument : Argument) : List (List String × String) :=
  argument.leaves.map fun leaf => (leaf.1.map Step.text, leaf.2.wire)

section Paths

variable {texts : List String} {wire : String}

lemma mem_paths_iff {argument : Argument} :
    (texts, wire) ∈ argument.paths ↔
      ∃ steps value, (steps, value) ∈ argument.leaves ∧ steps.map Step.text = texts ∧
        value.wire = wire := by
  rw [Argument.paths, List.mem_map]
  constructor
  · rintro ⟨⟨steps, value⟩, hleaf, heq⟩
    obtain ⟨rfl, rfl⟩ := Prod.mk.inj heq
    exact ⟨steps, value, hleaf, rfl, rfl⟩
  · rintro ⟨steps, value, hleaf, rfl, rfl⟩
    exact ⟨(steps, value), hleaf, rfl⟩

lemma mem_paths_scalar_iff {value : Value} :
    (texts, wire) ∈ (Argument.scalar value).paths ↔ texts = [] ∧ wire = value.wire := by
  simp [Argument.paths, Argument.leaves]

lemma mem_paths_object_iff {fields : Fields} :
    (texts, wire) ∈ (Argument.object fields).paths ↔
      ∃ name field rest, (name, field) ∈ fields ∧ texts = name :: rest ∧
        (rest, wire) ∈ field.paths := by
  rw [mem_paths_iff]
  constructor
  · rintro ⟨steps, value, hleaf, rfl, rfl⟩
    obtain ⟨name, field, rest, hmem, rfl, hrest⟩ := mem_leaves_object_iff.1 hleaf
    exact ⟨name, field, rest.map Step.text, hmem, rfl,
      mem_paths_iff.2 ⟨rest, value, hrest, rfl, rfl⟩⟩
  · rintro ⟨name, field, rest, hmem, rfl, hrest⟩
    obtain ⟨steps, value, hleaf, rfl, rfl⟩ := mem_paths_iff.1 hrest
    exact ⟨.field name :: steps, value,
      mem_leaves_object_iff.2 ⟨name, field, steps, hmem, rfl, hleaf⟩, rfl, rfl⟩

lemma mem_paths_list_iff {numbering : Numbering} {items : List Argument} :
    (texts, wire) ∈ (Argument.list numbering items).paths ↔
      ∃ position item rest, items[position]? = some item ∧
        texts = Numeral.naturalText (numbering.index position) :: rest ∧
        (rest, wire) ∈ item.paths := by
  rw [mem_paths_iff]
  constructor
  · rintro ⟨steps, value, hleaf, rfl, rfl⟩
    obtain ⟨position, item, rest, hitem, rfl, hrest⟩ := mem_leaves_list_iff.1 hleaf
    exact ⟨position, item, rest.map Step.text, hitem, rfl,
      mem_paths_iff.2 ⟨rest, value, hrest, rfl, rfl⟩⟩
  · rintro ⟨position, item, rest, hitem, rfl, hrest⟩
    obtain ⟨steps, value, hleaf, rfl, rfl⟩ := mem_paths_iff.1 hrest
    exact ⟨.item (numbering.index position) :: steps, value,
      mem_leaves_list_iff.2 ⟨position, item, steps, hitem, rfl, hleaf⟩, rfl, rfl⟩

/-- Among fields with distinct names, what lies below a name lies below the one field that has
it. -/
lemma cons_mem_paths_object_iff {fields : Fields} (hnodup : (fields.map Prod.fst).Nodup)
    {name : String} {field : Argument} (h : (name, field) ∈ fields) :
    (name :: texts, wire) ∈ (Argument.object fields).paths ↔ (texts, wire) ∈ field.paths := by
  rw [mem_paths_object_iff]
  constructor
  · rintro ⟨name', field', rest, hmem, heq, hrest⟩
    obtain ⟨rfl, rfl⟩ := List.cons.inj heq
    have hsame := List.inj_on_of_nodup_map hnodup hmem h rfl
    rw [← (Prod.mk.inj hsame).2]
    exact hrest
  · intro hpath
    exact ⟨name, field, texts, h, rfl, hpath⟩

/-- What lies below the number of an item lies below that item. -/
lemma cons_mem_paths_list_iff {numbering : Numbering} {items : List Argument} {position : Nat}
    {item : Argument} (h : items[position]? = some item) :
    (Numeral.naturalText (numbering.index position) :: texts, wire)
        ∈ (Argument.list numbering items).paths ↔ (texts, wire) ∈ item.paths := by
  rw [mem_paths_list_iff]
  constructor
  · rintro ⟨position', item', rest, hitem, heq, hrest⟩
    obtain ⟨htext, rfl⟩ := List.cons.inj heq
    have hposition := index_injective numbering (naturalText_injective htext)
    rw [← hposition, h] at hitem
    rw [Option.some.inj hitem]
    exact hrest
  · intro hpath
    exact ⟨position, item, texts, h, rfl, hpath⟩

/-- Something lies in an argument exactly if it has a leaf. -/
lemma exists_mem_paths_iff {argument : Argument} :
    (∃ texts wire, (texts, wire) ∈ argument.paths) ↔ argument.leaves ≠ [] := by
  constructor
  · rintro ⟨texts, wire, hpath⟩
    obtain ⟨steps, value, hleaf, -⟩ := mem_paths_iff.1 hpath
    exact List.ne_nil_of_mem hleaf
  · intro hne
    obtain ⟨⟨steps, value⟩, hleaf⟩ := List.exists_mem_of_ne_nil _ hne
    exact ⟨_, _, mem_paths_iff.2 ⟨steps, value, hleaf, rfl, rfl⟩⟩

/-- Something lies behind a number of a list exactly if an item with a leaf has this number. -/
lemma exists_cons_mem_paths_list_iff {numbering : Numbering} {items : List Argument}
    {number : Nat} :
    (∃ rest wire, (Numeral.naturalText number :: rest, wire)
        ∈ (Argument.list numbering items).paths) ↔
      ∃ position item, items[position]? = some item ∧ item.leaves ≠ [] ∧
        numbering.index position = number := by
  constructor
  · rintro ⟨rest, wire, hpath⟩
    obtain ⟨position, item, rest', hitem, heq, hrest⟩ := mem_paths_list_iff.1 hpath
    exact ⟨position, item, hitem, exists_mem_paths_iff.1 ⟨rest', wire, hrest⟩,
      (naturalText_injective (List.cons.inj heq).1).symm⟩
  · rintro ⟨position, item, hitem, hne, rfl⟩
    obtain ⟨rest, wire, hrest⟩ := exists_mem_paths_iff.2 hne
    exact ⟨rest, wire, (cons_mem_paths_list_iff hitem).2 hrest⟩

end Paths

/-! ### Names that go on from a path -/

/-- Steps without dots that begin as others do are those and some more. -/
lemma exists_of_tail_eq_append {steps steps' : List Step} {x : List Char}
    (hdots : ∀ step ∈ steps, '.' ∉ step.text.toList)
    (hdots' : ∀ step ∈ steps', '.' ∉ step.text.toList) (hx : IsTail x)
    (h : tail steps' = tail steps ++ x) :
    ∃ rest, steps'.map Step.text = steps.map Step.text ++ rest := by
  induction steps generalizing steps' with
  | nil => exact ⟨steps'.map Step.text, rfl⟩
  | cons step steps ih =>
    cases steps' with
    | nil => cases h
    | cons step' steps' =>
      rw [tail_cons, tail_cons, List.cons_append, List.cons.injEq, List.append_assoc] at h
      have htail : IsTail (tail steps ++ x) := by
        cases steps with
        | nil => exact hx
        | cons step steps => exact isTail_cons _
      obtain ⟨htext, hrest⟩ := eq_of_append_tail (hdots' step' (by simp)) (hdots step (by simp))
        (isTail_tail steps') htail h.2
      obtain ⟨rest, hrest⟩ := ih (fun s hs => hdots s (by simp [hs]))
        (fun s hs => hdots' s (by simp [hs])) hrest
      refine ⟨rest, ?_⟩
      rw [List.map_cons, List.map_cons, String.toList_inj.1 htext, hrest, List.cons_append]

/-- Some name of a set is a path or goes on from it with a dot. -/
def GoesOn (set : ParameterSet) (path : String) : Prop :=
  ∃ name text rest, set.get? name = some text ∧ IsTail rest ∧ name.toList = path.toList ++ rest

/-- If names tell what steps add to each other, a set with the leaves of a tidy argument under
such names goes on from a path exactly if a leaf lies there. -/
theorem goesOn_iff_of_names {argument : Argument} {set : ParameterSet} {name : List Step → String}
    (htidy : argument.Tidy)
    (hget : ∀ n t, set.get? n = some t ↔
      (n, t) ∈ argument.leaves.map fun leaf => (name leaf.1, leaf.2.wire))
    {steps : List Step} (hdots : ∀ step ∈ steps, '.' ∉ step.text.toList)
    (hname : ∀ leaf ∈ argument.leaves, ∀ rest,
      (name leaf.1).toList = (name steps).toList ++ rest ↔ tail leaf.1 = tail steps ++ rest) :
    GoesOn set (name steps) ↔
      ∃ rest wire, (steps.map Step.text ++ rest, wire) ∈ argument.paths := by
  constructor
  · rintro ⟨n, t, x, hn, hx, heq⟩
    obtain ⟨⟨steps', value⟩, hleaf, hpair⟩ := List.mem_map.1 ((hget n t).1 hn)
    obtain ⟨rfl, rfl⟩ := Prod.mk.inj hpair
    obtain ⟨rest, hrest⟩ := exists_of_tail_eq_append hdots (htidy.dots_leaves _ hleaf) hx
      ((hname _ hleaf x).1 heq)
    exact ⟨rest, value.wire, mem_paths_iff.2 ⟨steps', value, hleaf, hrest, rfl⟩⟩
  · rintro ⟨rest, wire, hpath⟩
    obtain ⟨steps', value, hleaf, htexts, rfl⟩ := mem_paths_iff.1 hpath
    have htail : tail steps' = tail steps ++ rest.flatMap fun text => '.' :: text.toList := by
      have hflat : ∀ ss : List Step,
          tail ss = (ss.map Step.text).flatMap fun text => '.' :: text.toList := by
        intro ss
        rw [tail, List.flatMap_map]
      rw [hflat, hflat, htexts, List.flatMap_append]
    have hrest : IsTail (rest.flatMap fun text => '.' :: text.toList) := by
      cases rest with
      | nil => exact isTail_nil
      | cons text rest => exact isTail_cons _
    exact ⟨name steps', value.wire, _, (hget _ _).2 (List.mem_map.2 ⟨(steps', value), hleaf, rfl⟩),
      hrest, (hname _ hleaf _).2 htail⟩

/-- The parameters of a tidy argument at a root go on from a path exactly if a leaf lies there. -/
theorem goesOn_dotted_iff {argument : Argument} {root : String} {set : ParameterSet}
    (htidy : argument.Tidy)
    (hget : ∀ name text, set.get? name = some text ↔ (name, text) ∈ argument.named root)
    {steps : List Step} (hdots : ∀ step ∈ steps, '.' ∉ step.text.toList) :
    GoesOn set (dotted root steps) ↔
      ∃ rest wire, (steps.map Step.text ++ rest, wire) ∈ argument.paths := by
  refine goesOn_iff_of_names htidy hget hdots ?_
  intro leaf _ rest
  rw [toList_dotted, toList_dotted, List.append_assoc, List.append_cancel_left_eq]

/-! ### Names behind a scope -/

lemma qualify_eq (scope : Option String) (name : String) :
    qualify scope name = qualify scope "" ++ name := by
  unfold qualify
  split
  · simp
  · split_ifs <;> simp [under]

/-- The name of the leaf to which some steps lead from the fields behind a scope. -/
def nameBehind (scope : Option String) : List Step → String
  | [] => qualify scope ""
  | step :: steps => dotted (qualify scope step.text) steps

lemma toList_nameBehind (scope : Option String) (step : Step) (steps : List Step) :
    (nameBehind scope (step :: steps)).toList
      = (qualify scope "").toList ++ (step.text.toList ++ tail steps) := by
  rw [nameBehind, toList_dotted, qualify_eq scope step.text, String.toList_append,
    List.append_assoc]

lemma nameBehind_concat {scope : Option String} {steps : List Step} (hne : steps ≠ [])
    (step : Step) :
    nameBehind scope (steps ++ [step]) = under (nameBehind scope steps) step.text := by
  obtain ⟨first, steps, rfl⟩ := List.exists_cons_of_ne_nil hne
  exact dotted_concat _ steps step

/-- Names behind a scope tell what steps add to each other. -/
lemma nameBehind_eq_append_iff {scope : Option String} {steps steps' : List Step}
    (hne : steps ≠ []) (hne' : steps' ≠ []) (rest : List Char) :
    (nameBehind scope steps').toList = (nameBehind scope steps).toList ++ rest ↔
      tail steps' = tail steps ++ rest := by
  obtain ⟨step, steps, rfl⟩ := List.exists_cons_of_ne_nil hne
  obtain ⟨step', steps', rfl⟩ := List.exists_cons_of_ne_nil hne'
  rw [toList_nameBehind, toList_nameBehind, tail_cons, tail_cons, List.append_assoc,
    List.append_cancel_left_eq, List.cons_append, List.cons.injEq]
  simp

lemma nameBehind_congr {scope : Option String} {steps steps' : List Step}
    (h : steps.map Step.text = steps'.map Step.text) :
    nameBehind scope steps = nameBehind scope steps' := by
  cases steps with
  | nil =>
    cases steps' with
    | nil => rfl
    | cons step' steps' => cases h
  | cons step steps =>
    cases steps' with
    | nil => cases h
    | cons step' steps' =>
      rw [List.map_cons, List.map_cons, List.cons.injEq] at h
      rw [nameBehind, nameBehind, dotted, dotted, h.1, h.2]

lemma named_scope_eq (scope : Option String) (fields : Fields) :
    fields.named scope
      = (Argument.object fields).leaves.map fun leaf => (nameBehind scope leaf.1, leaf.2.wire) := by
  rw [Argument.leaves, fieldLeaves_eq_flatMap, List.map_flatMap]
  refine List.flatMap_congr ?_
  intro field _
  rw [Argument.named, List.map_map]
  rfl

/-- Steps without dots that lead from the fields are told by the names behind a scope. -/
lemma nameBehind_injOn {scope : Option String} {steps steps' : List Step}
    (hdots : ∀ step ∈ steps, '.' ∉ step.text.toList)
    (hdots' : ∀ step ∈ steps', '.' ∉ step.text.toList) (hne : steps ≠ []) (hne' : steps' ≠ [])
    (h : nameBehind scope steps = nameBehind scope steps') :
    steps.map Step.text = steps'.map Step.text := by
  have htail := (nameBehind_eq_append_iff hne' hne []).1 (by rw [h, List.append_nil])
  rw [List.append_nil] at htail
  exact texts_eq_of_tail_eq hdots hdots' htail

lemma ne_nil_of_mem_leaves_object {fields : Fields} {leaf : List Step × Value}
    (h : leaf ∈ (Argument.object fields).leaves) : leaf.1 ≠ [] := by
  obtain ⟨steps, value⟩ := leaf
  obtain ⟨name, field, rest, -, rfl, -⟩ := mem_leaves_object_iff.1 h
  simp

/-- Fields whose leaves have distinct names behind a scope are encoded as these leaves. -/
lemma encodeObject_of_nodup {scope : Option String} {fields : Fields}
    (hnodup : ((fields.named scope).map Prod.fst).Nodup) :
    ∃ set, encodeObject scope fields = .ok set ∧
      ∀ name text, set.get? name = some text ↔ (name, text) ∈ fields.named scope := by
  have hscalars : (fields.flatMap fun field => field.2.scalars (qualify scope field.1))
      = fields.named scope := by
    simp only [Fields.named, scalars_eq_named]
  have hencodes : Encodes (fields.named scope) (encodeObject scope fields) := by
    rw [encodeObject, hscalars]
    exact encodes_addAll _
  obtain ⟨set, hset⟩ := hencodes.isOk_iff.2 hnodup
  exact ⟨set, hset, hencodes.get?_eq_some_iff set hset⟩

namespace Argument.Tidy

variable {fields : Fields}

/-- The leaves of tidy fields have distinct names behind any scope. -/
lemma nodup_named_scope (h : (Argument.object fields).Tidy) (scope : Option String) :
    ((fields.named scope).map Prod.fst).Nodup := by
  rw [named_scope_eq, List.map_map]
  have htexts := List.pairwise_map.1 h.nodup_texts
  refine List.pairwise_map.2 (htexts.imp_of_mem ?_)
  intro leaf leaf' hleaf hleaf' hne heq
  exact hne (nameBehind_injOn (h.dots_leaves leaf hleaf) (h.dots_leaves leaf' hleaf')
    (ne_nil_of_mem_leaves_object hleaf) (ne_nil_of_mem_leaves_object hleaf') heq)

/-- Tidy fields are encoded, as their leaves behind the scope. -/
theorem exists_encodeObject_eq_ok (h : (Argument.object fields).Tidy) (scope : Option String) :
    ∃ set, encodeObject scope fields = .ok set ∧
      ∀ name text, set.get? name = some text ↔ (name, text) ∈ fields.named scope :=
  encodeObject_of_nodup (h.nodup_named_scope scope)

/-- The parameters of tidy fields behind a scope go on from a path exactly if a leaf lies
there. -/
theorem goesOn_nameBehind_iff (h : (Argument.object fields).Tidy) {scope : Option String}
    {set : ParameterSet}
    (hget : ∀ name text, set.get? name = some text ↔ (name, text) ∈ fields.named scope)
    {steps : List Step} (hdots : ∀ step ∈ steps, '.' ∉ step.text.toList) (hne : steps ≠ []) :
    GoesOn set (nameBehind scope steps) ↔
      ∃ rest wire, (steps.map Step.text ++ rest, wire) ∈ (Argument.object fields).paths := by
  rw [named_scope_eq] at hget
  refine goesOn_iff_of_names h hget hdots ?_
  intro leaf hleaf rest
  exact nameBehind_eq_append_iff hne (ne_nil_of_mem_leaves_object hleaf) rest

/-- Two tidy objects have the same parameters behind a scope exactly if they have the same
paths. -/
theorem named_scope_subset_iff {fields' : Fields} (h : (Argument.object fields).Tidy)
    (h' : (Argument.object fields').Tidy) (scope : Option String) :
    fields.named scope ⊆ fields'.named scope ↔
      (Argument.object fields).paths ⊆ (Argument.object fields').paths := by
  rw [named_scope_eq, named_scope_eq]
  constructor
  · rintro hnamed ⟨texts, wire⟩ hpath
    obtain ⟨steps, value, hleaf, rfl, rfl⟩ := mem_paths_iff.1 hpath
    obtain ⟨⟨steps', value'⟩, hleaf', heq⟩ :=
      List.mem_map.1 (hnamed (List.mem_map.2 ⟨(steps, value), hleaf, rfl⟩))
    obtain ⟨hname, hwire⟩ := Prod.mk.inj heq
    exact mem_paths_iff.2 ⟨steps', value', hleaf',
      nameBehind_injOn (h'.dots_leaves _ hleaf') (h.dots_leaves _ hleaf)
        (ne_nil_of_mem_leaves_object hleaf') (ne_nil_of_mem_leaves_object hleaf) hname, hwire⟩
  · rintro hpaths ⟨name, text⟩ hnamed
    obtain ⟨⟨steps, value⟩, hleaf, heq⟩ := List.mem_map.1 hnamed
    obtain ⟨rfl, rfl⟩ := Prod.mk.inj heq
    obtain ⟨steps', value', hleaf', htexts, hwire⟩ :=
      mem_paths_iff.1 (hpaths (mem_paths_iff.2 ⟨steps, value, hleaf, rfl, rfl⟩))
    refine List.mem_map.2 ⟨(steps', value'), hleaf', ?_⟩
    rw [nameBehind_congr htexts, hwire]

end Argument.Tidy

end CloudCodec.Parameter
