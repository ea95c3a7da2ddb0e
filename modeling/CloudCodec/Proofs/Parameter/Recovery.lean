/-
# Arguments told by their parameters

Parameters are a set of dotted names, and in general many arguments have the same ones: a field may
be called like the number of an item or hold dots in its name, and objects and lists without a
scalar leave no trace.  An argument is canonical if none of this occurs in it.  Two canonical
arguments with the same paths are alike (`Canonical.alike_iff`): they differ in the order of fields
and in scalars that are written alike, and in nothing else.

The induction is on the first argument.  What it is shows in its paths: a scalar has the path
without steps, the fields of an object give steps that are no numbers, and the items of a list give
the numbers from its first one on, without a gap.
-/
import CloudCodec.Proofs.Parameter.Paths
import Mathlib

namespace CloudCodec.Parameter

namespace Argument

/-! ### Canonical arguments -/

/-- A name without dots that is not made of digits only. -/
structure IsPlain (name : String) : Prop where
  /-- It holds no dot. -/
  dots : '.' ∉ name.toList
  /-- It is not empty, and not all of its characters are digits. -/
  notDigits : name.toList.all Char.isDigit = false

/-- Objects and lists are never empty, and the fields of an object have distinct plain names. -/
inductive Canonical : Argument → Prop
  | scalar (value : Value) : Canonical (.scalar value)
  | object (fields : List (String × Argument)) (nonempty : fields ≠ [])
      (nodup : (fields.map Prod.fst).Nodup) (plain : ∀ field ∈ fields, IsPlain field.1)
      (inside : ∀ field ∈ fields, Canonical field.2) : Canonical (.object fields)
  | list (numbering : Numbering) (items : List Argument) (nonempty : items ≠ [])
      (inside : ∀ item ∈ items, Canonical item) : Canonical (.list numbering items)

/-- Two arguments that differ only in the order of fields and in scalars that are written
alike. -/
inductive Alike : Argument → Argument → Prop
  | scalar (value value' : Value) (wire : value.wire = value'.wire) :
      Alike (.scalar value) (.scalar value')
  | object (fields fields' reordered : List (String × Argument))
      (names : fields.map Prod.fst = reordered.map Prod.fst)
      (inside : List.Forall₂ Alike (fields.map Prod.snd) (reordered.map Prod.snd))
      (order : reordered.Perm fields') : Alike (.object fields) (.object fields')
  | list (numbering : Numbering) (items items' : List Argument)
      (inside : List.Forall₂ Alike items items') :
      Alike (.list numbering items) (.list numbering items')

namespace Canonical

variable {argument : Argument}

lemma tidy (h : argument.Canonical) : argument.Tidy := by
  induction h with
  | scalar value => exact .scalar value
  | object fields _ nodup plain _ ih =>
    exact .object fields nodup (fun f hf => (plain f hf).dots) ih
  | list numbering items _ _ ih => exact .list numbering items ih

/-- A canonical argument has a scalar. -/
lemma exists_path (h : argument.Canonical) : ∃ texts wire, (texts, wire) ∈ argument.paths := by
  induction h with
  | scalar value => exact ⟨[], value.wire, mem_paths_scalar_iff.2 ⟨rfl, rfl⟩⟩
  | object fields nonempty _ _ _ ih =>
    obtain ⟨⟨name, field⟩, fields, rfl⟩ := List.exists_cons_of_ne_nil nonempty
    obtain ⟨texts, wire, hpath⟩ := ih (name, field) List.mem_cons_self
    exact ⟨name :: texts, wire,
      mem_paths_object_iff.2 ⟨name, field, texts, List.mem_cons_self, rfl, hpath⟩⟩
  | list numbering items nonempty _ ih =>
    obtain ⟨item, items, rfl⟩ := List.exists_cons_of_ne_nil nonempty
    obtain ⟨texts, wire, hpath⟩ := ih item List.mem_cons_self
    exact ⟨_, wire, mem_paths_list_iff.2 ⟨0, item, texts, rfl, rfl, hpath⟩⟩

end Canonical

/-! ### What the first steps say -/

lemma all_isDigit_naturalText (n : Nat) :
    (Numeral.naturalText n).toList.all Char.isDigit = true := by
  rw [Numeral.naturalText, String.toList_ofList, List.all_eq_true]
  intro c hc
  exact Nat.isDigit_of_mem_toDigits (by decide) (by decide) hc

lemma IsPlain.ne_naturalText {name : String} (h : IsPlain name) (n : Nat) :
    name ≠ Numeral.naturalText n := by
  rintro rfl
  exact absurd (all_isDigit_naturalText n) (Bool.eq_false_iff.1 h.notDigits)

/-- The numbers of a list that is not empty tell how it is numbered and how long it is. -/
lemma eq_of_indices {numbering numbering' : Numbering} {length length' : Nat} (hpos : 0 < length)
    (h : ∀ n, (∃ position < length, numbering.index position = n) ↔
      ∃ position < length', numbering'.index position = n) :
    numbering = numbering' ∧ length = length' := by
  simp only [exists_index_eq_iff] at h
  have hfirst := h (numbering.index 0)
  have hlast := h (numbering.index (length - 1))
  have hfirst' := h (numbering'.index 0)
  have hlast' := h (numbering'.index (length' - 1))
  cases numbering <;> cases numbering' <;>
    simp only [Numbering.index] at hfirst hlast hfirst' hlast'
  · exact ⟨rfl, by omega⟩
  · omega
  · omega
  · exact ⟨rfl, by omega⟩

section FirstSteps

variable {fields : Fields} {numbering : Numbering} {items : List Argument} {argument : Argument}

lemma mem_names_iff (h : ∀ field ∈ fields, field.2.Canonical) {name : String} :
    name ∈ fields.map Prod.fst ↔
      ∃ rest wire, (name :: rest, wire) ∈ (Argument.object fields).paths := by
  constructor
  · intro hname
    obtain ⟨⟨name, field⟩, hmem, rfl⟩ := List.mem_map.1 hname
    obtain ⟨texts, wire, hpath⟩ := (h _ hmem).exists_path
    exact ⟨texts, wire, mem_paths_object_iff.2 ⟨name, field, texts, hmem, rfl, hpath⟩⟩
  · rintro ⟨rest, wire, hpath⟩
    obtain ⟨name', field, rest', hmem, heq, -⟩ := mem_paths_object_iff.1 hpath
    rw [(List.cons.inj heq).1]
    exact List.mem_map_of_mem hmem

lemma exists_index_iff (h : ∀ item ∈ items, item.Canonical) {n : Nat} :
    (∃ position < items.length, numbering.index position = n) ↔
      ∃ rest wire,
        (Numeral.naturalText n :: rest, wire) ∈ (Argument.list numbering items).paths := by
  rw [exists_cons_mem_paths_list_iff]
  constructor
  · rintro ⟨position, hlt, hindex⟩
    have hitem := h _ (List.getElem_mem hlt)
    exact ⟨position, _, List.getElem?_eq_getElem hlt, exists_mem_paths_iff.1 hitem.exists_path,
      hindex⟩
  · rintro ⟨position, item, hitem, -, hindex⟩
    exact ⟨position, (List.getElem?_eq_some_iff.1 hitem).1, hindex⟩

end FirstSteps

/-! ### Alike arguments have the same paths -/

/-- Members of two lists that are related one by one have partners in the other list. -/
lemma exists_partner {α β : Type} {R : α → β → Prop} {xs : List α} {ys : List β}
    (h : List.Forall₂ R xs ys) : (∀ x ∈ xs, ∃ y ∈ ys, R x y) ∧ ∀ y ∈ ys, ∃ x ∈ xs, R x y := by
  induction h with
  | nil => simp
  | cons hxy _ ih => simp only [List.mem_cons]; grind

/-- Fields with the same names in order are related one by one if what they hold is. -/
lemma forall₂_fields {R : Argument → Argument → Prop} {fields fields' : Fields}
    (names : fields.map Prod.fst = fields'.map Prod.fst)
    (inside : List.Forall₂ R (fields.map Prod.snd) (fields'.map Prod.snd)) :
    List.Forall₂ (fun field field' => field.1 = field'.1 ∧ R field.2 field'.2) fields fields' := by
  induction fields generalizing fields' with
  | nil =>
    rw [List.map_nil, eq_comm, List.map_eq_nil_iff] at names
    rw [names]
    exact .nil
  | cons field fields ih =>
    obtain ⟨field', fields', rfl⟩ : ∃ field' rest, fields' = field' :: rest := by
      cases fields' with
      | nil => cases names
      | cons field' fields' => exact ⟨field', fields', rfl⟩
    rw [List.map_cons, List.map_cons, List.cons.injEq] at names
    rw [List.map_cons, List.map_cons, List.forall₂_cons] at inside
    exact .cons ⟨names.1, inside.1⟩ (ih names.2 inside.2)

lemma Canonical.mem_paths_iff_of_alike {argument argument' : Argument} (h : argument.Canonical)
    (halike : argument.Alike argument') :
    ∀ path, path ∈ argument.paths ↔ path ∈ argument'.paths := by
  rintro ⟨texts, wire⟩
  induction h generalizing argument' texts with
  | scalar value =>
    cases halike with
    | scalar _ value' hwire => rw [mem_paths_scalar_iff, mem_paths_scalar_iff, hwire]
  | object fields _ _ _ _ ih =>
    cases halike with
    | object _ fields' reordered names inside order =>
      obtain ⟨hleft, hright⟩ := exists_partner (forall₂_fields names inside)
      rw [mem_paths_object_iff, mem_paths_object_iff]
      constructor
      · rintro ⟨name, field, rest, hmem, rfl, hrest⟩
        obtain ⟨⟨name', field'⟩, hmem', rfl, hfield⟩ := hleft _ hmem
        exact ⟨name, field', rest, order.subset hmem', rfl, (ih _ hmem hfield rest).1 hrest⟩
      · rintro ⟨name, field', rest, hmem', rfl, hrest⟩
        obtain ⟨⟨name', field⟩, hmem, rfl, hfield⟩ := hright _ (order.symm.subset hmem')
        exact ⟨name', field, rest, hmem, rfl, (ih _ hmem hfield rest).2 hrest⟩
  | list numbering items _ _ ih =>
    cases halike with
    | list _ _ items' inside =>
      rw [mem_paths_list_iff, mem_paths_list_iff]
      have hlength := inside.length_eq
      constructor
      · rintro ⟨position, item, rest, hitem, rfl, hrest⟩
        obtain ⟨hlt, rfl⟩ := List.getElem?_eq_some_iff.1 hitem
        have halike := inside.get hlt (hlength ▸ hlt)
        exact ⟨position, _, rest, List.getElem?_eq_getElem (hlength ▸ hlt), rfl,
          (ih _ (List.getElem_mem hlt) halike rest).1 hrest⟩
      · rintro ⟨position, item', rest, hitem', rfl, hrest⟩
        obtain ⟨hlt, rfl⟩ := List.getElem?_eq_some_iff.1 hitem'
        have halike := inside.get (hlength.symm ▸ hlt) hlt
        exact ⟨position, _, rest, List.getElem?_eq_getElem (hlength.symm ▸ hlt), rfl,
          (ih _ (List.getElem_mem _) halike rest).2 hrest⟩

/-! ### Canonical arguments with the same paths are alike -/

/-- Fields with the same distinct names can be put into the same order. -/
lemma exists_reordered {fields fields' : Fields} (hnodup : (fields.map Prod.fst).Nodup)
    (hnodup' : (fields'.map Prod.fst).Nodup)
    (h : ∀ name, name ∈ fields.map Prod.fst ↔ name ∈ fields'.map Prod.fst) :
    ∃ reordered : Fields,
      fields.map Prod.fst = reordered.map Prod.fst ∧ reordered.Perm fields' := by
  have hperm := (List.perm_ext_iff_of_nodup hnodup hnodup').2 h
  have hnames : List.Forall₂ (fun name (field : String × Argument) => name = field.1)
      (fields'.map Prod.fst) fields' := by
    rw [List.forall₂_map_left_iff, List.forall₂_same]
    exact fun _ _ => rfl
  obtain ⟨reordered, hreordered, horder⟩ := List.perm_comp_forall₂ hperm hnames
  refine ⟨reordered, ?_, horder⟩
  rw [← List.forall₂_eq_eq_eq, List.forall₂_map_right_iff]
  exact hreordered

namespace Canonical

variable {argument argument' : Argument}

/-- What has the path without steps is a scalar. -/
lemma alike_scalar {value : Value}
    (hpaths : ∀ path, path ∈ (Argument.scalar value).paths ↔ path ∈ argument'.paths) :
    (Argument.scalar value).Alike argument' := by
  have hpath := (hpaths ([], value.wire)).1 (mem_paths_scalar_iff.2 ⟨rfl, rfl⟩)
  cases argument' with
  | scalar value' => exact .scalar value value' (mem_paths_scalar_iff.1 hpath).2
  | object fields =>
    obtain ⟨_, _, _, _, heq, _⟩ := mem_paths_object_iff.1 hpath
    cases heq
  | list numbering items =>
    obtain ⟨_, _, _, _, heq, _⟩ := mem_paths_list_iff.1 hpath
    cases heq

/-- What has paths that begin with a plain name is an object. -/
lemma exists_fields_of_paths {fields : Fields} (h : (Argument.object fields).Canonical)
    (hpaths : ∀ path, path ∈ (Argument.object fields).paths ↔ path ∈ argument'.paths) :
    ∃ fields', argument' = .object fields' := by
  obtain ⟨texts, wire, hpath⟩ := h.exists_path
  have hpath' := (hpaths _).1 hpath
  obtain ⟨name, field, rest, hmem, rfl, -⟩ := mem_paths_object_iff.1 hpath
  cases h with
  | object _ _ _ plain _ =>
    cases argument' with
    | scalar value => cases (mem_paths_scalar_iff.1 hpath').1
    | object fields' => exact ⟨fields', rfl⟩
    | list numbering items =>
      obtain ⟨_, _, _, _, heq, _⟩ := mem_paths_list_iff.1 hpath'
      exact absurd (List.cons.inj heq).1 ((plain _ hmem).ne_naturalText _)

/-- What has paths that begin with numbers is a list. -/
lemma exists_items_of_paths {numbering : Numbering} {items : List Argument}
    (h : (Argument.list numbering items).Canonical) (h' : argument'.Canonical)
    (hpaths : ∀ path, path ∈ (Argument.list numbering items).paths ↔ path ∈ argument'.paths) :
    ∃ numbering' items', argument' = .list numbering' items' := by
  obtain ⟨texts, wire, hpath⟩ := h.exists_path
  have hpath' := (hpaths _).1 hpath
  obtain ⟨position, item, rest, -, rfl, -⟩ := mem_paths_list_iff.1 hpath
  cases h' with
  | scalar value => cases (mem_paths_scalar_iff.1 hpath').1
  | object fields _ _ plain _ =>
    obtain ⟨name, _, _, hmem, heq, _⟩ := mem_paths_object_iff.1 hpath'
    exact absurd (List.cons.inj heq).1.symm ((plain _ hmem).ne_naturalText _)
  | list numbering' items' => exact ⟨numbering', items', rfl⟩

theorem alike_of_paths (h : argument.Canonical) (h' : argument'.Canonical)
    (hpaths : ∀ path, path ∈ argument.paths ↔ path ∈ argument'.paths) :
    argument.Alike argument' := by
  induction h generalizing argument' with
  | scalar value => exact alike_scalar hpaths
  | object fields nonempty nodup plain inside ih =>
    obtain ⟨fields', rfl⟩ := exists_fields_of_paths (.object _ nonempty nodup plain inside) hpaths
    cases h' with
    | object _ _ nodup' _ inside' =>
      have hnames : ∀ name, name ∈ fields.map Prod.fst ↔ name ∈ fields'.map Prod.fst := by
        intro name
        rw [mem_names_iff inside, mem_names_iff inside']
        simp only [hpaths]
      obtain ⟨reordered, hreordered, horder⟩ := exists_reordered nodup nodup' hnames
      refine .object fields fields' reordered hreordered ?_ horder
      have hpairs : List.Forall₂ (fun field field' => field.1 = field'.1) fields reordered := by
        rw [← List.forall₂_eq_eq_eq, List.forall₂_map_left_iff,
          List.forall₂_map_right_iff] at hreordered
        exact hreordered
      rw [List.forall₂_map_left_iff, List.forall₂_map_right_iff, List.forall₂_iff_zip]
      refine ⟨hpairs.length_eq, ?_⟩
      rintro ⟨name, field⟩ ⟨name', field'⟩ hzip
      obtain rfl : name = name' := List.forall₂_zip hpairs hzip
      have hmem := (List.of_mem_zip hzip).1
      have hmem' := horder.subset (List.of_mem_zip hzip).2
      refine ih _ hmem (inside' _ hmem') ?_
      rintro ⟨texts, wire⟩
      rw [← cons_mem_paths_object_iff nodup hmem, ← cons_mem_paths_object_iff nodup' hmem', hpaths]
  | list numbering items nonempty inside ih =>
    obtain ⟨numbering', items', rfl⟩ :=
      exists_items_of_paths (.list _ _ nonempty inside) h' hpaths
    cases h' with
    | list _ _ _ inside' =>
      obtain ⟨rfl, hlength⟩ : numbering = numbering' ∧ items.length = items'.length := by
        refine eq_of_indices (List.length_pos_of_ne_nil nonempty) ?_
        intro n
        rw [exists_index_iff inside, exists_index_iff inside']
        simp only [hpaths]
      refine .list numbering items items' (List.forall₂_iff_get.2 ⟨hlength, ?_⟩)
      intro position hlt hlt'
      refine ih _ (List.getElem_mem hlt) (inside' _ (List.getElem_mem hlt')) ?_
      rintro ⟨texts, wire⟩
      have hpath : (Numeral.naturalText (numbering.index position) :: texts, wire)
          ∈ (Argument.list numbering items).paths ↔ _ := hpaths _
      rw [cons_mem_paths_list_iff (List.getElem?_eq_getElem hlt),
        cons_mem_paths_list_iff (List.getElem?_eq_getElem hlt')] at hpath
      exact hpath

/-- Canonical arguments have the same paths exactly if they are alike. -/
theorem alike_iff (h : argument.Canonical) (h' : argument'.Canonical) :
    argument.Alike argument' ↔ ∀ path, path ∈ argument.paths ↔ path ∈ argument'.paths :=
  ⟨h.mem_paths_iff_of_alike, h.alike_of_paths h'⟩

end Canonical

end Argument

/-- Canonical objects are encoded behind any scope, and have the same parameters exactly if they
are alike. -/
theorem encodeObject_eq_iff_alike (scope : Option String) (fields fields' : Fields)
    (h : (Argument.object fields).Canonical) (h' : (Argument.object fields').Canonical) :
    ∃ set set', encodeObject scope fields = .ok set ∧ encodeObject scope fields' = .ok set' ∧
      (set = set' ↔ (Argument.object fields).Alike (.object fields')) := by
  obtain ⟨set, hset, hget⟩ := h.tidy.exists_encodeObject_eq_ok scope
  obtain ⟨set', hset', hget'⟩ := h'.tidy.exists_encodeObject_eq_ok scope
  refine ⟨set, set', hset, hset', ?_⟩
  have hsame : set = set' ↔
      fields.named scope ⊆ fields'.named scope ∧ fields'.named scope ⊆ fields.named scope := by
    constructor
    · rintro rfl
      exact ⟨fun leaf hleaf => (hget' _ _).1 ((hget _ _).2 hleaf),
        fun leaf hleaf => (hget _ _).1 ((hget' _ _).2 hleaf)⟩
    · rintro ⟨hle, hge⟩
      refine TextMap.ext_get? fun name text => ?_
      rw [hget, hget']
      exact ⟨fun hleaf => hle hleaf, fun hleaf => hge hleaf⟩
  rw [hsame, h.tidy.named_scope_subset_iff h'.tidy, h'.tidy.named_scope_subset_iff h.tidy,
    h.alike_iff h']
  constructor
  · rintro ⟨hle, hge⟩ path
    exact ⟨fun hpath => hle hpath, fun hpath => hge hpath⟩
  · intro hpaths
    exact ⟨fun path => (hpaths path).1, fun path => (hpaths path).2⟩

/-- Two objects with their fields in another order and scalars of other kinds are encoded alike. -/
theorem encodeObject_eq_iff_alike_sample :
    ∃ set, encodeObject (some "P")
        [("a", .scalar (.integer 1)),
          ("l", .list .fromOne [.object [("b", .scalar (.text ""))], .scalar (.boolean true)])]
          = .ok set ∧
      encodeObject (some "P")
        [("l", .list .fromOne [.object [("b", .scalar (.text ""))], .scalar (.text "true")]),
          ("a", .scalar (.text "1"))] = .ok set ∧
      (Argument.object [("a", .scalar (.integer 1)),
          ("l", .list .fromOne [.object [("b", .scalar (.text ""))],
            .scalar (.boolean true)])]).Alike
        (.object [("l", .list .fromOne [.object [("b", .scalar (.text ""))],
            .scalar (.text "true")]),
          ("a", .scalar (.text "1"))]) := by
  have hplain : Argument.IsPlain "a" ∧ Argument.IsPlain "b" ∧ Argument.IsPlain "l" :=
    ⟨⟨by decide, by decide⟩, ⟨by decide, by decide⟩, ⟨by decide, by decide⟩⟩
  have hlist : ∀ value : Value, (Argument.list .fromOne
      [.object [("b", .scalar (.text ""))], .scalar value]).Canonical := by
    intro value
    refine .list _ _ (by simp) ?_
    simp only [List.forall_mem_cons, List.not_mem_nil, false_implies, implies_true, and_true]
    refine ⟨.object _ (by simp) (by decide) ?_ ?_, .scalar value⟩
    · simpa using hplain.2.1
    · simpa using Argument.Canonical.scalar (.text "")
  have h : (Argument.object [("a", .scalar (.integer 1)),
      ("l", .list .fromOne [.object [("b", .scalar (.text ""))],
        .scalar (.boolean true)])]).Canonical := by
    refine .object _ (by simp) (by decide) ?_ ?_
    · simpa using ⟨hplain.1, hplain.2.2⟩
    · simpa using ⟨Argument.Canonical.scalar (.integer 1), hlist (.boolean true)⟩
  have h' : (Argument.object [("l", .list .fromOne [.object [("b", .scalar (.text ""))],
      .scalar (.text "true")]), ("a", .scalar (.text "1"))]).Canonical := by
    refine .object _ (by simp) (by decide) ?_ ?_
    · simpa using ⟨hplain.2.2, hplain.1⟩
    · simpa using ⟨hlist (.text "true"), Argument.Canonical.scalar (.text "1")⟩
  obtain ⟨set, set', hset, hset', hiff⟩ := encodeObject_eq_iff_alike (some "P") _ _ h h'
  have hsame : set = set' := by
    refine Except.ok.inj (hset.symm.trans (Eq.trans ?_ hset'))
    decide +kernel
  subst hsame
  exact ⟨set, hset, hset', hiff.1 rfl⟩

end CloudCodec.Parameter
