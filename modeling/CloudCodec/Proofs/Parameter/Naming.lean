/-
# Names that tell the leaves of an argument apart

A name is cut into its steps by its dots, so steps without dots can be read off a name again.  The
number of an item never holds a dot.  An argument is tidy when the fields of each object in it have
distinct names without dots; then no two of its leaves have the same name behind any root
(`Argument.Tidy.nodup_named`).
-/
import CloudCodec.Proofs.Parameter.Flattening

namespace CloudCodec.Parameter

/-! ### Numbers as steps -/

lemma dot_notMem_naturalText (n : Nat) : '.' ∉ (Numeral.naturalText n).toList := by
  intro h
  rw [Numeral.naturalText, String.toList_ofList] at h
  have hdigit : ('.' : Char).isDigit = true :=
    Nat.isDigit_of_mem_toDigits (by decide) (by decide) h
  exact absurd hdigit (by decide)

lemma naturalText_injective : Function.Injective Numeral.naturalText := by
  intro m n h
  have hdigits : Nat.toDigits 10 m = Nat.toDigits 10 n := String.ofList_injective h
  calc
    m = Nat.ofDigitChars 10 (Nat.toDigits 10 m) 0 := Nat.ofDigitChars_ten_toDigits.symm
    _ = Nat.ofDigitChars 10 (Nat.toDigits 10 n) 0 := by rw [hdigits]
    _ = n := Nat.ofDigitChars_ten_toDigits

lemma index_injective (numbering : Numbering) : Function.Injective numbering.index := by
  intro m n h
  cases numbering with
  | fromZero => exact h
  | fromOne => exact Nat.succ.inj h

lemma index_eq_add (numbering : Numbering) (position : Nat) :
    numbering.index position = numbering.index 0 + position := by
  cases numbering <;> simp [Numbering.index, Nat.add_comm]

/-- The numbers of a list go on from that of its first item, without a gap. -/
lemma exists_index_eq_iff {numbering : Numbering} {length n : Nat} :
    (∃ position < length, numbering.index position = n) ↔
      numbering.index 0 ≤ n ∧ n < numbering.index 0 + length := by
  constructor
  · rintro ⟨position, hlt, rfl⟩
    rw [index_eq_add numbering position]
    omega
  · rintro ⟨hle, hlt⟩
    refine ⟨n - numbering.index 0, by omega, ?_⟩
    rw [index_eq_add]
    omega

/-! ### What stands behind the root of a name -/

/-- What some steps add to the name of their root. -/
def tail (steps : List Step) : List Char := steps.flatMap fun step => '.' :: step.text.toList

lemma tail_cons (step : Step) (steps : List Step) :
    tail (step :: steps) = '.' :: (step.text.toList ++ tail steps) := rfl

lemma toList_under (path step : String) :
    (under path step).toList = path.toList ++ '.' :: step.toList := by
  simp [under]

lemma toList_dotted (root : String) (steps : List Step) :
    (dotted root steps).toList = root.toList ++ tail steps := by
  induction steps generalizing root with
  | nil => simp [tail]
  | cons step steps ih => rw [dotted_cons, ih, toList_under, tail_cons]; simp

/-- Nothing, or something that begins with a dot. -/
def IsTail (cs : List Char) : Prop := ∀ c ∈ cs.head?, c = '.'

lemma isTail_nil : IsTail [] := by simp [IsTail]

lemma isTail_cons (cs : List Char) : IsTail ('.' :: cs) := by simp [IsTail]

lemma isTail_tail (steps : List Step) : IsTail (tail steps) := by
  cases steps with
  | nil => exact isTail_nil
  | cons step steps => exact isTail_cons _

/-- A step without dots ends where the rest of the name begins. -/
lemma eq_of_append_tail {a b x y : List Char} (ha : '.' ∉ a) (hb : '.' ∉ b) (hx : IsTail x)
    (hy : IsTail y) (h : a ++ x = b ++ y) : a = b ∧ x = y := by
  induction a generalizing b with
  | nil =>
    cases b with
    | nil => exact ⟨rfl, h⟩
    | cons c b =>
      have hdot : c = '.' := hx c (by rw [List.nil_append] at h; simp [h])
      simp [hdot] at hb
  | cons c a ih =>
    cases b with
    | nil =>
      have hdot : c = '.' := hy c (by rw [List.nil_append] at h; simp [← h])
      simp [hdot] at ha
    | cons c' b =>
      simp only [List.cons_append, List.cons.injEq] at h
      simp only [List.mem_cons, not_or] at ha hb
      obtain ⟨rfl, hrest⟩ := h
      obtain ⟨rfl, rfl⟩ := ih ha.2 hb.2 hrest
      exact ⟨rfl, rfl⟩

/-- Steps without dots are told by what they add to a name. -/
lemma texts_eq_of_tail_eq {steps steps' : List Step}
    (hdots : ∀ step ∈ steps, '.' ∉ step.text.toList)
    (hdots' : ∀ step ∈ steps', '.' ∉ step.text.toList) (h : tail steps = tail steps') :
    steps.map Step.text = steps'.map Step.text := by
  induction steps generalizing steps' with
  | nil =>
    cases steps' with
    | nil => rfl
    | cons step' steps' => cases h
  | cons step steps ih =>
    cases steps' with
    | nil => cases h
    | cons step' steps' =>
      rw [tail_cons, tail_cons, List.cons.injEq] at h
      obtain ⟨htext, htail⟩ := eq_of_append_tail (hdots step (by simp)) (hdots' step' (by simp))
        (isTail_tail _) (isTail_tail _) h.2
      rw [List.map_cons, List.map_cons, String.toList_inj.1 htext,
        ih (fun s hs => hdots s (by simp [hs])) (fun s hs => hdots' s (by simp [hs])) htail]

/-! ### The leaves of fields and items, one after the other -/

lemma fieldLeaves_eq_flatMap (fields : Fields) :
    fieldLeaves fields
      = fields.flatMap fun field =>
          field.2.leaves.map fun leaf => (.field field.1 :: leaf.1, leaf.2) := by
  induction fields with
  | nil => rfl
  | cons field fields ih => rw [fieldLeaves, ih]; rfl

lemma itemLeaves_eq_flatMap (numbering : Numbering) (position : Nat) (items : List Argument) :
    itemLeaves numbering position items
      = (items.zipIdx position).flatMap fun item =>
          item.1.leaves.map fun leaf => (.item (numbering.index item.2) :: leaf.1, leaf.2) := by
  induction items generalizing position with
  | nil => rfl
  | cons item items ih => rw [itemLeaves, ih]; rfl

lemma mem_leaves_object_iff {fields : Fields} {steps : List Step} {value : Value} :
    (steps, value) ∈ (Argument.object fields).leaves ↔
      ∃ name field rest, (name, field) ∈ fields ∧ steps = .field name :: rest ∧
        (rest, value) ∈ field.leaves := by
  rw [Argument.leaves, fieldLeaves_eq_flatMap, List.mem_flatMap]
  constructor
  · rintro ⟨⟨name, field⟩, hmem, hleaf⟩
    obtain ⟨⟨rest, value'⟩, hrest, heq⟩ := List.mem_map.1 hleaf
    cases heq
    exact ⟨name, field, rest, hmem, rfl, hrest⟩
  · rintro ⟨name, field, rest, hmem, rfl, hrest⟩
    exact ⟨(name, field), hmem, List.mem_map.2 ⟨(rest, value), hrest, rfl⟩⟩

lemma mem_leaves_list_iff {numbering : Numbering} {items : List Argument} {steps : List Step}
    {value : Value} :
    (steps, value) ∈ (Argument.list numbering items).leaves ↔
      ∃ position item rest, items[position]? = some item ∧
        steps = .item (numbering.index position) :: rest ∧ (rest, value) ∈ item.leaves := by
  rw [Argument.leaves, itemLeaves_eq_flatMap, List.mem_flatMap]
  constructor
  · rintro ⟨⟨item, position⟩, hmem, hleaf⟩
    obtain ⟨⟨rest, value'⟩, hrest, heq⟩ := List.mem_map.1 hleaf
    cases heq
    exact ⟨position, item, rest, List.mem_zipIdx_iff_getElem?.1 hmem, rfl, hrest⟩
  · rintro ⟨position, item, rest, hmem, rfl, hrest⟩
    exact ⟨(item, position), List.mem_zipIdx_iff_getElem?.2 hmem,
      List.mem_map.2 ⟨(rest, value), hrest, rfl⟩⟩

/-- Only a scalar is a leaf of itself. -/
lemma nil_mem_leaves_iff {argument : Argument} {value : Value} :
    ([], value) ∈ argument.leaves ↔ argument = .scalar value := by
  cases argument with
  | scalar value' => simp [Argument.leaves, eq_comm]
  | object fields => simp [mem_leaves_object_iff]
  | list numbering items => simp [mem_leaves_list_iff]

/-! ### Tidy arguments -/

/-- In each object of the argument the fields have distinct names without dots. -/
inductive Argument.Tidy : Argument → Prop
  | scalar (value : Value) : Tidy (.scalar value)
  | object (fields : List (String × Argument)) (nodup : (fields.map Prod.fst).Nodup)
      (dots : ∀ field ∈ fields, '.' ∉ field.1.toList)
      (inside : ∀ field ∈ fields, Tidy field.2) : Tidy (.object fields)
  | list (numbering : Numbering) (items : List Argument) (inside : ∀ item ∈ items, Tidy item) :
      Tidy (.list numbering items)

namespace Argument.Tidy

variable {argument : Argument}

lemma dots_leaves (h : argument.Tidy) :
    ∀ leaf ∈ argument.leaves, ∀ step ∈ leaf.1, '.' ∉ step.text.toList := by
  induction h with
  | scalar value => simp [Argument.leaves]
  | object fields _ dots _ ih =>
    rintro ⟨steps, value⟩ hleaf step hstep
    obtain ⟨name, field, rest, hmem, rfl, hrest⟩ := mem_leaves_object_iff.1 hleaf
    rcases List.mem_cons.1 hstep with rfl | hstep
    · exact dots _ hmem
    · exact ih _ hmem _ hrest step hstep
  | list numbering items _ ih =>
    rintro ⟨steps, value⟩ hleaf step hstep
    obtain ⟨position, item, rest, hitem, rfl, hrest⟩ := mem_leaves_list_iff.1 hleaf
    rcases List.mem_cons.1 hstep with rfl | hstep
    · exact dot_notMem_naturalText _
    · exact ih _ (List.mem_of_getElem? hitem) _ hrest step hstep

/-- The texts of the steps that lead to leaves behind one more step. -/
lemma map_texts_cons (step : Step) (leaves : List (List Step × Value)) :
    (leaves.map fun leaf => (step :: leaf.1, leaf.2)).map (fun leaf => leaf.1.map Step.text)
      = (leaves.map fun leaf => leaf.1.map Step.text).map (step.text :: ·) := by
  simp

/-- The steps of different leaves are written differently. -/
lemma nodup_texts (h : argument.Tidy) :
    (argument.leaves.map fun leaf => leaf.1.map Step.text).Nodup := by
  induction h with
  | scalar value => simp [Argument.leaves]
  | object fields nodup _ _ ih =>
    rw [Argument.leaves, fieldLeaves_eq_flatMap, List.map_flatMap, List.nodup_flatMap]
    refine ⟨?_, ?_⟩
    · intro field hfield
      rw [map_texts_cons]
      exact (ih field hfield).map fun _ _ htexts => (List.cons.inj htexts).2
    · have hnames : fields.Pairwise fun a b => a.1 ≠ b.1 := List.pairwise_map.1 nodup
      refine hnames.imp ?_
      intro a b hne
      simp only [Function.onFun, map_texts_cons, List.disjoint_left, List.mem_map]
      rintro _ ⟨texts, -, rfl⟩ ⟨texts', -, heq⟩
      exact hne (List.cons.inj heq).1.symm
  | list numbering items _ ih =>
    rw [Argument.leaves, itemLeaves_eq_flatMap, List.map_flatMap, List.nodup_flatMap]
    refine ⟨?_, ?_⟩
    · intro item hitem
      rw [map_texts_cons]
      exact (ih item.1 (List.fst_mem_of_mem_zipIdx hitem)).map
        fun _ _ htexts => (List.cons.inj htexts).2
    · have hpositions : (items.zipIdx).Pairwise fun a b => a.2 ≠ b.2 :=
        List.pairwise_map.1 (by
          rw [List.zipIdx_map_snd]
          exact List.nodup_range')
      refine hpositions.imp ?_
      intro a b hne
      simp only [Function.onFun, map_texts_cons, List.disjoint_left, List.mem_map]
      rintro _ ⟨texts, -, rfl⟩ ⟨texts', -, heq⟩
      exact hne (index_injective numbering (naturalText_injective (List.cons.inj heq).1.symm))

/-- The leaves of a tidy argument have distinct names behind any root. -/
theorem nodup_named (h : argument.Tidy) (root : String) :
    ((argument.named root).map Prod.fst).Nodup := by
  have hnames : (argument.named root).map Prod.fst
      = argument.leaves.map fun leaf => dotted root leaf.1 := by
    simp [Argument.named]
  rw [hnames]
  have htexts := List.pairwise_map.1 h.nodup_texts
  refine List.pairwise_map.2 (htexts.imp_of_mem ?_)
  intro leaf leaf' hleaf hleaf' hne heq
  have htail : tail leaf.1 = tail leaf'.1 := by
    have hchars := congrArg String.toList heq
    rw [toList_dotted, toList_dotted] at hchars
    exact List.append_cancel_left hchars
  exact hne (texts_eq_of_tail_eq (h.dots_leaves leaf hleaf) (h.dots_leaves leaf' hleaf') htail)

end Argument.Tidy

/-! ### Objects put together field by field -/

namespace Fields

/-- The fields have some of the given names, in their order, and are tidy inside. -/
def TidyWithin (names : List String) (fields : Fields) : Prop :=
  (fields.map Prod.fst).Sublist names ∧ ∀ field ∈ fields, field.2.Tidy

lemma tidyWithin_optional (name : String) (value? : Option Value) :
    TidyWithin [name] (optional name value?) := by
  cases value? with
  | none => simp [TidyWithin, optional]
  | some v => simpa [TidyWithin, optional, value] using Argument.Tidy.scalar v

lemma tidyWithin_text? (name : String) (s? : Option String) : TidyWithin [name] (text? name s?) :=
  tidyWithin_optional name _

lemma tidyWithin_number? (name : String) (n? : Option UInt32) :
    TidyWithin [name] (number? name n?) :=
  tidyWithin_optional name _

lemma tidyWithin_boolean? (name : String) (b? : Option Bool) :
    TidyWithin [name] (boolean? name b?) :=
  tidyWithin_optional name _

lemma tidyWithin_list (name : String) (numbering : Numbering) {items : List Argument}
    (h : ∀ item ∈ items, item.Tidy) : TidyWithin [name] (list name numbering items) := by
  cases items with
  | nil => simp [TidyWithin, list]
  | cons item items => simpa [TidyWithin, list] using Argument.Tidy.list numbering _ h

lemma tidyWithin_object (name : String) {fields? : Option Fields}
    (h : ∀ fields ∈ fields?, (Argument.object fields).Tidy) :
    TidyWithin [name] (object name fields?) := by
  rcases fields? with _ | _ | ⟨field, fields⟩
  · simp [TidyWithin, object]
  · simp [TidyWithin, object]
  · simpa [TidyWithin, object] using h _ rfl

lemma tidyWithin_texts (name : String) (numbering : Numbering) (ss : List String) :
    TidyWithin [name] (texts name numbering ss) := by
  refine tidyWithin_list name numbering ?_
  intro item hitem
  obtain ⟨s, -, rfl⟩ := List.mem_map.1 hitem
  exact .scalar (.text s)

lemma TidyWithin.append {names names' : List String} {fields fields' : Fields}
    (h : TidyWithin names fields) (h' : TidyWithin names' fields') :
    TidyWithin (names ++ names') (fields ++ fields') := by
  constructor
  · rw [List.map_append]
    exact h.1.append h'.1
  · intro field hfield
    rcases List.mem_append.1 hfield with hfield | hfield
    · exact h.2 field hfield
    · exact h'.2 field hfield

/-- An object is tidy if its fields are within distinct names without dots. -/
lemma TidyWithin.tidy_object {names : List String} {fields : Fields} (h : TidyWithin names fields)
    (hnodup : names.Nodup) (hdots : ∀ name ∈ names, '.' ∉ name.toList) :
    (Argument.object fields).Tidy := by
  refine .object fields (h.1.nodup hnodup) ?_ h.2
  intro field hfield
  exact hdots field.1 (h.1.subset (List.mem_map_of_mem hfield))

/-! What is found under a name -/

lemma lookup_optional (name n : String) (value? : Option Value) :
    (optional n value?).lookup name = if name = n then value?.map .scalar else none := by
  cases value? with
  | none => simp [optional]
  | some v =>
    by_cases h : name = n
    · simp [optional, value, h]
    · have hne : (name == n) = false := by simpa using h
      simp [optional, value, List.lookup_cons, hne, h]

lemma lookup_list_of_ne {name n : String} (h : name ≠ n) (numbering : Numbering)
    (items : List Argument) : (list n numbering items).lookup name = none := by
  have hne : (name == n) = false := by simpa using h
  cases items with
  | nil => rfl
  | cons item items => simp [list, List.lookup_cons, hne]

end Fields

end CloudCodec.Parameter
