/-
# Flags in the parameters of a list

A rule is checked on the items of a list before they are encoded: an item sets the flag when its
first field of that name is the boolean `true` (`FlagRule.Sets`).  What a receiver sees are
parameters, and there a flag is any one whose value is written `true`.  The two agree but for items
that write the flag as `true` in another way (`Disguises`): as a text, in a later field of the same
name, or as an entry of a list whose number is the name of the flag.  Such items pass unseen
(`disguised_flags_accepted`).  For all others the parameters keep what the rule asks
(`guarded_of_encode`).
-/
import CloudCodec.Proofs.Parameter.Rules

namespace CloudCodec.Parameter

/-! ### Leaves one step inside an item -/

section Fields

variable {item : Argument} {name : String} {value : Value}

/-- A scalar that is the first field of a name is a leaf one step inside. -/
lemma HasFirst.mem_leaves (h : HasFirst item name (.scalar value)) :
    ([.field name], value) ∈ item.leaves := by
  obtain ⟨before, after, rfl, -⟩ := h
  exact mem_leaves_object_iff.2 ⟨name, .scalar value, [], by simp, rfl, by simp [Argument.leaves]⟩

/-- In an object with distinct names each scalar is the first field of its name. -/
lemma hasFirst_of_mem_leaves {fields : Fields} (hnodup : (fields.map Prod.fst).Nodup)
    {step : Step} (h : ([step], value) ∈ (Argument.object fields).leaves) :
    HasFirst (.object fields) step.text (.scalar value) := by
  obtain ⟨name, field, rest, hmem, hsteps, hrest⟩ := mem_leaves_object_iff.1 h
  obtain ⟨rfl, rfl⟩ := List.cons.inj hsteps
  rw [nil_mem_leaves_iff.1 hrest] at hmem
  obtain ⟨before, after, rfl⟩ := List.append_of_mem hmem
  rw [List.map_append, List.nodup_append] at hnodup
  refine ⟨before, after, rfl, ?_⟩
  intro field hfield
  exact hnodup.2.2 field.1 (List.mem_map_of_mem hfield) name (by simp)

end Fields

/-- The name of a field of the item with a number. -/
def itemKey (root : String) (index : Nat) (field : String) : String :=
  under (under root (Numeral.naturalText index)) field

section Keys

variable {root name text : String} {numbering : Numbering} {items : List Argument}

lemma toList_itemKey (root : String) (index : Nat) (field : String) :
    (itemKey root index field).toList
      = root.toList ++ '.' :: ((Numeral.naturalText index).toList ++ '.' :: field.toList) := by
  rw [itemKey, toList_under, toList_under]
  simp

/-- A leaf one step inside an item is named by the number of the item and that step. -/
lemma mem_named_of_mem_leaves {position : Nat} {item : Argument} {step : Step} {value : Value}
    (hitem : items[position]? = some item) (hleaf : ([step], value) ∈ item.leaves) :
    (itemKey root (numbering.index position) step.text, value.wire)
      ∈ (Argument.list numbering items).named root :=
  List.mem_map.2 ⟨([.item (numbering.index position), step], value),
    mem_leaves_list_iff.2 ⟨position, item, [step], hitem, rfl, hleaf⟩, rfl⟩

/-- A name that goes on behind the number of an item is the name of a leaf of that item. -/
lemma exists_of_mem_named {index : Nat} {x : List Char} (hx : IsTail x)
    (hname : name.toList = root.toList ++ '.' :: ((Numeral.naturalText index).toList ++ x))
    (h : (name, text) ∈ (Argument.list numbering items).named root) :
    ∃ position item rest value, items[position]? = some item ∧
      numbering.index position = index ∧ (rest, value) ∈ item.leaves ∧ tail rest = x ∧
      value.wire = text := by
  obtain ⟨⟨steps, value⟩, hleaf, heq⟩ := List.mem_map.1 h
  obtain ⟨position, item, rest, hitem, rfl, hrest⟩ := mem_leaves_list_iff.1 hleaf
  obtain ⟨rfl, rfl⟩ := Prod.mk.inj heq
  rw [toList_dotted, tail_cons] at hname
  have hbehind := (List.cons.inj (List.append_cancel_left hname)).2
  obtain ⟨hindex, htail⟩ := eq_of_append_tail (dot_notMem_naturalText _)
    (dot_notMem_naturalText index) (isTail_tail rest) hx hbehind
  exact ⟨position, item, rest, value, hitem, naturalText_injective (String.toList_inj.1 hindex),
    hrest, htail, rfl⟩

/-- A name that goes one step without dots into an item is the name of a leaf one step inside. -/
lemma exists_of_itemKey_mem_named {field : String} (hfield : '.' ∉ field.toList) {index : Nat}
    (h : (itemKey root index field, text) ∈ (Argument.list numbering items).named root) :
    ∃ position item step value, items[position]? = some item ∧
      numbering.index position = index ∧ ([step], value) ∈ item.leaves ∧ step.text = field ∧
      value.wire = text := by
  obtain ⟨position, item, rest, value, hitem, hindex, hrest, htail, hwire⟩ :=
    exists_of_mem_named (isTail_cons field.toList) (toList_itemKey root index field) h
  -- the field holds no dot, so a single step is left
  cases rest with
  | nil => cases htail
  | cons step rest =>
    rw [tail_cons] at htail
    have hstep : step.text.toList ++ tail rest = field.toList := (List.cons.inj htail).2
    cases rest with
    | nil =>
      rw [tail, List.flatMap_nil, List.append_nil] at hstep
      exact ⟨position, item, step, value, hitem, hindex, hrest, String.toList_inj.1 hstep, hwire⟩
    | cons step' rest =>
      rw [tail_cons] at hstep
      exact absurd (hstep ▸ by simp) hfield

end Keys

/-! ### Flags in the parameters -/

/-- An item writes a flag as `true` without setting it. -/
def Disguises (flag : String) (item : Argument) : Prop :=
  ¬ FlagRule.Sets flag item ∧
    ∃ step value, ([step], value) ∈ item.leaves ∧ step.text = flag ∧ value.wire = "true"

lemma wire_eq_true_iff {value : Value} :
    value.wire = "true" ↔ value = .boolean true ∨ value = .text "true" := by
  cases value with
  | text s => simp [Value.wire]
  | boolean b => cases b <;> simp [Value.wire]
  | integer n =>
    refine iff_of_false ?_ (by simp)
    intro h
    have hchars : (Value.integer n).wire.toList = ['t', 'r', 'u', 'e'] := by rw [h]; rfl
    cases n with
    | ofNat n =>
      -- the first character would have to be a digit
      have hdigits : Nat.toDigits 10 n = ['t', 'r', 'u', 'e'] :=
        String.toList_ofList.symm.trans hchars
      have hmem : 't' ∈ Nat.toDigits 10 n := by simp [hdigits]
      exact absurd (Nat.isDigit_of_mem_toDigits (by decide) (by decide) hmem) (by decide)
    | negSucc n => simp [Value.wire, Numeral.integerText] at hchars

/-- An object whose fields have distinct names disguises a flag only as a text. -/
theorem disguises_object_iff {flag : String} {fields : Fields}
    (hnodup : (fields.map Prod.fst).Nodup) :
    Disguises flag (.object fields) ↔ HasFirst (.object fields) flag (.scalar (.text "true")) := by
  constructor
  · rintro ⟨hsets, step, value, hleaf, rfl, hwire⟩
    have hfirst := hasFirst_of_mem_leaves hnodup hleaf
    rcases wire_eq_true_iff.1 hwire with rfl | rfl
    · exact absurd hfirst hsets
    · exact hfirst
  · intro h
    refine ⟨fun hsets => ?_, .field flag, .text "true", h.mem_leaves, rfl, rfl⟩
    cases h.unique hsets

/-- The parameters flag the item with a number, and that is not a disguise. -/
def Flags (flag root : String) (numbering : Numbering) (items : List Argument)
    (set : ParameterSet) (index : Nat) : Prop :=
  set.get? (itemKey root index flag) = some "true" ∧
    ∀ position item, items[position]? = some item → numbering.index position = index →
      ¬ Disguises flag item

/-- The parameters of a list keep what a rule asks of its items. -/
structure Guarded (rule : FlagRule) (root : String) (numbering : Numbering)
    (items : List Argument) (set : ParameterSet) : Prop where
  /-- The items that the parameters flag are those that set the flag. -/
  flags_iff : ∀ position item, items[position]? = some item →
    (Flags rule.flag root numbering items set (numbering.index position) ↔
      FlagRule.Sets rule.flag item)
  /-- At most one number is flagged. -/
  unique : ∀ index index', Flags rule.flag root numbering items set index →
    Flags rule.flag root numbering items set index' → index = index'
  /-- It is the number of the only item, if the flag asks for that. -/
  alone : ∀ index, Flags rule.flag root numbering items set index →
    rule.isSole = true → items.length = 1
  /-- It is the number of the position where the flag must stand. -/
  placed : ∀ index, Flags rule.flag root numbering items set index →
    ∀ position, rule.position = some position → index = numbering.index position
  /-- The field that is asked for is there with its value. -/
  valued : ∀ index, Flags rule.flag root numbering items set index →
    ∀ field value, rule.required = some (field, value) →
      set.get? (itemKey root index field) = some value

section Flags

variable {flag root : String} {numbering : Numbering} {items : List Argument} {set : ParameterSet}
  (hget : ∀ name text, set.get? name = some text ↔
    (name, text) ∈ (Argument.list numbering items).named root)
include hget

/-- What the parameters flag is an item that sets the flag. -/
lemma exists_sets_of_flags (hflag : '.' ∉ flag.toList) {index : Nat}
    (h : Flags flag root numbering items set index) :
    ∃ position item, items[position]? = some item ∧ numbering.index position = index ∧
      FlagRule.Sets flag item := by
  obtain ⟨htrue, hplain⟩ := h
  obtain ⟨position, item, step, value, hitem, hindex, hleaf, htext, hwire⟩ :=
    exists_of_itemKey_mem_named hflag ((hget _ _).1 htrue)
  refine ⟨position, item, hitem, hindex, ?_⟩
  by_contra hsets
  exact hplain position item hitem hindex ⟨hsets, step, value, hleaf, htext, hwire⟩

/-- The parameters have what the first field of a name of an item holds. -/
lemma get?_itemKey_of_hasFirst {position : Nat} {item : Argument} {field : String} {value : Value}
    (hitem : items[position]? = some item) (h : HasFirst item field (.scalar value)) :
    set.get? (itemKey root (numbering.index position) field) = some value.wire :=
  (hget _ _).2 (mem_named_of_mem_leaves hitem h.mem_leaves)

/-- The parameters flag an item exactly if it sets the flag. -/
lemma flags_iff_sets (hflag : '.' ∉ flag.toList) {position : Nat} {item : Argument}
    (hitem : items[position]? = some item) :
    Flags flag root numbering items set (numbering.index position) ↔ FlagRule.Sets flag item := by
  -- an item with the same number is the same item
  have hsame : ∀ position' item', items[position']? = some item' →
      numbering.index position' = numbering.index position → item' = item := by
    intro position' item' hitem' hindex
    rw [index_injective numbering hindex, hitem] at hitem'
    exact (Option.some.inj hitem').symm
  constructor
  · intro hflags
    obtain ⟨position', item', hitem', hindex, hsets⟩ := exists_sets_of_flags hget hflag hflags
    exact hsame position' item' hitem' hindex ▸ hsets
  · intro hsets
    refine ⟨get?_itemKey_of_hasFirst hget hitem hsets, ?_⟩
    intro position' item' hitem' hindex hdisguise
    rw [hsame position' item' hitem' hindex] at hdisguise
    exact hdisguise.1 hsets

end Flags

/-- The parameters of an accepted list keep what a rule on a flag without dots asks, but for items
that write the flag as `true` without setting it. -/
theorem guarded_of_encode (list : ItemList) (rule : FlagRule) (scope : Option String)
    (items : List Argument) (set : ParameterSet) (hrule : rule ∈ list.rules)
    (hflag : '.' ∉ rule.flag.toList) (h : list.encode scope items = .ok set) :
    Guarded rule (qualify scope list.name) list.numbering items set := by
  obtain ⟨hkept, hget⟩ := ItemList.of_encode_eq_ok h
  constructor
  case flags_iff =>
    intro position item hitem
    exact flags_iff_sets hget hflag hitem
  case unique =>
    intro index index' hflags hflags'
    obtain ⟨position, item, hitem, rfl, hsets⟩ := exists_sets_of_flags hget hflag hflags
    obtain ⟨position', item', hitem', rfl, hsets'⟩ := exists_sets_of_flags hget hflag hflags'
    obtain ⟨honly, -⟩ := (hkept rule hrule).of_sets hitem hsets
    rw [honly position' item' hitem' hsets']
  case alone =>
    intro index hflags
    obtain ⟨position, item, hitem, -, hsets⟩ := exists_sets_of_flags hget hflag hflags
    obtain ⟨-, halone, -⟩ := (hkept rule hrule).of_sets hitem hsets
    exact halone
  case placed =>
    intro index hflags required hrequired
    obtain ⟨position, item, hitem, rfl, hsets⟩ := exists_sets_of_flags hget hflag hflags
    obtain ⟨-, -, hplaced, -⟩ := (hkept rule hrule).of_sets hitem hsets
    rw [hplaced required hrequired]
  case valued =>
    intro index hflags field value hrequired
    obtain ⟨position, item, hitem, rfl, hsets⟩ := exists_sets_of_flags hget hflag hflags
    obtain ⟨-, -, -, hvalued⟩ := (hkept rule hrule).of_sets hitem hsets
    obtain ⟨v, hfirst, rfl⟩ := hvalued field value hrequired
    exact get?_itemKey_of_hasFirst hget hitem hfirst

/-- The second of two items, numbered from one, sets the flag and has the value asked for. -/
theorem guarded_of_encode_sample :
    ∃ set, ItemList.encode ⟨"L", .fromOne, [⟨"F", false, some 1, some ("D", "0")⟩]⟩ (some "P")
        [.object [("F", .scalar (.boolean false))],
          .object [("D", .scalar (.integer 0)), ("F", .scalar (.boolean true))]] = .ok set ∧
      set.get? "P.L.2.F" = some "true" ∧
      Guarded ⟨"F", false, some 1, some ("D", "0")⟩ (qualify (some "P") "L") .fromOne
        [.object [("F", .scalar (.boolean false))],
          .object [("D", .scalar (.integer 0)), ("F", .scalar (.boolean true))]] set := by
  have h : ItemList.encode ⟨"L", .fromOne, [⟨"F", false, some 1, some ("D", "0")⟩]⟩ (some "P")
        [.object [("F", .scalar (.boolean false))],
          .object [("D", .scalar (.integer 0)), ("F", .scalar (.boolean true))]]
      = .ok (.ofList [("P.L.1.F", "false"), ("P.L.2.D", "0"), ("P.L.2.F", "true")]) := by
    decide +kernel
  exact ⟨_, h, by decide +kernel, guarded_of_encode _ _ _ _ _ (by simp) (by decide) h⟩

/-- Two items that write the flag as a text are accepted, and the parameters flag both. -/
theorem disguised_flags_accepted :
    ∃ set, ItemList.encode ⟨"L", .fromZero, [⟨"F", false, none, none⟩]⟩ none
        [.object [("F", .scalar (.text "true"))], .object [("F", .scalar (.text "true"))]]
          = .ok set ∧
      set.get? (itemKey (qualify none "L") 0 "F") = some "true" ∧
      set.get? (itemKey (qualify none "L") 1 "F") = some "true" := by
  refine ⟨.ofList [("L.0.F", "true"), ("L.1.F", "true")], ?_, ?_, ?_⟩ <;> decide +kernel

end CloudCodec.Parameter
