/-
# The first broken rule

What a rule asks of the items of a list is said here without the check, in terms of the items alone
(`FlagRule.Kept`), and so is the way in which they break it (`FlagRule.Breaks`): the items that set
the flag are counted first, and only if there is one, that item is looked at, whether it is alone,
then where it stands, then for its value.  Items keep a rule or break it in exactly one way, and the
check tells which (`FlagRule.kept_iff`, `FlagRule.breaks_iff`).

A list is refused for the first of its rules that is broken, before anything is encoded, so the
names of its parameters and the set that they would go to do not matter (`refused_for_first`).  A
list that keeps its rules is encoded as its leaves (`ItemList.of_encode_eq_ok`).
-/
import CloudCodec.Proofs.Parameter.Histories
import CloudCodec.Proofs.Parameter.Naming

namespace CloudCodec.Parameter

/-! ### Items -/

/-- An argument is an object whose first field of a name is a given one. -/
def HasFirst (argument : Argument) (name : String) (field : Argument) : Prop :=
  ∃ before after : Fields, argument = .object (before ++ (name, field) :: after) ∧
    ∀ f ∈ before, f.1 ≠ name

lemma hasFirst_iff {argument field : Argument} {name : String} :
    HasFirst argument name field ↔ argument.field? name = some field := by
  constructor
  · rintro ⟨before, after, rfl, hbefore⟩
    exact List.lookup_eq_some_iff.2 ⟨before, after, rfl, fun f hf => by
      simpa using (hbefore f hf).symm⟩
  · intro h
    cases argument with
    | scalar _ => cases h
    | list _ _ => cases h
    | object fields =>
      obtain ⟨before, after, rfl, hbefore⟩ := List.lookup_eq_some_iff.1 h
      exact ⟨before, after, rfl, fun f hf => by simpa using Ne.symm (by simpa using hbefore f hf)⟩

/-- The first field of a name is the only first one. -/
lemma HasFirst.unique {argument field field' : Argument} {name : String}
    (h : HasFirst argument name field) (h' : HasFirst argument name field') : field = field' :=
  Option.some.inj ((hasFirst_iff.1 h).symm.trans (hasFirst_iff.1 h'))

namespace FlagRule

/-- An item sets a flag: it is an object whose first field of that name is the boolean `true`. -/
def Sets (flag : String) (item : Argument) : Prop := HasFirst item flag (.scalar (.boolean true))

/-- A field of an item has a value: the first field of that name is a scalar that is written so. -/
def IsWritten (item : Argument) (field value : String) : Prop :=
  ∃ v : Value, HasFirst item field (.scalar v) ∧ v.wire = value

lemma isSet_iff {flag : String} {item : Argument} : isSet flag item = true ↔ Sets flag item := by
  rw [Sets, hasFirst_iff, isSet]
  split
  · rename_i h
    simp [h]
  · rename_i h
    simpa using h

instance (flag : String) (item : Argument) : Decidable (Sets flag item) :=
  decidable_of_iff _ isSet_iff

lemma hasValue_iff {item : Argument} {field value : String} :
    hasValue item field value = true ↔ IsWritten item field value := by
  rw [hasValue, beq_iff_eq, Option.map_eq_some_iff]
  constructor
  · rintro ⟨v, hv, hwire⟩
    obtain ⟨argument, hfield, hvalue⟩ := Option.bind_eq_some_iff.1 hv
    cases argument with
    | scalar v' =>
      cases hvalue
      exact ⟨v, hasFirst_iff.2 hfield, hwire⟩
    | object _ => cases hvalue
    | list _ _ => cases hvalue
  · rintro ⟨v, hfirst, hwire⟩
    exact ⟨v, by rw [hasFirst_iff.1 hfirst]; rfl, hwire⟩

/-- Of the items around one that sets a flag, no other one sets it. -/
structure SetsAlone (flag : String) (before : List Argument) (item : Argument)
    (after : List Argument) : Prop where
  sets : Sets flag item
  others : ∀ other ∈ before ++ after, ¬ Sets flag other

/-! ### Rules that are kept or broken -/

variable {rule : FlagRule} {list : String} {items before after : List Argument} {item : Argument}

/-- The items keep a rule: none of them sets the flag, or a single one does, which is alone, stands
and has a value as the rule asks. -/
inductive Kept (rule : FlagRule) : List Argument → Prop
  | none {items : List Argument} : (∀ item ∈ items, ¬ Sets rule.flag item) → Kept rule items
  | one {before after : List Argument} {item : Argument} :
      SetsAlone rule.flag before item after →
      (rule.isSole = true → (before ++ item :: after).length = 1) →
      (∀ required, rule.position = some required → before.length = required) →
      (∀ field value, rule.required = some (field, value) → IsWritten item field value) →
        Kept rule (before ++ item :: after)

/-- The way in which the items of a list break a rule, of which the earlier conditions are met. -/
inductive Breaks (rule : FlagRule) (list : String) : List Argument → Violation → Prop
  | count {items : List Argument} : 1 < items.countP (Sets rule.flag ·) →
      Breaks rule list items (.notUnique list rule.flag (items.countP (Sets rule.flag ·)))
  | sole {before after : List Argument} {item : Argument} :
      SetsAlone rule.flag before item after → rule.isSole = true →
      1 < (before ++ item :: after).length →
        Breaks rule list (before ++ item :: after)
          (.notAlone list rule.flag (before ++ item :: after).length)
  | position {before after : List Argument} {item : Argument} {required : Nat} :
      SetsAlone rule.flag before item after →
      (rule.isSole = true → (before ++ item :: after).length = 1) →
      rule.position = some required → before.length ≠ required →
        Breaks rule list (before ++ item :: after)
          (.misplaced list rule.flag required before.length)
  | required {before after : List Argument} {item : Argument} {field value : String} :
      SetsAlone rule.flag before item after →
      (rule.isSole = true → (before ++ item :: after).length = 1) →
      (∀ required, rule.position = some required → before.length = required) →
      rule.required = some (field, value) → ¬ IsWritten item field value →
        Breaks rule list (before ++ item :: after) (.unmet list rule.flag field value)

/-- Where no other item sets a flag, the item that sets it is found at its place only. -/
lemma SetsAlone.eq_of_sets {position : Nat} {other : Argument}
    (h : SetsAlone rule.flag before item after)
    (hother : (before ++ item :: after)[position]? = some other)
    (hsets : Sets rule.flag other) : other = item ∧ position = before.length := by
  rcases Nat.lt_trichotomy position before.length with hlt | rfl | hgt
  · rw [List.getElem?_append_left hlt] at hother
    have hmem := List.mem_append_left after (List.mem_of_getElem? hother)
    exact absurd hsets (h.others other hmem)
  · rw [List.getElem?_append_right (Nat.le_refl _), Nat.sub_self] at hother
    exact ⟨(Option.some.inj hother).symm, rfl⟩
  · obtain ⟨n, rfl⟩ := Nat.exists_eq_add_of_lt hgt
    rw [List.getElem?_append_right (by omega), Nat.add_assoc, Nat.add_sub_cancel_left] at hother
    have hmem := List.mem_append_right before (List.mem_of_getElem? (l := after) hother)
    exact absurd hsets (h.others other hmem)

/-- Where items keep a rule, the item that sets the flag is the only one that does, and it is as the
rule asks. -/
theorem Kept.of_sets {position : Nat} (h : rule.Kept items) (hitem : items[position]? = some item)
    (hsets : Sets rule.flag item) :
    (∀ position' item', items[position']? = some item' → Sets rule.flag item' →
      position' = position) ∧
    (rule.isSole = true → items.length = 1) ∧
    (∀ required, rule.position = some required → position = required) ∧
    ∀ field value, rule.required = some (field, value) → IsWritten item field value := by
  cases h with
  | none hnone => exact absurd hsets (hnone item (List.mem_of_getElem? hitem))
  | one halone hsole hplaced hvalued =>
    obtain ⟨rfl, rfl⟩ := halone.eq_of_sets hitem hsets
    exact ⟨fun _ _ hitem' hsets' => (halone.eq_of_sets hitem' hsets').2, hsole, hplaced, hvalued⟩

/-- Where one item sets a flag, it is found. -/
lemma exists_setsAlone (h : items.countP (Sets rule.flag ·) = 1) :
    ∃ before item after, items = before ++ item :: after ∧
      SetsAlone rule.flag before item after := by
  obtain ⟨item, hmem, hsets⟩ := List.countP_pos_iff.1 (h ▸ Nat.one_pos)
  obtain ⟨before, after, rfl⟩ := List.append_of_mem hmem
  have hsets' : Sets rule.flag item := of_decide_eq_true hsets
  have hothers : (before ++ after).countP (Sets rule.flag ·) = 0 := by
    rw [List.countP_append, List.countP_cons, if_pos hsets] at h
    rw [List.countP_append]
    omega
  rw [List.countP_eq_zero] at hothers
  exact ⟨before, item, after, rfl, hsets', fun other hother => by simpa using hothers other hother⟩

/-- Items keep a rule or break it. -/
theorem kept_or_breaks (rule : FlagRule) (list : String) (items : List Argument) :
    rule.Kept items ∨ ∃ violation, rule.Breaks list items violation := by
  rcases Nat.lt_trichotomy (items.countP (Sets rule.flag ·)) 1 with hnone | hone | hmany
  · rw [Nat.lt_one_iff, List.countP_eq_zero] at hnone
    exact .inl (.none fun item hitem => by simpa using hnone item hitem)
  · obtain ⟨before, item, after, rfl, halone⟩ := exists_setsAlone hone
    -- the conditions on the one item, in the order in which they are checked
    by_cases hsole : rule.isSole = true → (before ++ item :: after).length = 1
    · by_cases hplaced : ∀ required, rule.position = some required → before.length = required
      · by_cases hvalued : ∀ field value, rule.required = some (field, value) →
            IsWritten item field value
        · exact .inl (.one halone hsole hplaced hvalued)
        · push Not at hvalued
          obtain ⟨field, value, hrequired, hlacks⟩ := hvalued
          exact .inr ⟨_, .required halone hsole hplaced hrequired hlacks⟩
      · push Not at hplaced
        obtain ⟨required, hposition, hne⟩ := hplaced
        exact .inr ⟨_, .position halone hsole hposition hne⟩
    · push Not at hsole
      obtain ⟨hsole, hlength⟩ := hsole
      refine .inr ⟨_, .sole halone hsole ?_⟩
      simp only [List.length_append, List.length_cons] at hlength ⊢
      omega
  · exact .inr ⟨_, .count hmany⟩

/-! ### What the check tells -/

lemma length_flagged (rule : FlagRule) (items : List Argument) :
    (rule.flagged items).length = items.countP (Sets rule.flag ·) := by
  have hfst : items.countP (isSet rule.flag)
      = items.zipIdx.countP fun p => isSet rule.flag p.1 := by
    conv_lhs => rw [← List.zipIdx_map_fst 0 items, List.countP_map]
    rfl
  -- counted with their positions the items are as many as without
  rw [flagged, ← List.countP_eq_length_filter, ← hfst]
  refine List.countP_congr fun item _ => ?_
  simp [isSet_iff]

lemma filter_zipIdx_eq_nil {flag : String} {n : Nat} (h : ∀ item ∈ items, ¬ Sets flag item) :
    ((items.zipIdx n).filter fun p => isSet flag p.1) = [] := by
  rw [List.filter_eq_nil_iff]
  intro p hp
  rw [isSet_iff]
  exact h p.1 (List.fst_mem_of_mem_zipIdx hp)

/-- The one item that sets a flag is found with its position. -/
lemma flagged_of_setsAlone (h : SetsAlone rule.flag before item after) :
    rule.flagged (before ++ item :: after) = [(item, before.length)] := by
  have hbefore : ∀ other ∈ before, ¬ Sets rule.flag other :=
    fun other hother => h.others other (List.mem_append_left _ hother)
  have hafter : ∀ other ∈ after, ¬ Sets rule.flag other :=
    fun other hother => h.others other (List.mem_append_right _ hother)
  have hitem : isSet rule.flag (item, 0 + before.length).1 = true := isSet_iff.2 h.sets
  rw [flagged, List.zipIdx_append, List.zipIdx_cons, List.filter_append,
    filter_zipIdx_eq_nil hbefore, List.filter_cons, if_pos hitem, filter_zipIdx_eq_nil hafter,
    Nat.zero_add, List.nil_append]

/-! The conditions on the one item that sets the flag, as the check looks for what breaks them. -/

lemma isSole_and_eq_false {n : Nat} (h : rule.isSole = true → n = 1) :
    (rule.isSole && decide (n > 1)) = false := by
  cases hsole : rule.isSole with
  | false => rfl
  | true => simp [h hsole]

lemma filter_position_eq_none {found : Nat}
    (h : ∀ required, rule.position = some required → found = required) :
    rule.position.filter (· ≠ found) = none := by
  rw [Option.filter_eq_none_iff]
  intro required hrequired
  simp [h required hrequired]

lemma filter_required_eq_none
    (h : ∀ field value, rule.required = some (field, value) → IsWritten item field value) :
    (rule.required.filter fun r => !hasValue item r.1 r.2) = none := by
  rw [Option.filter_eq_none_iff]
  rintro ⟨field, value⟩ hrequired
  simp [hasValue_iff.2 (h field value hrequired)]

lemma filter_required_eq_some {field value : String} (h : rule.required = some (field, value))
    (hlacks : ¬ IsWritten item field value) :
    (rule.required.filter fun r => !hasValue item r.1 r.2) = some (field, value) := by
  rw [← hasValue_iff, Bool.not_eq_true] at hlacks
  simp [Option.filter_eq_some_iff, h, hlacks]

/-- Items that keep a rule pass. -/
lemma violation?_of_kept (list : String) (h : rule.Kept items) :
    rule.violation? list items = none := by
  cases h with
  | none hnone => rw [violation?, flagged, filter_zipIdx_eq_nil hnone]
  | one halone hsole hplaced hvalued =>
    rw [violation?, flagged_of_setsAlone halone]
    simp only [isSole_and_eq_false hsole, Bool.false_eq_true, if_false]
    rw [filter_position_eq_none hplaced, filter_required_eq_none hvalued]

/-- Items that break a rule are refused for the way in which they do. -/
lemma violation?_of_breaks {violation : Violation} (h : rule.Breaks list items violation) :
    rule.violation? list items = some violation := by
  cases h with
  | count hmany =>
    rw [← length_flagged] at hmany ⊢
    match hflagged : rule.flagged items with
    | [] => simp [hflagged] at hmany
    | [_] => simp [hflagged] at hmany
    | _ :: _ :: _ => simp [violation?, hflagged]
  | sole halone hsole hlength =>
    rw [violation?, flagged_of_setsAlone halone]
    simp only
    rw [if_pos (by simpa [hsole] using hlength)]
  | position halone hsole hposition hne =>
    rw [violation?, flagged_of_setsAlone halone]
    simp only [isSole_and_eq_false hsole, Bool.false_eq_true, if_false]
    rw [Option.filter_eq_some_iff.2 ⟨hposition, decide_eq_true (Ne.symm hne)⟩]
  | required halone hsole hplaced hrequired hlacks =>
    rw [violation?, flagged_of_setsAlone halone]
    simp only [isSole_and_eq_false hsole, Bool.false_eq_true, if_false]
    rw [filter_position_eq_none hplaced, filter_required_eq_some hrequired hlacks]

/-- Items pass exactly if they keep the rule. -/
theorem kept_iff (list : String) : rule.Kept items ↔ rule.violation? list items = none := by
  refine ⟨violation?_of_kept list, fun h => ?_⟩
  rcases kept_or_breaks rule list items with hkept | ⟨violation, hbreaks⟩
  · exact hkept
  · rw [violation?_of_breaks hbreaks] at h
    cases h

/-- Items are refused exactly for the way in which they break the rule. -/
theorem breaks_iff {violation : Violation} :
    rule.Breaks list items violation ↔ rule.violation? list items = some violation := by
  refine ⟨violation?_of_breaks, fun h => ?_⟩
  rcases kept_or_breaks rule list items with hkept | ⟨violation', hbreaks⟩
  · rw [violation?_of_kept list hkept] at h
    cases h
  · rw [violation?_of_breaks hbreaks] at h
    cases h
    exact hbreaks

end FlagRule

/-! ### Lists -/

namespace ItemList

variable {list : ItemList} {scope : Option String} {items : List Argument} {set : ParameterSet}
  {before rest : List FlagRule} {rule : FlagRule} {violation : Violation}

lemma validate_eq_ok_iff :
    list.validate items = .ok () ↔ ∀ rule ∈ list.rules, rule.Kept items := by
  have hnone : list.validate items = .ok () ↔
      list.rules.findSome? (fun rule => rule.violation? list.name items) = none := by
    unfold validate
    split <;> simp_all
  rw [hnone, List.findSome?_eq_none_iff]
  exact forall₂_congr fun rule _ => (FlagRule.kept_iff list.name).symm

/-- A list that keeps its rules is encoded as its leaves. -/
lemma encodes_of_kept (h : ∀ rule ∈ list.rules, rule.Kept items) :
    Encodes ((Argument.list list.numbering items).named (qualify scope list.name))
      (list.encode scope items) := by
  have hscalars := scalars_eq_named (qualify scope list.name) (.list list.numbering items)
  rw [Argument.scalars] at hscalars
  have hencode : list.encode scope items = ParameterSet.addAll ∅
      (itemScalars (qualify scope list.name) list.numbering 0 items) := by
    rw [encode, validate_eq_ok_iff.2 h]
  rw [hencode, hscalars]
  exact encodes_addAll _

/-- A rule that is broken behind rules that are kept is the one that is told. -/
lemma validate_of_breaks (hrules : list.rules = before ++ rule :: rest)
    (hbefore : ∀ earlier ∈ before, earlier.Kept items)
    (hbreaks : rule.Breaks list.name items violation) :
    list.validate items = .error (.invalid violation) := by
  have hfirst : list.rules.findSome? (fun rule => rule.violation? list.name items)
      = some violation :=
    List.findSome?_eq_some_iff.2 ⟨before, rule, rest, hrules, FlagRule.breaks_iff.1 hbreaks,
      fun earlier hearlier => (FlagRule.kept_iff list.name).1 (hbefore earlier hearlier)⟩
  rw [validate, hfirst]

/-- If not all rules are kept, there is a first one that is broken. -/
lemma exists_first_broken (h : ¬ ∀ rule ∈ list.rules, rule.Kept items) :
    ∃ before rule rest violation, list.rules = before ++ rule :: rest ∧
      (∀ earlier ∈ before, earlier.Kept items) ∧ rule.Breaks list.name items violation := by
  cases hfirst : list.rules.findSome? (fun rule => rule.violation? list.name items) with
  | none =>
    rw [List.findSome?_eq_none_iff] at hfirst
    exact absurd (fun rule hrule => (FlagRule.kept_iff list.name).2 (hfirst rule hrule)) h
  | some violation =>
    obtain ⟨before, rule, rest, hrules, hviolation, hbefore⟩ :=
      List.findSome?_eq_some_iff.1 hfirst
    exact ⟨before, rule, rest, violation, hrules,
      fun earlier hearlier => (FlagRule.kept_iff list.name).2 (hbefore earlier hearlier),
      FlagRule.breaks_iff.2 hviolation⟩

/-- A list that breaks a rule is refused for it. -/
lemma exists_violation_of_not_kept (scope : Option String)
    (h : ¬ ∀ rule ∈ list.rules, rule.Kept items) :
    ∃ violation, list.encode scope items = .error (.invalid violation) := by
  obtain ⟨before, rule, rest, violation, hrules, hbefore, hbreaks⟩ := exists_first_broken h
  exact ⟨violation, by rw [encode, validate_of_breaks hrules hbefore hbreaks]⟩

/-- The parameters of an accepted list are its leaves, and its rules are kept. -/
lemma of_encode_eq_ok (h : list.encode scope items = .ok set) :
    (∀ rule ∈ list.rules, rule.Kept items) ∧ ∀ name text, set.get? name = some text ↔
      (name, text) ∈ (Argument.list list.numbering items).named (qualify scope list.name) := by
  by_cases hkept : ∀ rule ∈ list.rules, rule.Kept items
  · exact ⟨hkept, (encodes_of_kept hkept).get?_eq_some_iff set h⟩
  · obtain ⟨violation, hviolation⟩ := exists_violation_of_not_kept scope hkept
    rw [hviolation] at h
    cases h

/-- A list passes exactly if its items keep all of its rules.  Otherwise it is refused for the first
rule that is broken and for the first condition of it that is not met, by the check, by the
encoding, and by the encoding into a set, which stays as it was. -/
theorem refused_for_first (list : ItemList) (scope : Option String) (items : List Argument)
    (set : ParameterSet) :
    (list.validate items = .ok () ↔ ∀ rule ∈ list.rules, rule.Kept items) ∧
    ((¬ ∀ rule ∈ list.rules, rule.Kept items) →
      ∃ before rule rest violation, list.rules = before ++ rule :: rest ∧
        (∀ earlier ∈ before, earlier.Kept items) ∧ rule.Breaks list.name items violation) ∧
    ∀ before rule rest violation, list.rules = before ++ rule :: rest →
      (∀ earlier ∈ before, earlier.Kept items) → rule.Breaks list.name items violation →
        list.validate items = .error (.invalid violation) ∧
        list.encode scope items = .error (.invalid violation) ∧
        list.encodeInto set scope items = .error (.invalid violation) ∧
        list.encodeInPlace scope items set = .error (.invalid violation) set := by
  refine ⟨validate_eq_ok_iff, exists_first_broken, ?_⟩
  intro before rule rest violation hrules hbefore hbreaks
  have hvalidate := validate_of_breaks hrules hbefore hbreaks
  have hencode : list.encode scope items = .error (.invalid violation) := by
    rw [encode, hvalidate]
  have hinto : list.encodeInto set scope items = .error (.invalid violation) := by
    rw [encodeInto, hencode]
  refine ⟨hvalidate, hencode, hinto, ?_⟩
  rw [encodeInPlace_eq, hinto]
  rfl

/-- Items of which the second one sets a flag and has a field twice. -/
def sampleItems : List Argument :=
  [.scalar (.boolean true), .object [("G", .scalar (.boolean true)), ("A", .scalar (.text "y")),
    ("A", .scalar (.text "x")), ("F", .scalar (.boolean false))]]

/-- The second of two rules is broken, by items that would have names twice. -/
theorem refused_for_first_sample :
    ItemList.encodeInPlace
        ⟨"L", .fromOne, [⟨"F", false, some 1, none⟩, ⟨"G", true, some 0, some ("A", "x")⟩]⟩
        (some "P") sampleItems (.ofList [("P.L.1", "z")])
      = .error (.invalid (.notAlone "L" "G" 2)) (.ofList [("P.L.1", "z")]) := by
  have hkept : FlagRule.Kept ⟨"F", false, some 1, none⟩ sampleItems :=
    (FlagRule.kept_iff "L").2 (by decide +kernel)
  have hbreaks : FlagRule.Breaks ⟨"G", true, some 0, some ("A", "x")⟩ "L" sampleItems
      (.notAlone "L" "G" 2) :=
    FlagRule.breaks_iff.2 (by decide +kernel)
  exact ((refused_for_first _ _ _ _).2.2 [_] _ [] _ rfl (by simpa using hkept) hbreaks).2.2.2

end ItemList

end CloudCodec.Parameter
