/-
# The interfaces of a launch

An interface lists its fields under distinct names, so the parameters of a launch never clash, and
what they say of an interface is what the interface has.  The rule on public addresses is checked on
the interfaces; that it decides alone whether a launch is refused, and what an accepted launch then
shows in its parameters, is `encodeAll_publicAddress`.
-/
import CloudCodec.Proofs.Parameter.Flags
import CloudCodec.Request.Specification

namespace CloudCodec.Request

open Parameter

/-! ### Tidy fields -/

lemma PrivateAddress.tidy_fields (a : PrivateAddress) : (Argument.object a.fields).Tidy := by
  have hwithin : a.fields.TidyWithin ["PrivateIpAddress", "Primary"] :=
    (Fields.tidyWithin_text? _ _).append (Fields.tidyWithin_boolean? _ _)
  exact hwithin.tidy_object (by decide) (by decide)

namespace Interface

/-- The names that the fields of an interface can have on the wire. -/
def wireNames : List String :=
  ["NetworkInterfaceId", "DeviceIndex", "SubnetId", "Description", "PrivateIpAddress",
    "SecurityGroupId", "DeleteOnTermination", "PrivateIpAddresses",
    "SecondaryPrivateIpAddressCount", "AssociatePublicIpAddress", "SwitchId"]

lemma tidyWithin_fields (i : Interface) : i.fields.TidyWithin wireNames := by
  have haddresses : ∀ argument ∈ i.privateAddresses.map fun a => Argument.object a.fields,
      argument.Tidy := by
    intro argument hargument
    obtain ⟨a, -, rfl⟩ := List.mem_map.1 hargument
    exact a.tidy_fields
  have hids := Fields.tidyWithin_text? "NetworkInterfaceId" i.interfaceId
  exact (((((((((hids.append (Fields.tidyWithin_number? _ _)).append
    (Fields.tidyWithin_text? _ _)).append (Fields.tidyWithin_text? _ _)).append
    (Fields.tidyWithin_text? _ _)).append (Fields.tidyWithin_texts _ _ _)).append
    (Fields.tidyWithin_boolean? _ _)).append (Fields.tidyWithin_list _ _ haddresses)).append
    (Fields.tidyWithin_number? _ _)).append (Fields.tidyWithin_boolean? _ _)).append
    (Fields.tidyWithin_text? _ _)

lemma tidy_fields (i : Interface) : (Argument.object i.fields).Tidy :=
  i.tidyWithin_fields.tidy_object (by decide) (by decide)

/-! ### The fields that the rule reads -/

lemma lookup_deviceIndex (i : Interface) :
    i.fields.lookup "DeviceIndex"
      = i.deviceIndex.map fun n => .scalar (.integer n.toNat) := by
  simp [fields, List.lookup_append, Fields.text?, Fields.number?, Fields.boolean?,
    Fields.texts, Fields.lookup_optional, Fields.lookup_list_of_ne, Function.comp_def]

lemma lookup_associatePublicAddress (i : Interface) :
    i.fields.lookup "AssociatePublicIpAddress"
      = i.associatePublicAddress.map fun b => .scalar (.boolean b) := by
  simp [fields, List.lookup_append, Fields.text?, Fields.number?, Fields.boolean?,
    Fields.texts, Fields.lookup_optional, Fields.lookup_list_of_ne, Function.comp_def]

/-- An interface sets the flag exactly if it asks for a public address. -/
lemma sets_iff (i : Interface) :
    FlagRule.Sets "AssociatePublicIpAddress" (.object i.fields) ↔
      i.associatePublicAddress = some true := by
  have hfield : (Argument.object i.fields).field? "AssociatePublicIpAddress"
      = i.associatePublicAddress.map fun b => .scalar (.boolean b) :=
    i.lookup_associatePublicAddress
  rw [FlagRule.Sets, hasFirst_iff, hfield]
  simp

lemma hasFirst_deviceIndex_iff (i : Interface) {v : Value} :
    HasFirst (.object i.fields) "DeviceIndex" (.scalar v) ↔
      ∃ n, i.deviceIndex = some n ∧ v = .integer n.toNat := by
  have hfield : (Argument.object i.fields).field? "DeviceIndex"
      = i.deviceIndex.map fun n => .scalar (.integer n.toNat) := i.lookup_deviceIndex
  rw [hasFirst_iff, hfield, Option.map_eq_some_iff]
  simp only [Argument.scalar.injEq, eq_comm]

lemma isWritten_deviceIndex_iff (i : Interface) :
    FlagRule.IsWritten (.object i.fields) "DeviceIndex" "0" ↔ i.deviceIndex = some 0 := by
  constructor
  · rintro ⟨v, hfirst, hwire⟩
    obtain ⟨n, hn, rfl⟩ := i.hasFirst_deviceIndex_iff.1 hfirst
    have hzero : n.toNat = (0 : UInt32).toNat := naturalText_injective hwire
    rw [hn, UInt32.toNat_inj.1 hzero]
  · intro h
    exact ⟨.integer 0, i.hasFirst_deviceIndex_iff.2 ⟨0, h, rfl⟩, rfl⟩

/-! ### The rule on public addresses -/

variable {interfaces : List Interface}

/-- The arguments of interfaces. -/
def arguments (interfaces : List Interface) : List Argument :=
  interfaces.map fun i => .object i.fields

lemma length_arguments (interfaces : List Interface) :
    (arguments interfaces).length = interfaces.length := by
  simp [arguments]

lemma getElem?_arguments {position : Nat} {i : Interface} (h : interfaces[position]? = some i) :
    (arguments interfaces)[position]? = some (.object i.fields) := by
  rw [arguments, List.getElem?_map, h]
  rfl

/-- The rule is kept when an interface with a public address is the only one, at device index 0. -/
lemma kept_publicAddressRule_iff :
    publicAddressRule.Kept (arguments interfaces) ↔
      ∀ i ∈ interfaces, i.associatePublicAddress = some true →
        interfaces.length = 1 ∧ i.deviceIndex = some 0 := by
  constructor
  · intro h i hi htrue
    obtain ⟨position, hposition⟩ := List.mem_iff_getElem?.1 hi
    obtain ⟨-, halone, -, hvalued⟩ :=
      h.of_sets (getElem?_arguments hposition) (i.sets_iff.2 htrue)
    refine ⟨?_, i.isWritten_deviceIndex_iff.1 (hvalued "DeviceIndex" "0" rfl)⟩
    rw [← length_arguments]
    exact halone rfl
  · intro h
    by_cases hnone : ∀ i ∈ interfaces, i.associatePublicAddress ≠ some true
    · refine .none fun item hitem hsets => ?_
      obtain ⟨i, hi, rfl⟩ := List.mem_map.1 hitem
      exact hnone i hi (i.sets_iff.1 hsets)
    · push Not at hnone
      obtain ⟨i, hi, htrue⟩ := hnone
      obtain ⟨hone, hdevice⟩ := h i hi htrue
      -- the interface that asks for an address is the only one, so it stands first
      obtain ⟨j, rfl⟩ := List.length_eq_one_iff.1 hone
      obtain rfl := List.mem_singleton.1 hi
      refine @FlagRule.Kept.one publicAddressRule [] [] (.object i.fields) ?_ ?_ ?_ ?_
      · exact ⟨i.sets_iff.2 htrue, by simp⟩
      · exact fun _ => rfl
      · rintro required ⟨⟩
        rfl
      · rintro field value ⟨⟩
        exact i.isWritten_deviceIndex_iff.2 hdevice

lemma kept_rules_iff :
    (∀ rule ∈ itemList.rules, rule.Kept (arguments interfaces)) ↔
      publicAddressRule.Kept (arguments interfaces) := by
  simp [itemList]

lemma tidy_arguments (interfaces : List Interface) :
    (Argument.list .fromZero (arguments interfaces)).Tidy := by
  refine .list .fromZero _ fun item hitem => ?_
  obtain ⟨i, -, rfl⟩ := List.mem_map.1 hitem
  exact i.tidy_fields

/-- The names of the parameters of interfaces are distinct. -/
lemma nodup_named_arguments (root : String) :
    (((Argument.list .fromZero (arguments interfaces)).named root).map Prod.fst).Nodup :=
  (tidy_arguments interfaces).nodup_named root

lemma encodeAll_eq (scope : Option String) :
    encodeAll scope interfaces = itemList.encode scope (arguments interfaces) := rfl

/-- Interfaces that keep the rule are encoded. -/
lemma exists_encodeAll_eq_ok (scope : Option String)
    (h : publicAddressRule.Kept (arguments interfaces)) :
    ∃ set, encodeAll scope interfaces = .ok set := by
  rw [encodeAll_eq]
  exact (ItemList.encodes_of_kept (kept_rules_iff.2 h)).isOk_iff.2 (nodup_named_arguments _)

/-- Interfaces that break the rule are refused for it. -/
lemma exists_encodeAll_eq_invalid (scope : Option String)
    (h : ¬ publicAddressRule.Kept (arguments interfaces)) :
    ∃ violation, encodeAll scope interfaces = .error (.invalid violation) := by
  rw [encodeAll_eq]
  exact ItemList.exists_violation_of_not_kept scope fun hrules => h (kept_rules_iff.1 hrules)

/-- The parameters of an accepted launch are the leaves of its interfaces, and the rule is kept. -/
lemma of_encodeAll_eq_ok {scope : Option String} {set : ParameterSet}
    (h : encodeAll scope interfaces = .ok set) :
    publicAddressRule.Kept (arguments interfaces) ∧ ∀ name text, set.get? name = some text ↔
      (name, text) ∈ (Argument.list .fromZero (arguments interfaces)).named
        (qualify scope "NetworkInterface") := by
  obtain ⟨hrules, hget⟩ := ItemList.of_encode_eq_ok h
  exact ⟨kept_rules_iff.1 hrules, hget⟩

/-- An interface at device index 0 says so in its parameters. -/
lemma deviceIndex_mem_named (root : String) {index : Nat} {i : Interface}
    (hi : interfaces[index]? = some i) (hdevice : i.deviceIndex = some 0) :
    (itemKey root index "DeviceIndex", "0")
      ∈ (Argument.list .fromZero (arguments interfaces)).named root := by
  have hfirst : HasFirst (.object i.fields) "DeviceIndex" (.scalar (.integer 0)) :=
    i.hasFirst_deviceIndex_iff.2 ⟨0, hdevice, rfl⟩
  exact @mem_named_of_mem_leaves root .fromZero (arguments interfaces) index _
    (.field "DeviceIndex") (.integer 0) (getElem?_arguments hi) hfirst.mem_leaves

/-- An item whose parameters ask for a public address is an interface that asks for one. -/
lemma exists_of_publicAddress_mem_named {root : String} {index : Nat}
    (h : (itemKey root index "AssociatePublicIpAddress", "true")
      ∈ (Argument.list .fromZero (arguments interfaces)).named root) :
    ∃ i, interfaces[index]? = some i ∧ i.associatePublicAddress = some true := by
  obtain ⟨position, item, step, value, hitem, rfl, hleaf, htext, hwire⟩ :=
    exists_of_itemKey_mem_named (by decide) h
  rw [arguments, List.getElem?_map, Option.map_eq_some_iff] at hitem
  obtain ⟨i, hi, rfl⟩ := hitem
  refine ⟨i, hi, ?_⟩
  have hnodup : (i.fields.map Prod.fst).Nodup := i.tidyWithin_fields.1.nodup (by decide)
  have hfield : i.fields.lookup step.text = some (.scalar value) :=
    hasFirst_iff.1 (hasFirst_of_mem_leaves hnodup hleaf)
  rw [htext, lookup_associatePublicAddress] at hfield
  obtain ⟨b, hb, hscalar⟩ := Option.map_eq_some_iff.1 hfield
  cases hscalar
  cases b with
  | true => exact hb
  | false => exact absurd hwire (by decide)

/-- The parameters of a launch have the numbers of its interfaces. -/
lemma lt_length_of_mem_named {root name text : String} {index : Nat} {x : List Char}
    (hx : IsTail x)
    (hname : name.toList = root.toList ++ '.' :: ((Numeral.naturalText index).toList ++ x))
    (h : (name, text) ∈ (Argument.list .fromZero (arguments interfaces)).named root) :
    index < interfaces.length := by
  obtain ⟨position, item, -, -, hitem, rfl, -⟩ := exists_of_mem_named hx hname h
  have hlt := (List.getElem?_eq_some_iff.1 hitem).1
  rwa [length_arguments] at hlt

/-- The interfaces break the rule on public addresses exactly when one that asks for such an
address has company or another device index than 0. -/
lemma not_kept_publicAddressRule_iff :
    (¬ publicAddressRule.Kept (arguments interfaces)) ↔
      ∃ i ∈ interfaces, i.associatePublicAddress = some true ∧
        (1 < interfaces.length ∨ i.deviceIndex ≠ some 0) := by
  rw [kept_publicAddressRule_iff]
  push Not
  refine exists_congr fun i => and_congr_right fun hi => and_congr_right fun _ => ?_
  have := List.length_pos_of_mem hi
  by_cases hdevice : i.deviceIndex = some 0
  · have hcompany : interfaces.length ≠ 1 ↔ 1 < interfaces.length := by omega
    simp [hdevice, hcompany]
  · simp [hdevice]

/-- A launch that is refused breaks the rule on public addresses, and is refused for that. -/
lemma of_encodeAll_eq_error {scope : Option String} {e : Error}
    (h : encodeAll scope interfaces = .error e) :
    (¬ publicAddressRule.Kept (arguments interfaces)) ∧ ∃ violation, e = .invalid violation := by
  by_cases hkept : publicAddressRule.Kept (arguments interfaces)
  · obtain ⟨set, hset⟩ := exists_encodeAll_eq_ok scope hkept
    rw [hset] at h
    cases h
  · obtain ⟨violation, hinvalid⟩ := exists_encodeAll_eq_invalid scope hkept
    rw [hinvalid] at h
    cases h
    exact ⟨hkept, violation, rfl⟩

/-- A launch of one interface has no parameter under another number than 0. -/
lemma get?_eq_none_of_length_eq_one {scope : Option String} {set : ParameterSet}
    (hone : interfaces.length = 1)
    (hget : ∀ name text, set.get? name = some text ↔
      (name, text) ∈ (Argument.list .fromZero (arguments interfaces)).named
        (qualify scope "NetworkInterface"))
    {other : Nat} (hother : other ≠ 0) {name : String} {x : List Char} (hx : IsTail x)
    (hname : name.toList = (qualify scope "NetworkInterface").toList
      ++ '.' :: ((Numeral.naturalText other).toList ++ x)) :
    set.get? name = none := by
  rw [Option.eq_none_iff_forall_ne_some]
  intro text htext
  have hlt := lt_length_of_mem_named hx hname ((hget _ _).1 htext)
  omega

/-- A launch is refused exactly when an interface asks for a public address and has company or
another device index than 0, and then for that reason.  In the parameters of an accepted launch a
public address is asked for under the number 0 only, the device index 0 is there, and no parameter
has another number. -/
theorem encodeAll_publicAddress (scope : Option String) (interfaces : List Interface) :
    ((∃ e, encodeAll scope interfaces = .error e) ↔
      ∃ i ∈ interfaces, i.associatePublicAddress = some true ∧
        (1 < interfaces.length ∨ i.deviceIndex ≠ some 0)) ∧
    (∀ e, encodeAll scope interfaces = .error e → ∃ violation, e = .invalid violation) ∧
    ∀ set, encodeAll scope interfaces = .ok set → ∀ index,
      set.get? (itemKey (qualify scope "NetworkInterface") index "AssociatePublicIpAddress")
          = some "true" →
        index = 0 ∧
        set.get? (itemKey (qualify scope "NetworkInterface") 0 "DeviceIndex") = some "0" ∧
        ∀ other, other ≠ 0 →
          set.get? (under (qualify scope "NetworkInterface") (Numeral.naturalText other)) = none ∧
          ∀ rest, set.get? (itemKey (qualify scope "NetworkInterface") other rest) = none := by
  refine ⟨?_, fun e he => (of_encodeAll_eq_error he).2, ?_⟩
  · rw [← not_kept_publicAddressRule_iff]
    constructor
    · rintro ⟨e, he⟩
      exact (of_encodeAll_eq_error he).1
    · intro hfails
      obtain ⟨violation, h⟩ := exists_encodeAll_eq_invalid scope hfails
      exact ⟨_, h⟩
  · intro set hset index htrue
    obtain ⟨hkept, hget⟩ := of_encodeAll_eq_ok hset
    obtain ⟨i, hi, hpublic⟩ := exists_of_publicAddress_mem_named ((hget _ _).1 htrue)
    obtain ⟨hone, hdevice⟩ := kept_publicAddressRule_iff.1 hkept i (List.mem_of_getElem? hi)
      hpublic
    have hzero : index = 0 := by
      have hlt := (List.getElem?_eq_some_iff.1 hi).1
      omega
    subst hzero
    refine ⟨rfl, (hget _ _).2 (deviceIndex_mem_named _ hi hdevice), ?_⟩
    intro other hother
    constructor
    · refine get?_eq_none_of_length_eq_one hone hget hother isTail_nil ?_
      rw [toList_under, List.append_nil]
    · intro rest
      exact get?_eq_none_of_length_eq_one hone hget hother (isTail_cons rest.toList)
        (toList_itemKey _ other rest)

/-- One interface with a public address at device index 0 is accepted. -/
theorem encodeAll_publicAddress_sample :
    ∃ set, encodeAll (some "L.")
        [{ deviceIndex := some 0, associatePublicAddress := some true,
           securityGroupIds := ["sg-1"] }] = .ok set ∧
      set.get? "L.NetworkInterface.0.AssociatePublicIpAddress" = some "true" ∧
      ∀ rest, set.get? (itemKey (qualify (some "L.") "NetworkInterface") 1 rest) = none := by
  have h : encodeAll (some "L.")
        [{ deviceIndex := some 0, associatePublicAddress := some true,
           securityGroupIds := ["sg-1"] }]
      = .ok (.ofList [
          ("L.NetworkInterface.0.AssociatePublicIpAddress", "true"),
          ("L.NetworkInterface.0.DeviceIndex", "0"),
          ("L.NetworkInterface.0.SecurityGroupId.0", "sg-1")]) := by decide +kernel
  have htrue : (TextMap.ofList [
          ("L.NetworkInterface.0.AssociatePublicIpAddress", "true"),
          ("L.NetworkInterface.0.DeviceIndex", "0"),
          ("L.NetworkInterface.0.SecurityGroupId.0", "sg-1")]).get?
        "L.NetworkInterface.0.AssociatePublicIpAddress" = some "true" := by decide +kernel
  refine ⟨_, h, htrue, ?_⟩
  have hkey : itemKey (qualify (some "L.") "NetworkInterface") 0 "AssociatePublicIpAddress"
      = "L.NetworkInterface.0.AssociatePublicIpAddress" := by decide +kernel
  rw [← hkey] at htrue
  exact (((encodeAll_publicAddress _ _).2.2 _ h 0 htrue).2.2 1 (by decide)).2

end Interface

end CloudCodec.Request
