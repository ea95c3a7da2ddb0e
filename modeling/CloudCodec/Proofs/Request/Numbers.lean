/-
# The numbers in the parameters of requests

The interfaces of a launch, their addresses and the disks of an image are numbered by their
positions, and one in which nothing is set leaves its number unused.  `numbers_of_encode` says
which numbers are used by each list, and that they have no gap if and only if nothing in the list is
blank.  A list of texts never has a gap.
-/
import CloudCodec.Proofs.Parameter.Numbers
import CloudCodec.Proofs.Request.Interfaces
import CloudCodec.Request.Basic
import Mathlib

namespace CloudCodec.Request

open Parameter

/-! ### Blank items -/

lemma PrivateAddress.isBlank_fields_iff (a : PrivateAddress) : a.fields.IsBlank ↔ a = {} := by
  cases a
  simp [fields]

/-- An interface in which nothing is set but addresses in which nothing is set. -/
def Interface.IsBlank (i : Interface) : Prop :=
  i = { privateAddresses := i.privateAddresses } ∧ ∀ a ∈ i.privateAddresses, a = {}

lemma Interface.isBlank_fields_iff (i : Interface) : i.fields.IsBlank ↔ i.IsBlank := by
  have haddresses : (∀ argument ∈ i.privateAddresses.map fun a => Argument.object a.fields,
      argument.leaves = []) ↔ ∀ a ∈ i.privateAddresses, a = {} := by
    rw [List.forall_mem_map]
    exact forall₂_congr fun a _ => a.isBlank_fields_iff
  cases i
  simp only [fields, IsBlank, Fields.isBlank_append, Fields.isBlank_text?, Fields.isBlank_number?,
    Fields.isBlank_boolean?, Fields.isBlank_texts, Fields.isBlank_list, haddresses, mk.injEq,
    true_and]
  tauto

lemma UserBucket.isBlank_fields_iff (b : UserBucket) : b.fields.IsBlank ↔ b = {} := by
  cases b
  simp [fields]

/-- A disk in which nothing is set but a bucket in which nothing is set. -/
def DiskContainer.IsBlank (d : DiskContainer) : Prop :=
  d = { userBucket := d.userBucket } ∧ ∀ b ∈ d.userBucket, b = {}

lemma DiskContainer.isBlank_fields_iff (d : DiskContainer) : d.fields.IsBlank ↔ d.IsBlank := by
  have hbucket : (∀ fields ∈ d.userBucket.map UserBucket.fields, fields.IsBlank) ↔
      ∀ b ∈ d.userBucket, b = {} := by
    rw [Option.forall_mem_map]
    exact forall₂_congr fun b _ => b.isBlank_fields_iff
  cases d
  simp only [fields, IsBlank, Fields.isBlank_append, Fields.isBlank_text?, Fields.isBlank_object,
    hbucket, mk.injEq, and_true]
  tauto

/-! ### The interfaces of a launch -/

namespace Interface

variable {scope : Option String} {interfaces : List Interface} {set : ParameterSet}

lemma listAt_securityGroupIds (i : Interface) :
    (Argument.object i.fields).ListAt ["SecurityGroupId"] .fromZero
      (i.securityGroupIds.map fun s => .scalar (.text s)) := by
  refine Argument.listAt_field fun field => ?_
  simp [fields, Fields.text?, Fields.number?, Fields.boolean?, Fields.texts]

lemma listAt_privateAddresses (i : Interface) :
    (Argument.object i.fields).ListAt ["PrivateIpAddresses"] .fromZero
      (i.privateAddresses.map fun a => .object a.fields) := by
  refine Argument.listAt_field fun field => ?_
  simp [fields, Fields.text?, Fields.number?, Fields.boolean?, Fields.texts]

/-- A list in an interface lies behind the number of the interface. -/
lemma listAt_item {index : Nat} {i : Interface} (hi : interfaces[index]? = some i) {name : String}
    {numbering : Numbering} {items : List Argument}
    (h : (Argument.object i.fields).ListAt [name] numbering items) :
    (Argument.list .fromZero (arguments interfaces)).ListAt
      [Numeral.naturalText index, name] numbering items := by
  have hitem : (arguments interfaces)[index]? = some (.object i.fields) := by
    rw [arguments, List.getElem?_map, hi]
    rfl
  exact h.ofItem hitem

/-- The numbers of the interfaces of an accepted launch. -/
lemma numberedBy_of_encodeAll (h : encodeAll scope interfaces = .ok set) :
    NumberedBy set (qualify scope "NetworkInterface") .fromZero interfaces (¬ IsBlank ·) := by
  have hroot : (Argument.list .fromZero (arguments interfaces)).ListAt [] .fromZero
      (interfaces.map fun i => .object i.fields) := Argument.listAt_nil
  have hnumbered := hroot.numberedBy_dotted [] (tidy_arguments interfaces) (of_encodeAll_eq_ok h).2
    (by simp)
  exact hnumbered.congr fun i _ => i.isBlank_fields_iff.not

/-- The numbers in a list of an interface of an accepted launch. -/
lemma numberedBy_field_of_encodeAll (h : encodeAll scope interfaces = .ok set) {index : Nat}
    {i : Interface} (hi : interfaces[index]? = some i) {name : String} (hname : '.' ∉ name.toList)
    {α : Type} {items : List α} {f : α → Argument}
    (hlist : (Argument.object i.fields).ListAt [name] .fromZero (items.map f)) :
    NumberedBy set (itemKey (qualify scope "NetworkInterface") index name) .fromZero items
      fun item => (f item).leaves ≠ [] := by
  refine (listAt_item hi hlist).numberedBy_dotted [.item index, .field name]
    (tidy_arguments interfaces) (of_encodeAll_eq_ok h).2 ?_
  simpa [Step.text] using ⟨dot_notMem_naturalText index, hname⟩

end Interface

/-! ### The disks of an image -/

lemma UserBucket.tidy_fields (b : UserBucket) : (Argument.object b.fields).Tidy := by
  have hwithin : b.fields.TidyWithin ["S3Bucket", "S3Key"] :=
    (Fields.tidyWithin_text? _ _).append (Fields.tidyWithin_text? _ _)
  exact hwithin.tidy_object (by decide) (by decide)

lemma DiskContainer.tidy_fields (d : DiskContainer) : (Argument.object d.fields).Tidy := by
  have hbucket : ∀ fields ∈ d.userBucket.map UserBucket.fields, (Argument.object fields).Tidy := by
    intro fields hfields
    obtain ⟨b, -, rfl⟩ := Option.map_eq_some_iff.1 hfields
    exact b.tidy_fields
  have hwithin : d.fields.TidyWithin
      ["Description", "DeviceName", "Format", "SnapshotId", "Url", "UserBucket"] :=
    (((((Fields.tidyWithin_text? _ _).append (Fields.tidyWithin_text? _ _)).append
      (Fields.tidyWithin_text? _ _)).append (Fields.tidyWithin_text? _ _)).append
      (Fields.tidyWithin_text? _ _)).append (Fields.tidyWithin_object _ hbucket)
  exact hwithin.tidy_object (by decide) (by decide)

namespace ImportImage

variable (image : ImportImage) (isDryRun : Bool)

lemma tidy_fields : (Argument.object (Request.mk (.importImage image) isDryRun).fields).Tidy := by
  have hdisks : ∀ argument ∈ image.disks.map fun d => Argument.object d.fields,
      argument.Tidy := by
    intro argument hargument
    obtain ⟨d, -, rfl⟩ := List.mem_map.1 hargument
    exact d.tidy_fields
  have hwithin : (Request.mk (.importImage image) isDryRun).fields.TidyWithin
      ["DiskContainer", "Description", "Architecture", "Platform", "Hypervisor", "LicenseType",
        "ClientToken", "RoleName", "DryRun"] :=
    ((((((((Fields.tidyWithin_list _ _ hdisks).append (Fields.tidyWithin_text? _ _)).append
      (Fields.tidyWithin_text? _ _)).append (Fields.tidyWithin_text? _ _)).append
      (Fields.tidyWithin_text? _ _)).append (Fields.tidyWithin_text? _ _)).append
      (Fields.tidyWithin_text? _ _)).append (Fields.tidyWithin_text? _ _)).append
      (Fields.tidyWithin_boolean? _ _)
  exact hwithin.tidy_object (by decide) (by decide)

lemma listAt_disks :
    (Argument.object (Request.mk (.importImage image) isDryRun).fields).ListAt ["DiskContainer"]
      .fromOne (image.disks.map fun d => .object d.fields) := by
  refine Argument.listAt_field fun field => ?_
  simp [fields, Call.fields, Fields.text?, Fields.boolean?]

end ImportImage

/-- The parameters of a call without interfaces are its fields and the action. -/
lemma parameters_of_interfaces_eq_nil {request : Request} (h : request.call.interfaces = []) :
    request.parameters
      = (encodeObject none request.fields).map (·.insert "Action" request.call.action.name) := by
  have hnone : Interface.encodeAll none [] = .ok ∅ := rfl
  rw [parameters, h, hnone]
  cases encodeObject none request.fields <;> rfl

/-- An import is encoded, and its disks have the numbers of those that are not blank. -/
lemma ImportImage.exists_parameters_eq_ok (image : ImportImage) (isDryRun : Bool) :
    ∃ set, (Request.mk (.importImage image) isDryRun).parameters = .ok set ∧
      NumberedBy set "DiskContainer" .fromOne image.disks (¬ DiskContainer.IsBlank ·) := by
  obtain ⟨own, hown, hget⟩ := (image.tidy_fields isDryRun).exists_encodeObject_eq_ok none
  have hroot : nameBehind none [.field "DiskContainer"] = "DiskContainer" := by
    rw [nameBehind, dotted_nil, qualify, Step.text]
  have hnumbered := (image.listAt_disks isDryRun).numberedBy_nameBehind [.field "DiskContainer"]
    (image.tidy_fields isDryRun) hget (by decide) (by simp)
  rw [hroot] at hnumbered
  refine ⟨own.insert "Action" Action.importImage.name, ?_, ?_⟩
  · rw [parameters_of_interfaces_eq_nil rfl, hown]
    rfl
  · intro number
    rw [usesNumber_insert_iff (by decide)]
    exact hnumbered.congr (fun d _ => d.isBlank_fields_iff.not) number

/-! ### All lists of a request -/

/-- Interfaces that keep the rule on public addresses are encoded, and the import of an image always
is.  The numbers in use for the interfaces of a launch, for their addresses and for the disks of an
image are those of the items in which something is set, so they leave no gap if and only if nothing
in the list is blank.  The numbers of the security groups of an interface never leave a gap. -/
theorem numbers_of_encode (scope : Option String) (interfaces : List Interface)
    (image : ImportImage) (isDryRun : Bool) :
    ((∀ i ∈ interfaces, i.associatePublicAddress = some true →
        interfaces.length = 1 ∧ i.deviceIndex = some 0) →
      ∃ set, Interface.encodeAll scope interfaces = .ok set) ∧
    (∀ set, Interface.encodeAll scope interfaces = .ok set →
      NumberedBy set (qualify scope "NetworkInterface") .fromZero interfaces (¬ ·.IsBlank) ∧
      (Contiguous set (qualify scope "NetworkInterface") .fromZero interfaces.length ↔
        ∀ i ∈ interfaces, ¬ i.IsBlank) ∧
      ∀ index i, interfaces[index]? = some i →
        Contiguous set (itemKey (qualify scope "NetworkInterface") index "SecurityGroupId")
          .fromZero i.securityGroupIds.length ∧
        NumberedBy set (itemKey (qualify scope "NetworkInterface") index "PrivateIpAddresses")
          .fromZero i.privateAddresses (· ≠ {}) ∧
        (Contiguous set (itemKey (qualify scope "NetworkInterface") index "PrivateIpAddresses")
          .fromZero i.privateAddresses.length ↔ ∀ a ∈ i.privateAddresses, a ≠ {})) ∧
    ∃ set, (Request.mk (.importImage image) isDryRun).parameters = .ok set ∧
      NumberedBy set "DiskContainer" .fromOne image.disks (¬ ·.IsBlank) ∧
      (Contiguous set "DiskContainer" .fromOne image.disks.length ↔
        ∀ d ∈ image.disks, ¬ d.IsBlank) := by
  refine ⟨?_, ?_, ?_⟩
  · intro hrule
    exact Interface.exists_encodeAll_eq_ok scope (Interface.kept_publicAddressRule_iff.2 hrule)
  · intro set hset
    have hnumbered := Interface.numberedBy_of_encodeAll hset
    refine ⟨hnumbered, hnumbered.contiguous_iff, ?_⟩
    intro index i hi
    have hgroups := Interface.numberedBy_field_of_encodeAll hset hi (by decide)
      i.listAt_securityGroupIds
    have haddresses := (Interface.numberedBy_field_of_encodeAll hset hi (by decide)
      i.listAt_privateAddresses).congr fun a _ => a.isBlank_fields_iff.not
    exact ⟨hgroups.contiguous_iff.2 fun s _ => leaves_scalar_ne_nil _, haddresses,
      haddresses.contiguous_iff⟩
  · obtain ⟨set, hset, hnumbered⟩ := image.exists_parameters_eq_ok isDryRun
    exact ⟨set, hset, hnumbered, hnumbered.contiguous_iff⟩

/-- A blank disk leaves its number unused. -/
theorem numbers_of_encode_sample :
    ∃ set, (Request.mk (.importImage { disks := [{ url := some "u" }, {}] }) false).parameters
        = .ok set ∧
      UsesNumber set "DiskContainer" 1 ∧ ¬ UsesNumber set "DiskContainer" 2 := by
  obtain ⟨-, -, set, hset, hnumbered, -⟩ :=
    numbers_of_encode none [] { disks := [{ url := some "u" }, {}] } false
  refine ⟨set, hset, (hnumbered 1).2 ⟨0, _, rfl, ?_, rfl⟩, ?_⟩
  · rintro ⟨hurl, -⟩
    cases hurl
  · intro huses
    obtain ⟨position, d, hd, hblank, hindex⟩ := (hnumbered 2).1 huses
    obtain rfl : position = 1 := Nat.succ.inj hindex
    cases hd
    exact hblank ⟨rfl, by simp⟩

/-- An interface in which nothing is set leaves the number 0 of a launch unused. -/
theorem not_contiguous_of_blank_interface :
    ∃ set, Interface.encodeAll none [{}, { deviceIndex := some 1 }] = .ok set ∧
      ¬ Contiguous set (qualify none "NetworkInterface") .fromZero 2 := by
  have h : Interface.encodeAll none [{}, { deviceIndex := some 1 }]
      = .ok (.ofList [("NetworkInterface.1.DeviceIndex", "1")]) := by decide +kernel
  refine ⟨_, h, fun hcontiguous => ?_⟩
  have hnotBlank := (Interface.numberedBy_of_encodeAll h).contiguous_iff.1 hcontiguous
  exact hnotBlank {} (by simp) ⟨rfl, by simp⟩

end CloudCodec.Request
