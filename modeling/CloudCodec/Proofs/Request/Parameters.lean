/-
# The parameters of a request

A request has scalars that are required, scalars that may be unset and lists of records with such
scalars.  They are listed here for each call by their paths on the wire (`Call.scalars`), without
regard to how the request is put together.  No two of them have the same name, whatever is set and
however long the lists are (`nodup_keys`), so nothing that a request holds can clash with anything
else in it, and every request is sent as it is, except for a launch that breaks the rule on public
addresses (`parameters_of_request`).
-/
import CloudCodec.Proofs.Parameter.Histories
import CloudCodec.Proofs.Parameter.Scalars
import CloudCodec.Proofs.Request.Interfaces
import CloudCodec.Request.Basic

namespace CloudCodec.Request

open Parameter

/-! ### The scalars of records -/

/-- The scalars of a place in an object store. -/
def UserBucket.scalars (b : UserBucket) : Scalars :=
  .object [("S3Bucket", .text b.bucket), ("S3Key", .text b.key)]

/-- The scalars of a disk.  Those of a bucket that is unset are unset. -/
def DiskContainer.scalars (d : DiskContainer) : Scalars :=
  .object [("Description", .text d.description), ("DeviceName", .text d.deviceName),
    ("Format", .text d.format), ("SnapshotId", .text d.snapshotId), ("Url", .text d.url),
    ("UserBucket", (d.userBucket.getD {}).scalars)]

/-- The scalars of a destination. -/
def ExportDestination.scalars (d : ExportDestination) : Scalars :=
  .object [("S3Bucket", .text d.bucket), ("S3Prefix", .text d.keyStart),
    ("DiskImageFormat", .text d.diskImageFormat), ("ContainerFormat", .text d.containerFormat)]

/-- The scalars of a private address. -/
def PrivateAddress.scalars (a : PrivateAddress) : Scalars :=
  .object [("PrivateIpAddress", .text a.address), ("Primary", .boolean a.isPrimary)]

/-- The scalars of an interface. -/
def Interface.scalars (i : Interface) : Scalars :=
  .object [("NetworkInterfaceId", .text i.interfaceId), ("DeviceIndex", .number i.deviceIndex),
    ("SubnetId", .text i.subnetId), ("Description", .text i.description),
    ("PrivateIpAddress", .text i.privateAddress),
    ("SecurityGroupId", .list .fromZero (i.securityGroupIds.map fun s => .text (some s))),
    ("DeleteOnTermination", .boolean i.deleteOnTermination),
    ("PrivateIpAddresses", .list .fromZero (i.privateAddresses.map PrivateAddress.scalars)),
    ("SecondaryPrivateIpAddressCount", .number i.secondaryAddressCount),
    ("AssociatePublicIpAddress", .boolean i.associatePublicAddress),
    ("SwitchId", .text i.switchId)]

/-- The scalars of a listing whose ids have a given name. -/
def Listing.scalars (idName : String) (listing : Listing) : List (String × Scalars) :=
  [(idName, .list .fromOne (listing.ids.map fun s => .text (some s))),
    ("NextToken", .text listing.nextToken), ("MaxResults", .number listing.maxResults)]

/-- The scalars of a call by the fields that they lie in. -/
def Call.fieldScalars : Call → List (String × Scalars)
  | .importImage a =>
    [("DiskContainer", .list .fromOne (a.disks.map DiskContainer.scalars)),
      ("Description", .text a.description), ("Architecture", .text a.architecture),
      ("Platform", .text a.platform), ("Hypervisor", .text a.hypervisor),
      ("LicenseType", .text a.licenseType), ("ClientToken", .text a.clientToken),
      ("RoleName", .text a.roleName)]
  | .importSnapshot a =>
    [("DiskContainer", a.disk.scalars), ("Description", .text a.description),
      ("ClientToken", .text a.clientToken), ("RoleName", .text a.roleName)]
  | .describeImportImageTasks tasks => tasks.scalars "ImportTaskId"
  | .describeImportSnapshotTasks tasks => tasks.scalars "ImportTaskId"
  | .cancelImportTask taskId reason =>
    [("ImportTaskId", .text (some taskId)), ("CancelReason", .text reason)]
  | .createInstanceExportTask a =>
    [("InstanceId", .text (some a.instanceId)), ("TargetEnvironment", .text a.targetEnvironment),
      ("ExportToS3", a.destination.scalars), ("Description", .text a.description)]
  | .describeExportTasks taskIds =>
    [("ExportTaskId", .list .fromOne (taskIds.map fun s => .text (some s)))]
  | .cancelExportTask taskId => [("ExportTaskId", .text (some taskId))]
  | .describePublicIpv4Pools pools => pools.scalars "PoolId"
  | .describeByoipCidrs nextToken maxResults =>
    [("MaxResults", .number maxResults), ("NextToken", .text nextToken)]
  | .provisionByoipCidr cidr description =>
    [("Cidr", .text (some cidr)), ("Description", .text description)]
  | .deprovisionByoipCidr cidr => [("Cidr", .text (some cidr))]
  | .describeVirtualSwitches switchIds =>
    [("SwitchId", .list .fromOne (switchIds.map fun s => .text (some s)))]
  | .createVirtualSwitch name => [("SwitchName", .text (some name))]
  | .deleteVirtualSwitch (.id id) => [("SwitchId", .text (some id)), ("SwitchName", .text none)]
  | .deleteVirtualSwitch (.name name) =>
    [("SwitchId", .text none), ("SwitchName", .text (some name))]
  | .describeNetworkInterfaces interfaceIds =>
    [("NetworkInterfaceId", .list .fromOne (interfaceIds.map fun s => .text (some s)))]
  | .runInstances launch =>
    [("ImageId", .text (some launch.imageId)), ("InstanceType", .text launch.instanceType),
      ("MinCount", .number (some launch.minCount)), ("MaxCount", .number (some launch.maxCount)),
      ("NetworkInterface", .list .fromZero (launch.interfaces.map Interface.scalars))]
  | .describeTariffs => []
  | .describeExternalNetworks => []
  | .describePrivateIpAddresses addressIds =>
    [("PrivateIpAddressId", .list .fromOne (addressIds.map fun s => .text (some s)))]

/-- The scalars of a call. -/
def Call.scalars (call : Call) : Scalars := .object call.fieldScalars

/-! ### The fields write what is set -/

lemma UserBucket.paths_fields (b : UserBucket) : b.fields.paths = b.scalars.present := by
  simp [fields, scalars]

lemma DiskContainer.paths_fields (d : DiskContainer) : d.fields.paths = d.scalars.present := by
  have hbucket : (Fields.object "UserBucket" (d.userBucket.map UserBucket.fields)).paths
      = (Scalars.below "UserBucket" (d.userBucket.getD {}).scalars).present := by
    cases d.userBucket with
    | none => rfl
    | some b =>
      rw [Option.map_some, Fields.paths_object_some, b.paths_fields, Scalars.present_below]
      rfl
  simp [fields, scalars, hbucket]

lemma ExportDestination.paths_fields (d : ExportDestination) :
    d.fields.paths = d.scalars.present := by
  simp [fields, scalars]

lemma PrivateAddress.paths_fields (a : PrivateAddress) : a.fields.paths = a.scalars.present := by
  simp [fields, scalars]

lemma Interface.paths_fields (i : Interface) : i.fields.paths = i.scalars.present := by
  have haddresses := Fields.paths_list_map "PrivateIpAddresses" .fromZero i.privateAddresses
    PrivateAddress.paths_fields
  simp [fields, scalars, haddresses]

lemma Listing.paths_fields (idName : String) (listing : Listing) :
    (listing.fields idName).paths = (Scalars.object (listing.scalars idName)).present := by
  simp [fields, scalars]

lemma paths_text (name s : String) :
    (text name s).paths = (Scalars.below name (.text (some s))).present := rfl

lemma paths_number (name : String) (n : UInt32) :
    (number name n).paths = (Scalars.below name (.number (some n))).present := rfl

/-- The fields of a call and its interfaces write the scalars of the call that are set. -/
theorem Call.present_scalars (call : Call) :
    call.scalars.present = call.fields.paths
      ++ (Scalars.below "NetworkInterface"
        (.list .fromZero (call.interfaces.map Interface.scalars))).present := by
  have hnone : (Scalars.below "NetworkInterface" (.list .fromZero [])).present = [] := rfl
  have hunset : ∀ name, (Scalars.below name (.text none)).present = [] := fun _ => rfl
  cases call with
  | importImage a =>
    have hdisks := Fields.paths_list_map "DiskContainer" .fromOne a.disks
      DiskContainer.paths_fields
    simp [scalars, fieldScalars, fields, interfaces, hnone, hdisks]
  | importSnapshot a =>
    have hdisk : (Fields.object "DiskContainer" (some a.disk.fields)).paths
        = (Scalars.below "DiskContainer" a.disk.scalars).present := by
      rw [Fields.paths_object_some, a.disk.paths_fields, Scalars.present_below]
    simp [scalars, fieldScalars, fields, interfaces, hnone, hdisk]
  | createInstanceExportTask a =>
    have hdestination : (Fields.object "ExportToS3" (some a.destination.fields)).paths
        = (Scalars.below "ExportToS3" a.destination.scalars).present := by
      rw [Fields.paths_object_some, a.destination.paths_fields, Scalars.present_below]
    simp [scalars, fieldScalars, fields, interfaces, hnone, paths_text, hdestination]
  | deleteVirtualSwitch switch =>
    cases switch <;>
      simp [scalars, fieldScalars, fields, interfaces, hnone, hunset, paths_text]
  | _ =>
    simp [scalars, fieldScalars, fields, interfaces, hnone, paths_text, paths_number,
      Listing.paths_fields]

/-! ### Distinct paths -/

lemma UserBucket.tidy_scalars (b : UserBucket) : b.scalars.Tidy :=
  Scalars.tidy_object (by simp) (by simp) (by simp)

lemma DiskContainer.tidy_scalars (d : DiskContainer) : d.scalars.Tidy :=
  Scalars.tidy_object (by simp) (by simp) (by simp [UserBucket.tidy_scalars])

lemma ExportDestination.tidy_scalars (d : ExportDestination) : d.scalars.Tidy :=
  Scalars.tidy_object (by simp) (by simp) (by simp)

lemma PrivateAddress.tidy_scalars (a : PrivateAddress) : a.scalars.Tidy :=
  Scalars.tidy_object (by simp) (by simp) (by simp)

lemma Interface.tidy_scalars (i : Interface) : i.scalars.Tidy := by
  have haddresses : (Scalars.list .fromZero (i.privateAddresses.map PrivateAddress.scalars)).Tidy :=
    Scalars.tidy_list .fromZero (by simp [PrivateAddress.tidy_scalars])
  exact Scalars.tidy_object (by simp) (by simp) (by simp [haddresses])

/-- No two fields of a call have the same name, and none is called like the action or the mark of a
dry run. -/
lemma Call.nodup_names (call : Call) :
    ("Action" :: "DryRun" :: call.fieldScalars.map Prod.fst).Nodup := by
  cases call with
  | deleteVirtualSwitch switch => cases switch <;> simp [fieldScalars]
  | _ => simp [fieldScalars, Listing.scalars]

lemma Call.dots_names (call : Call) :
    ∀ name ∈ "Action" :: "DryRun" :: call.fieldScalars.map Prod.fst, '.' ∉ name.toList := by
  cases call with
  | deleteVirtualSwitch switch => cases switch <;> simp [fieldScalars]
  | _ => simp [fieldScalars, Listing.scalars]

lemma Call.tidy_fieldScalars (call : Call) :
    ∀ scalars ∈ call.fieldScalars.map Prod.snd, scalars.Tidy := by
  cases call with
  | importImage a =>
    have hdisks : (Scalars.list .fromOne (a.disks.map DiskContainer.scalars)).Tidy :=
      Scalars.tidy_list .fromOne (by simp [DiskContainer.tidy_scalars])
    simp [fieldScalars, hdisks]
  | runInstances launch =>
    have hinterfaces : (Scalars.list .fromZero (launch.interfaces.map Interface.scalars)).Tidy :=
      Scalars.tidy_list .fromZero (by simp [Interface.tidy_scalars])
    simp [fieldScalars, hinterfaces]
  | deleteVirtualSwitch switch => cases switch <;> simp [fieldScalars]
  | _ =>
    simp [fieldScalars, Listing.scalars, DiskContainer.tidy_scalars,
      ExportDestination.tidy_scalars]

end Request

/-! ### Sets put together -/

namespace ParameterSet

open Parameter

variable {set other : ParameterSet} {pairs pairs' : List (String × String)}

/-- Sets without a common name are merged, and both are found in the result. -/
lemma exists_merge_eq_ok (hget : ∀ name text, set.get? name = some text ↔ (name, text) ∈ pairs)
    (hget' : ∀ name text, other.get? name = some text ↔ (name, text) ∈ pairs')
    (hnodup : ((pairs ++ pairs').map Prod.fst).Nodup) :
    ∃ merged, set.merge other = .ok merged ∧
      ∀ name text, merged.get? name = some text ↔ (name, text) ∈ pairs ++ pairs' := by
  rw [List.map_append, List.nodup_append] at hnodup
  have hapart : ∀ name, other.contains name = true → set.contains name = false := by
    intro name hother
    obtain ⟨text', htext'⟩ := TextMap.contains_iff.1 hother
    by_contra hset
    obtain ⟨text, htext⟩ := TextMap.contains_iff.1 (by simpa using hset)
    exact hnodup.2.2 name (List.mem_map_of_mem ((hget _ _).1 htext)) name
      (List.mem_map_of_mem ((hget' _ _).1 htext')) rfl
  refine ⟨TextMap.insertMany set other.entries, by rw [merge, find?_eq_none_iff.2 hapart], ?_⟩
  intro name text
  rw [(adds_insertMany hapart).get?_iff, hget, hget', List.mem_append]

/-- A parameter with a new name is found beside the others. -/
lemma get?_insert_eq_some_iff {n t : String}
    (hget : ∀ name text, set.get? name = some text ↔ (name, text) ∈ pairs)
    (hnew : n ∉ pairs.map Prod.fst) (name text : String) :
    (TextMap.insert set n t).get? name = some text ↔ (name, text) ∈ (n, t) :: pairs := by
  rw [TextMap.get?_insert, List.mem_cons, Prod.mk.injEq, ← hget]
  by_cases hname : name = n
  · subst hname
    have hunset : set.get? name ≠ some text := by
      intro htext
      exact hnew (List.mem_map_of_mem ((hget _ _).1 htext))
    rw [if_pos rfl, Option.some.injEq]
    simp [hunset, eq_comm]
  · rw [if_neg hname]
    simp [hname]

end ParameterSet

/-! ### Requests -/

namespace Request

open Parameter

/-- The scalars of a request: the name of its action, the mark of a dry run and those of the
call. -/
def scalars (request : Request) : Scalars :=
  (["Action"], some request.call.action.name) ::
    (["DryRun"], if request.isDryRun then some "true" else none) :: request.call.scalars

lemma scalars_eq_object (request : Request) :
    request.scalars = .object (("Action", .text (some request.call.action.name)) ::
      ("DryRun", .boolean (if request.isDryRun then some true else none)) ::
        request.call.fieldScalars) := by
  cases hdry : request.isDryRun <;> simp [scalars, hdry] <;> rfl

/-- The scalars of a request have distinct names, set or not. -/
theorem nodup_keys (request : Request) : (request.scalars.map fun s => key s.1).Nodup := by
  rw [scalars_eq_object]
  apply Scalars.Tidy.nodup_keys
  refine Scalars.tidy_object request.call.nodup_names request.call.dots_names ?_
  simpa using request.call.tidy_fieldScalars

/-- The parameters of a request are the action and what is encoded of the fields and of the
interfaces. -/
lemma perm_pairs (request : Request) :
    request.scalars.pairs.Perm (("Action", request.call.action.name) ::
      (request.fields.named none ++
        (Argument.list .fromZero (Interface.arguments request.call.interfaces)).named
          "NetworkInterface")) := by
  have hpresent : request.scalars.present = (["Action"], request.call.action.name) ::
      ((Scalars.below "DryRun" (.boolean (if request.isDryRun then some true else none))).present
        ++ request.call.scalars.present) := by
    rw [scalars_eq_object, Scalars.present_object_cons, Scalars.present_object_cons]
    rfl
  have hfields : request.fields.paths = request.call.fields.paths
      ++ (Scalars.below "DryRun"
        (.boolean (if request.isDryRun then some true else none))).present := by
    rw [fields, Fields.paths_append, Fields.paths_boolean?]
  have hinterfaces : (Argument.list .fromZero
      (Interface.arguments request.call.interfaces)).paths
      = (Scalars.list .fromZero (request.call.interfaces.map Interface.scalars)).present :=
    Argument.paths_list_map .fromZero request.call.interfaces Interface.paths_fields
  rw [Scalars.pairs, hpresent, Fields.named_none, hfields, Argument.named_eq, hinterfaces,
    request.call.present_scalars, Scalars.present_below "NetworkInterface", List.map_cons,
    List.map_append, List.map_append, List.map_append, List.map_map]
  refine List.Perm.cons _ ?_
  rw [← List.append_assoc]
  exact List.perm_append_comm.append_right _

/-- A request whose interfaces keep the rule on public addresses is sent as it is. -/
lemma exists_parameters_eq_ok (request : Request)
    (hrule : Interface.publicAddressRule.Kept (Interface.arguments request.call.interfaces)) :
    ∃ set, request.parameters = .ok set ∧ request.scalars.IsSentAs set := by
  have hnodup : (request.scalars.pairs.map Prod.fst).Nodup :=
    Scalars.nodup_pairs request.nodup_keys
  rw [(request.perm_pairs.map Prod.fst).nodup_iff, List.map_cons, List.nodup_cons] at hnodup
  obtain ⟨hnew, hboth⟩ := hnodup
  have hown : ((request.fields.named none).map Prod.fst).Nodup := by
    rw [List.map_append, List.nodup_append] at hboth
    exact hboth.1
  obtain ⟨own, hown, hgetOwn⟩ := encodeObject_of_nodup hown
  obtain ⟨interfaces, hinterfaces⟩ := Interface.exists_encodeAll_eq_ok none hrule
  obtain ⟨merged, hmerged, hget⟩ :=
    ParameterSet.exists_merge_eq_ok hgetOwn (Interface.of_encodeAll_eq_ok hinterfaces).2 hboth
  refine ⟨merged.insert "Action" request.call.action.name, ?_, ?_⟩
  · rw [parameters, hinterfaces, hown]
    simp only [bind, Except.bind, hmerged]
    rfl
  · refine Scalars.isSentAs_of_get? request.nodup_keys fun name text => ?_
    rw [ParameterSet.get?_insert_eq_some_iff hget hnew]
    exact request.perm_pairs.mem_iff.symm

/-- A request is refused exactly if it is a launch one of whose interfaces asks for a public address
and has company or another device index than 0, and then for that reason.  Otherwise its parameters
are its scalars: the name of the action, the mark of a dry run exactly if one was asked for, and a
parameter with its own name for everything that is required or set, and none for what is unset. -/
theorem parameters_of_request (request : Request) :
    ((∃ e, request.parameters = .error e) ↔
      ∃ launch, request.call = .runInstances launch ∧
        ∃ i ∈ launch.interfaces, i.associatePublicAddress = some true ∧
          (1 < launch.interfaces.length ∨ i.deviceIndex ≠ some 0)) ∧
    (∀ e, request.parameters = .error e → ∃ violation, e = .invalid violation) ∧
    ∀ set, request.parameters = .ok set → request.scalars.IsSentAs set := by
  by_cases hrule : Interface.publicAddressRule.Kept (Interface.arguments request.call.interfaces)
  · obtain ⟨set, hset, hsent⟩ := request.exists_parameters_eq_ok hrule
    refine ⟨?_, ?_, ?_⟩
    · constructor
      · rintro ⟨e, he⟩
        cases hset.symm.trans he
      · rintro ⟨launch, hcall, hbroken⟩
        rw [hcall] at hrule
        exact absurd hrule (Interface.not_kept_publicAddressRule_iff.2 hbroken)
    · intro e he
      cases hset.symm.trans he
    · intro set' hset'
      cases hset.symm.trans hset'
      exact hsent
  · obtain ⟨violation, hrefused⟩ := Interface.exists_encodeAll_eq_invalid none hrule
    have hparameters : request.parameters = .error (.invalid violation) := by
      rw [parameters, hrefused]
      rfl
    refine ⟨⟨fun _ => ?_, fun _ => ⟨_, hparameters⟩⟩, ?_, ?_⟩
    · have hbroken := Interface.not_kept_publicAddressRule_iff.1 hrule
      cases hcall : request.call with
      | runInstances launch =>
        rw [hcall] at hbroken
        exact ⟨launch, rfl, hbroken⟩
      | _ =>
        -- only a launch has interfaces
        obtain ⟨i, hi, -⟩ := hbroken
        rw [hcall] at hi
        cases hi
    · intro e he
      cases hparameters.symm.trans he
      exact ⟨violation, rfl⟩
    · intro set hset
      cases hparameters.symm.trans hset

/-- A dry run of the launch of one instance with one interface. -/
def sampleLaunch : Request where
  call := .runInstances
    { imageId := "ami-1", minCount := 1, maxCount := 1,
      interfaces := [{ securityGroupIds := ["sg-1"] }] }
  isDryRun := true

/-- The launch of an instance with two interfaces, one of which asks for a public address. -/
def sampleShared : Launch :=
  { imageId := "ami-1",
    interfaces := [{ deviceIndex := some 0, associatePublicAddress := some true }, {}] }

/-- The dry run is accepted, and its interface and its mark are found in its parameters; the launch
with company for the public address is refused. -/
theorem parameters_of_request_sample :
    (∃ set, sampleLaunch.parameters = .ok set ∧ sampleLaunch.scalars.IsSentAs set ∧
      set.get? "DryRun" = some "true" ∧
      set.get? "NetworkInterface.0.SecurityGroupId.0" = some "sg-1" ∧
      set.get? "NetworkInterface.0.DeviceIndex" = none) ∧
    ∃ violation, Request.parameters { call := .runInstances sampleShared }
      = .error (.invalid violation) := by
  constructor
  · have hset : sampleLaunch.parameters = .ok (.ofList [
        ("Action", "RunInstances"), ("DryRun", "true"), ("ImageId", "ami-1"), ("MaxCount", "1"),
        ("MinCount", "1"), ("NetworkInterface.0.SecurityGroupId.0", "sg-1")]) := by decide +kernel
    have hsent := (parameters_of_request sampleLaunch).2.2 _ hset
    have hdry : (["DryRun"], some "true") ∈ sampleLaunch.scalars := by decide +kernel
    have hgroup : (["NetworkInterface", "0", "SecurityGroupId", "0"], some "sg-1")
        ∈ sampleLaunch.scalars := by decide +kernel
    have hdevice : (["NetworkInterface", "0", "DeviceIndex"], none) ∈ sampleLaunch.scalars := by
      decide +kernel
    exact ⟨_, hset, hsent, hsent.get?_key hdry, hsent.get?_key hgroup, hsent.get?_key hdevice⟩
  · obtain ⟨hiff, hinvalid, -⟩ := parameters_of_request { call := .runInstances sampleShared }
    have hcompany : 1 < sampleShared.interfaces.length := by decide
    obtain ⟨e, he⟩ := hiff.2 ⟨sampleShared, rfl, _, List.mem_cons_self, rfl, .inl hcompany⟩
    obtain ⟨violation, rfl⟩ := hinvalid e he
    exact ⟨violation, he⟩

end Request

end CloudCodec
