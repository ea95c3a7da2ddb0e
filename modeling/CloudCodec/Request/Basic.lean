/-
# Requests

A request calls an action with its arguments, in earnest or as a dry run. Its parameters are the
scalars of its arguments, `Action` with the name of the action, and `DryRun` where one was asked
for.
-/
import CloudCodec.Action
import CloudCodec.Request.Specification

namespace CloudCodec

namespace Request

open Parameter (Fields)

/-- The import of an image from its disks. -/
structure ImportImage where
  disks : List DiskContainer := []
  description : Option String := none
  architecture : Option String := none
  platform : Option String := none
  hypervisor : Option String := none
  licenseType : Option String := none
  clientToken : Option String := none
  roleName : Option String := none
  deriving DecidableEq, Repr

/-- The import of a snapshot from its disk. -/
structure ImportSnapshot where
  disk : DiskContainer := {}
  description : Option String := none
  clientToken : Option String := none
  roleName : Option String := none
  deriving DecidableEq, Repr

/-- The import of a snapshot from a disk in an object store. -/
def ImportSnapshot.fromBucket (bucket key format : String) : ImportSnapshot where
  disk := { format := some format, userBucket := some ⟨some bucket, some key⟩ }

/-- The export of an instance. -/
structure ExportInstance where
  instanceId : String
  targetEnvironment : Option String := none
  destination : ExportDestination := {}
  description : Option String := none
  deriving DecidableEq, Repr

/-- What a listing is restricted to: things of given ids, a page, and a number of results. -/
structure Listing where
  ids : List String := []
  nextToken : Option String := none
  maxResults : Option UInt32 := none
  deriving DecidableEq, Repr

/-- A virtual switch, by its id or by its name. -/
inductive SwitchRef
  | id (id : String)
  | name (name : String)
  deriving DecidableEq, Repr

/-- The launch of instances. -/
structure Launch where
  imageId : String
  instanceType : Option String := none
  minCount : UInt32 := 0
  maxCount : UInt32 := 0
  interfaces : List Interface := []
  deriving DecidableEq, Repr

/-- An action with its arguments. -/
inductive Call
  | importImage (arguments : ImportImage)
  | importSnapshot (arguments : ImportSnapshot)
  | describeImportImageTasks (tasks : Listing)
  | describeImportSnapshotTasks (tasks : Listing)
  | cancelImportTask (taskId : String) (reason : Option String)
  | createInstanceExportTask (arguments : ExportInstance)
  | describeExportTasks (taskIds : List String)
  | cancelExportTask (taskId : String)
  | describePublicIpv4Pools (pools : Listing)
  | describeByoipCidrs (nextToken : Option String) (maxResults : Option UInt32)
  | provisionByoipCidr (cidr : String) (description : Option String)
  | deprovisionByoipCidr (cidr : String)
  | describeVirtualSwitches (switchIds : List String)
  | createVirtualSwitch (name : String)
  | deleteVirtualSwitch (switch : SwitchRef)
  | describeNetworkInterfaces (interfaceIds : List String)
  | runInstances (launch : Launch)
  | describeTariffs
  | describeExternalNetworks
  | describePrivateIpAddresses (addressIds : List String)
  deriving DecidableEq, Repr

/-- The action of a call. -/
def Call.action : Call → Action
  | .importImage _ => .importImage
  | .importSnapshot _ => .importSnapshot
  | .describeImportImageTasks _ => .describeImportImageTasks
  | .describeImportSnapshotTasks _ => .describeImportSnapshotTasks
  | .cancelImportTask _ _ => .cancelImportTask
  | .createInstanceExportTask _ => .createInstanceExportTask
  | .describeExportTasks _ => .describeExportTasks
  | .cancelExportTask _ => .cancelExportTask
  | .describePublicIpv4Pools _ => .describePublicIpv4Pools
  | .describeByoipCidrs _ _ => .describeByoipCidrs
  | .provisionByoipCidr _ _ => .provisionByoipCidr
  | .deprovisionByoipCidr _ => .deprovisionByoipCidr
  | .describeVirtualSwitches _ => .describeVirtualSwitches
  | .createVirtualSwitch _ => .createVirtualSwitch
  | .deleteVirtualSwitch _ => .deleteVirtualSwitch
  | .describeNetworkInterfaces _ => .describeNetworkInterfaces
  | .runInstances _ => .runInstances
  | .describeTariffs => .describeTariffs
  | .describeExternalNetworks => .describeExternalNetworks
  | .describePrivateIpAddresses _ => .describePrivateIpAddresses

/-- A text that is always sent. -/
def text (name s : String) : Fields := Fields.value name (.text s)

/-- A number that is always sent. -/
def number (name : String) (n : UInt32) : Fields := Fields.value name (.integer n.toNat)

/-- The fields of a listing whose ids have a given name. -/
def Listing.fields (idName : String) (listing : Listing) : Fields :=
  Fields.texts idName .fromOne listing.ids
    ++ Fields.text? "NextToken" listing.nextToken
    ++ Fields.number? "MaxResults" listing.maxResults

/-- The fields of a call, without the interfaces of a launch. -/
def Call.fields : Call → Fields
  | .importImage a =>
    Fields.list "DiskContainer" .fromOne (a.disks.map fun d => .object d.fields)
      ++ Fields.text? "Description" a.description
      ++ Fields.text? "Architecture" a.architecture
      ++ Fields.text? "Platform" a.platform
      ++ Fields.text? "Hypervisor" a.hypervisor
      ++ Fields.text? "LicenseType" a.licenseType
      ++ Fields.text? "ClientToken" a.clientToken
      ++ Fields.text? "RoleName" a.roleName
  | .importSnapshot a =>
    Fields.object "DiskContainer" (some a.disk.fields)
      ++ Fields.text? "Description" a.description
      ++ Fields.text? "ClientToken" a.clientToken
      ++ Fields.text? "RoleName" a.roleName
  | .describeImportImageTasks tasks => tasks.fields "ImportTaskId"
  | .describeImportSnapshotTasks tasks => tasks.fields "ImportTaskId"
  | .cancelImportTask taskId reason =>
    text "ImportTaskId" taskId ++ Fields.text? "CancelReason" reason
  | .createInstanceExportTask a =>
    text "InstanceId" a.instanceId
      ++ Fields.text? "TargetEnvironment" a.targetEnvironment
      ++ Fields.object "ExportToS3" (some a.destination.fields)
      ++ Fields.text? "Description" a.description
  | .describeExportTasks taskIds => Fields.texts "ExportTaskId" .fromOne taskIds
  | .cancelExportTask taskId => text "ExportTaskId" taskId
  | .describePublicIpv4Pools pools => pools.fields "PoolId"
  | .describeByoipCidrs nextToken maxResults =>
    Fields.number? "MaxResults" maxResults ++ Fields.text? "NextToken" nextToken
  | .provisionByoipCidr cidr description =>
    text "Cidr" cidr ++ Fields.text? "Description" description
  | .deprovisionByoipCidr cidr => text "Cidr" cidr
  | .describeVirtualSwitches switchIds => Fields.texts "SwitchId" .fromOne switchIds
  | .createVirtualSwitch name => text "SwitchName" name
  | .deleteVirtualSwitch (.id id) => text "SwitchId" id
  | .deleteVirtualSwitch (.name name) => text "SwitchName" name
  | .describeNetworkInterfaces interfaceIds =>
    Fields.texts "NetworkInterfaceId" .fromOne interfaceIds
  | .runInstances launch =>
    text "ImageId" launch.imageId
      ++ Fields.text? "InstanceType" launch.instanceType
      ++ number "MinCount" launch.minCount
      ++ number "MaxCount" launch.maxCount
  | .describeTariffs => []
  | .describeExternalNetworks => []
  | .describePrivateIpAddresses addressIds =>
    Fields.texts "PrivateIpAddressId" .fromOne addressIds

/-- The interfaces of a launch; other calls have none. -/
def Call.interfaces : Call → List Interface
  | .runInstances launch => launch.interfaces
  | _ => []

end Request

/-- A call, in earnest or as a dry run. -/
structure Request where
  /-- The action with its arguments. -/
  call : Request.Call
  /-- Whether the service is to check the call only. -/
  isDryRun : Bool := false
  deriving DecidableEq, Repr

namespace Request

open Parameter (Fields)

/-- The fields of a request, without the interfaces of a launch. A dry run is marked; a call in
earnest is not. -/
def fields (request : Request) : Fields :=
  request.call.fields
    ++ Fields.boolean? "DryRun" (if request.isDryRun then some true else none)

/-- The parameters of a request. The rule on the interfaces of a launch is checked first. -/
def parameters (request : Request) : Except Parameter.Error ParameterSet := do
  let interfaces ← Interface.encodeAll none request.call.interfaces
  let own ← Parameter.encodeObject none request.fields
  let set ← ParameterSet.merge own interfaces
  return set.insert "Action" request.call.action.name

end Request

end CloudCodec
