/-
# Specifications

The structured arguments of requests: disks of an import, the destination of an export, and the
network interfaces of a launch. Each lists its fields under their names on the wire, those left
out that are not set.
-/
import CloudCodec.Parameter.ItemList

namespace CloudCodec.Request

open Parameter (Argument Fields FlagRule ItemList)

/-- A place in an object store. -/
structure UserBucket where
  bucket : Option String := none
  key : Option String := none
  deriving DecidableEq, Repr

/-- The fields of a place in an object store. -/
def UserBucket.fields (b : UserBucket) : Fields :=
  Fields.text? "S3Bucket" b.bucket ++ Fields.text? "S3Key" b.key

/-- A disk of an import. -/
structure DiskContainer where
  description : Option String := none
  deviceName : Option String := none
  format : Option String := none
  snapshotId : Option String := none
  url : Option String := none
  userBucket : Option UserBucket := none
  deriving DecidableEq, Repr

/-- The fields of a disk. -/
def DiskContainer.fields (d : DiskContainer) : Fields :=
  Fields.text? "Description" d.description
    ++ Fields.text? "DeviceName" d.deviceName
    ++ Fields.text? "Format" d.format
    ++ Fields.text? "SnapshotId" d.snapshotId
    ++ Fields.text? "Url" d.url
    ++ Fields.object "UserBucket" (d.userBucket.map UserBucket.fields)

/-- The destination of an export. -/
structure ExportDestination where
  bucket : Option String := none
  keyStart : Option String := none
  diskImageFormat : Option String := none
  containerFormat : Option String := none
  deriving DecidableEq, Repr

/-- The fields of a destination. -/
def ExportDestination.fields (d : ExportDestination) : Fields :=
  Fields.text? "S3Bucket" d.bucket
    ++ Fields.text? "S3Prefix" d.keyStart
    ++ Fields.text? "DiskImageFormat" d.diskImageFormat
    ++ Fields.text? "ContainerFormat" d.containerFormat

/-- A private address of a network interface. -/
structure PrivateAddress where
  address : Option String := none
  isPrimary : Option Bool := none
  deriving DecidableEq, Repr

/-- The fields of a private address. -/
def PrivateAddress.fields (a : PrivateAddress) : Fields :=
  Fields.text? "PrivateIpAddress" a.address ++ Fields.boolean? "Primary" a.isPrimary

/-- A network interface to create or attach at a launch. -/
structure Interface where
  interfaceId : Option String := none
  deviceIndex : Option UInt32 := none
  subnetId : Option String := none
  description : Option String := none
  privateAddress : Option String := none
  securityGroupIds : List String := []
  deleteOnTermination : Option Bool := none
  privateAddresses : List PrivateAddress := []
  secondaryAddressCount : Option UInt32 := none
  associatePublicAddress : Option Bool := none
  switchId : Option String := none
  deriving DecidableEq, Repr

namespace Interface

/-- The fields of an interface. -/
def fields (i : Interface) : Fields :=
  Fields.text? "NetworkInterfaceId" i.interfaceId
    ++ Fields.number? "DeviceIndex" i.deviceIndex
    ++ Fields.text? "SubnetId" i.subnetId
    ++ Fields.text? "Description" i.description
    ++ Fields.text? "PrivateIpAddress" i.privateAddress
    ++ Fields.texts "SecurityGroupId" .fromZero i.securityGroupIds
    ++ Fields.boolean? "DeleteOnTermination" i.deleteOnTermination
    ++ Fields.list "PrivateIpAddresses" .fromZero
      (i.privateAddresses.map fun a => .object a.fields)
    ++ Fields.number? "SecondaryPrivateIpAddressCount" i.secondaryAddressCount
    ++ Fields.boolean? "AssociatePublicIpAddress" i.associatePublicAddress
    ++ Fields.text? "SwitchId" i.switchId

/-- A public address may be asked for one interface only, which is then the only one of the launch
and has the device index 0. -/
def publicAddressRule : FlagRule where
  flag := "AssociatePublicIpAddress"
  isSole := true
  position := some 0
  required := some ("DeviceIndex", "0")

/-- The list of the interfaces of a launch. -/
def itemList : ItemList where
  name := "NetworkInterface"
  numbering := .fromZero
  rules := [publicAddressRule]

/-- The parameters of the interfaces of a launch. -/
def encodeAll (scope : Option String) (interfaces : List Interface) :
    Except Parameter.Error ParameterSet :=
  itemList.encode scope (interfaces.map fun i => .object i.fields)

end Interface

end CloudCodec.Request
