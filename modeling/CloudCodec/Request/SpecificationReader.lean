/-
# Reading specifications

A specification is read from a JSON object by the names of its fields, or from a JSON array by
their order. Fields that are missing are unset, other fields are passed over, and a field that is
given twice is refused. A field that may be unset may be `null`.
-/
import CloudCodec.Json.Parser
import CloudCodec.Request.Specification

namespace CloudCodec.Request

/-- The values of the fields of some names in a record, each of them or nothing. -/
def fieldValues? (names : List String) : Json → Option (List (Option Json))
  | .object fields =>
    if names.all fun name => (fields.filter fun field => field.1 == name).length ≤ 1 then
      some (names.map fun name => fields.lookup name)
    else none
  | .array elements =>
    if elements.length ≤ names.length then
      some (elements.map some ++ List.replicate (names.length - elements.length) none)
    else none
  | _ => none

/-- A text. -/
def readText? : Json → Option String
  | .text s => some s
  | _ => none

/-- A boolean. -/
def readBoolean? : Json → Option Bool
  | .boolean b => some b
  | _ => none

/-- A number of 32 bits, written as an integer. -/
def readNumber? : Json → Option UInt32
  | .integer n => if 0 ≤ n ∧ n < 4294967296 then some (UInt32.ofNat n.toNat) else none
  | _ => none

/-- A list of values. -/
def readList? {α : Type} (read? : Json → Option α) : Json → Option (List α)
  | .array elements => elements.mapM read?
  | _ => none

/-- A field that may be unset. -/
def readOptional? {α : Type} (read? : Json → Option α) : Option Json → Option (Option α)
  | none => some none
  | some .null => some none
  | some value => (read? value).map some

/-- A field that is a list and empty when it is missing. -/
def readListField? {α : Type} (read? : Json → Option α) : Option Json → Option (List α)
  | none => some []
  | some value => readList? read? value

/-- A place in an object store. -/
def UserBucket.ofJson? (json : Json) : Option UserBucket := do
  match ← fieldValues? ["S3Bucket", "S3Key"] json with
  | [bucket, key] =>
    return {
      bucket := ← readOptional? readText? bucket
      key := ← readOptional? readText? key }
  | _ => none

/-- A disk of an import. -/
def DiskContainer.ofJson? (json : Json) : Option DiskContainer := do
  let names := ["Description", "DeviceName", "Format", "SnapshotId", "Url", "UserBucket"]
  match ← fieldValues? names json with
  | [description, deviceName, format, snapshotId, url, userBucket] =>
    return {
      description := ← readOptional? readText? description
      deviceName := ← readOptional? readText? deviceName
      format := ← readOptional? readText? format
      snapshotId := ← readOptional? readText? snapshotId
      url := ← readOptional? readText? url
      userBucket := ← readOptional? UserBucket.ofJson? userBucket }
  | _ => none

/-- The destination of an export. -/
def ExportDestination.ofJson? (json : Json) : Option ExportDestination := do
  let names := ["S3Bucket", "S3Prefix", "DiskImageFormat", "ContainerFormat"]
  match ← fieldValues? names json with
  | [bucket, keyStart, diskImageFormat, containerFormat] =>
    return {
      bucket := ← readOptional? readText? bucket
      keyStart := ← readOptional? readText? keyStart
      diskImageFormat := ← readOptional? readText? diskImageFormat
      containerFormat := ← readOptional? readText? containerFormat }
  | _ => none

/-- A private address. -/
def PrivateAddress.ofJson? (json : Json) : Option PrivateAddress := do
  match ← fieldValues? ["PrivateIpAddress", "Primary"] json with
  | [address, isPrimary] =>
    return {
      address := ← readOptional? readText? address
      isPrimary := ← readOptional? readBoolean? isPrimary }
  | _ => none

/-- The names of the fields of an interface, in order. -/
def Interface.fieldNames : List String :=
  ["NetworkInterfaceId", "DeviceIndex", "SubnetId", "Description", "PrivateIpAddress",
    "SecurityGroupIds", "DeleteOnTermination", "PrivateIpAddresses",
    "SecondaryPrivateIpAddressCount", "AssociatePublicIpAddress", "SwitchId"]

/-- A network interface. -/
def Interface.ofJson? (json : Json) : Option Interface := do
  match ← fieldValues? Interface.fieldNames json with
  | [interfaceId, deviceIndex, subnetId, description, privateAddress, securityGroupIds,
      deleteOnTermination, privateAddresses, secondaryAddressCount, associatePublicAddress,
      switchId] =>
    return {
      interfaceId := ← readOptional? readText? interfaceId
      deviceIndex := ← readOptional? readNumber? deviceIndex
      subnetId := ← readOptional? readText? subnetId
      description := ← readOptional? readText? description
      privateAddress := ← readOptional? readText? privateAddress
      securityGroupIds := ← readListField? readText? securityGroupIds
      deleteOnTermination := ← readOptional? readBoolean? deleteOnTermination
      privateAddresses := ← readListField? PrivateAddress.ofJson? privateAddresses
      secondaryAddressCount := ← readOptional? readNumber? secondaryAddressCount
      associatePublicAddress := ← readOptional? readBoolean? associatePublicAddress
      switchId := ← readOptional? readText? switchId }
  | _ => none

/-- The network interfaces of a JSON text. -/
def Interface.parseAll? (text : String) : Option (List Interface) :=
  (Json.parse? text).bind (readList? Interface.ofJson?)

end CloudCodec.Request
