/-
# The shapes of responses

A response is a tree of records. The shape of a record lists its slots: for each, the key under
which it is printed, the names of the elements that fill it, and what it holds. The whole
vocabulary of the service is in these lists; nothing else here knows a name of the service.

Some entities extend another one. Their slots are their own slots and those of the entity that
they extend, in one record.
-/
import CloudCodec.Decode.Leaf

namespace CloudCodec.Response

open Decode (Kind)

/-- The kinds of things that responses describe. -/
inductive Entity
  /-- A pool of public addresses. -/
  | addressPool
  /-- A range of addresses in a pool. -/
  | addressRange
  /-- A block of addresses that a customer brought along. -/
  | byoipCidr
  /-- A virtual switch. -/
  | virtualSwitch
  /-- A network interface. -/
  | networkInterface
  /-- The attachment of a network interface to an instance. -/
  | attachment
  /-- A public address that goes with a network interface or one of its addresses. -/
  | association
  /-- A private address of a network interface. -/
  | interfaceAddress
  /-- A security group of a network interface. -/
  | securityGroup
  /-- A private address by itself. -/
  | privateAddress
  /-- An external network. -/
  | externalNetwork
  /-- The import of an image. -/
  | imageImport
  /-- The import of one disk. -/
  | diskImport
  /-- The place that a disk is imported from. -/
  | diskSource
  /-- The import of a snapshot, which is that of its disk with an id. -/
  | snapshotImport
  /-- An import that was cancelled. -/
  | cancelledImport
  /-- The export of an instance. -/
  | instanceExport
  /-- The export of a volume of an instance. -/
  | volumeExport
  /-- A price list. -/
  | tariff
  /-- An instance with the services billed with it. -/
  | instanceOffering
  /-- A billable service. -/
  | service
  /-- The price of a service in one zone. -/
  | rate
  /-- A volume type, which is a service. -/
  | volumeOffering
  /-- An instance type, which is a service. -/
  | instanceTypeOffering
  /-- The parameters of a licence. -/
  | licenceParameters
  /-- How an operating system is licensed. -/
  | licence
  /-- An operating system, which is a service. -/
  | systemOffering
  /-- A dedicated host, which is a service. -/
  | hostOffering
  /-- A key with a value, on a resource. -/
  | tag
  deriving DecidableEq, Repr

/-- What a slot holds. -/
inductive Content
  /-- The value of the last leaf of its name, if there was one. -/
  | leaf (kind : Kind)
  /-- A boolean that is false until a leaf says otherwise. -/
  | flag
  /-- The record of the last element of its name, if there was one. -/
  | optional (entity : Entity)
  /-- The list inside the last element of its name, empty if there was none. -/
  | list (entity : Entity)
  /-- A record for every element of its name. -/
  | members (entity : Entity)
  deriving DecidableEq, Repr

/-- The value that a leaf gives to a slot, if leaves fill it. -/
def Content.leafKind? : Content → Option Kind
  | .leaf kind => some kind
  | .flag => some .boolean
  | _ => none

/-- Whether the slot is filled by claiming elements. -/
def Content.isClaiming (content : Content) : Bool := content.leafKind?.isNone

/-- A slot of a record. -/
structure Slot where
  /-- The key under which the slot is printed. -/
  key : String
  /-- The names of the elements that fill the slot. -/
  names : List String
  /-- What it holds. -/
  content : Content
  /-- Whether a slot that holds nothing is left out when the record is printed. -/
  isOmitted : Bool := false
  deriving DecidableEq, Repr

namespace Slot

/-- A text printed under the name of its element. -/
def text (name : String) : Slot := ⟨name, [name], .leaf .text, false⟩

/-- A text printed under a key of its own. -/
def textAs (key name : String) : Slot := ⟨key, [name], .leaf .text, false⟩

/-- A boolean printed under the name of its element. -/
def boolean (name : String) : Slot := ⟨name, [name], .leaf .boolean, false⟩

/-- A count of 32 bits printed under the name of its element. -/
def count (name : String) : Slot := ⟨name, [name], .leaf (.integer .u32), false⟩

/-- A size of 64 bits printed under the name of its element. -/
def size (name : String) : Slot := ⟨name, [name], .leaf (.integer .u64), false⟩

/-- An exact decimal printed under the name of its element. -/
def decimal (name : String) : Slot := ⟨name, [name], .leaf .decimal, false⟩

/-- A record printed under the name of its element, left out if there is none. -/
def child (name : String) (entity : Entity) : Slot := ⟨name, [name], .optional entity, true⟩

/-- A list printed under the name of its element. -/
def list (name : String) (entity : Entity) : Slot := ⟨name, [name], .list entity, false⟩

/-- A list printed under a key of its own. -/
def listAs (key name : String) (entity : Entity) : Slot := ⟨key, [name], .list entity, false⟩

end Slot

/-! ### The vocabulary -/

/-- The slots of a disk that is imported, alone or as part of the import of a snapshot. -/
def diskImportSlots : List Slot :=
  [.text "description", .text "deviceName", .text "diskImageSize", .text "format",
    .text "progress", .text "snapshotId", .text "status", .text "statusMessage", .text "url",
    .child "userBucket" .diskSource]

/-- The texts of an export, of an instance or of one of its volumes. -/
def exportTexts : List Slot :=
  [.textAs "id" "exportTaskId", .text "description", .text "state", .text "statusMessage",
    .text "instanceId", .text "targetEnvironment", .text "containerFormat",
    .text "diskImageFormat", .text "s3Bucket", .text "s3Key"]

/-- The slots of a billable service, alone or as part of an offering. -/
def serviceSlots : List Slot :=
  [.text "name", .text "description", .text "measure",
    ⟨"deprecated", ["deprecated"], .flag, false⟩, .list "rates" .rate]

/-- The slots of the record of an entity, in the order in which they are printed. -/
def Entity.slots : Entity → List Slot
  | .addressPool =>
    [.textAs "id" "poolId", .text "description", .count "totalAddressCount",
      .count "totalAvailableAddressCount",
      .listAs "poolAddressRanges" "poolAddressRangeSet" .addressRange]
  | .addressRange =>
    [.text "firstAddress", .text "lastAddress", .count "addressCount",
      .count "availableAddressCount"]
  | .byoipCidr => [.text "cidr", .text "description", .text "statusMessage", .text "state"]
  | .virtualSwitch =>
    [.textAs "id" "switchId", .textAs "name" "switchName",
      ⟨"status", ["return"], .leaf .boolean, true⟩, .listAs "tags" "tagSet" .tag]
  | .networkInterface =>
    [.textAs "id" "networkInterfaceId", .text "subnetId", .text "vpcId",
      .text "availabilityZone", .text "description", .text "ownerId",
      .boolean "requesterManaged", .text "status", .text "macAddress",
      .text "privateIpAddress", .boolean "sourceDestCheck",
      .child "attachment" .attachment, .child "association" .association,
      .listAs "groups" "groupSet" .securityGroup, .listAs "tags" "tagSet" .tag,
      .listAs "privateIpAddresses" "privateIpAddressesSet" .interfaceAddress]
  | .attachment =>
    [.textAs "id" "attachmentId", .text "instanceId", .text "instanceOwnerId",
      .count "deviceIndex", .text "status", .text "attachTime", .boolean "deleteOnTermination"]
  | .association =>
    [.textAs "id" "associationId", .text "publicIp", .text "publicDnsName",
      .text "allocationId", .text "ipOwnerId"]
  | .interfaceAddress =>
    [.text "privateIpAddress", .text "privateDnsName", .boolean "primary",
      .child "association" .association]
  | .securityGroup => [.text "groupId", .text "groupName"]
  | .privateAddress =>
    [.textAs "id" "privateIpAddressId", .text "subnetId", .text "state",
      .text "availabilityZone", .text "privateIpAddress", .text "ipAddress",
      .textAs "publicDnsName" "dnsName"]
  | .externalNetwork => [.textAs "name" "extNetName", .text "state", .text "availabilityZone"]
  | .imageImport =>
    [.textAs "id" "importTaskId", .text "imageId", .text "architecture", .text "description",
      .text "hypervisor", .text "licenseType", .text "platform", .text "progress",
      .text "status", .text "statusMessage", .list "snapshotDetails" .diskImport]
  | .diskImport => diskImportSlots
  | .diskSource => [.text "s3Bucket", .text "s3Key"]
  | .snapshotImport => .textAs "id" "importTaskId" :: diskImportSlots
  | .cancelledImport => [.text "importTaskId", .text "state", .text "previousState"]
  | .instanceExport => exportTexts ++ [.list "volumeExportDetails" .volumeExport]
  | .volumeExport =>
    -- a volume has no volumes: no element fills the list
    .text "volumeId" :: exportTexts
      ++ [⟨"volumeExportDetails", [], .list .volumeExport, false⟩]
  | .tariff =>
    [.text "name", .text "currency", .text "description", .list "instances" .instanceOffering,
      .list "instance_types" .instanceTypeOffering, .list "volumes" .volumeOffering,
      .list "others" .service, .list "oses" .systemOffering, .list "hosts" .hostOffering]
  | .instanceOffering =>
    [.text "name", .count "cpu", .decimal "ccus", .size "memory",
      .list "services" .service]
  | .service => serviceSlots
  | .rate => [.decimal "price", .text "availability_zone"]
  | .volumeOffering => [.text "type", .count "iops"] ++ serviceSlots
  | .instanceTypeOffering => [.count "cpu", .size "memory", .decimal "ccus"] ++ serviceSlots
  | .licenceParameters => [.count "core_count"]
  | .licence => [.text "base", .child "parameters" .licenceParameters]
  | .systemOffering => .child "licence_type" .licence :: serviceSlots
  | .hostOffering =>
    [.text "cpu_generation", .count "physical_cores", .count "sockets", .size "memory",
      .decimal "ccus", .count "commitment", .text "type"] ++ serviceSlots
  | .tag => [.text "key", .text "value"]

/-! ### Shapes -/

/-- The name of the elements that mark the members of a list. It is never taken for a field. -/
def itemMarker : String := "item"

/-- The shape of a record. -/
inductive Shape
  /-- An entity. -/
  | entity (entity : Entity)
  /-- The members of a list, each in an element of a given name. -/
  | collector (marker : String) (entity : Entity)
  /-- A listing of entities, each in an element of a given name, with what its envelope says of
  it. -/
  | page (marker : String) (entity : Entity)
  /-- The outcome of a call that answers with success or failure. -/
  | status
  /-- Every leaf of a response, by name. -/
  | generic
  deriving DecidableEq, Repr

/-- What becomes of the leaves that fill no slot. -/
inductive Leftovers
  /-- They are forgotten. -/
  | dropped
  /-- They are kept by name and printed under a key, or left out if there are none and the
  record says so. -/
  | kept (key : String) (isOmitted : Bool)
  deriving DecidableEq, Repr

/-- The names under which responses carry the id of their request. -/
def requestIdNames : List String := ["requestId", "RequestId"]

/-- The slots of a record of a shape. -/
def Shape.slots : Shape → List Slot
  | .entity e => e.slots
  | .collector marker e => [⟨"items", [marker], .members e, false⟩]
  | .page marker e =>
    [⟨"items", [marker], .members e, false⟩,
      ⟨"request_id", requestIdNames, .leaf .text, false⟩,
      ⟨"next_token", ["nextToken", "NextToken"], .leaf .text, false⟩,
      ⟨"is_truncated", ["isTruncated", "IsTruncated"], .leaf .boolean, false⟩]
  | .status =>
    [⟨"status", ["return"], .leaf .boolean, false⟩,
      ⟨"request_id", requestIdNames, .leaf .text, false⟩]
  | .generic => [⟨"requestId", requestIdNames, .leaf .text, false⟩]

/-- What becomes of the leaves that fill no slot of a record. -/
def Shape.leftovers : Shape → Leftovers
  | .entity _ => .kept "extra" true
  | .generic => .kept "fields" false
  | .collector _ _ | .page _ _ | .status => .dropped

/-- The place of the slot that claims elements of a name, and what it holds. -/
def Shape.claimingSlot? (shape : Shape) (name : String) : Option (Nat × Content) :=
  let slots := shape.slots
  (slots.findIdx? fun slot => slot.content.isClaiming && slot.names.contains name).bind fun i =>
    slots[i]?.map fun slot => (i, slot.content)

/-- The place of the slot that leaves of a name fill, and how they are read. -/
def Shape.leafSlot? (shape : Shape) (name : String) : Option (Nat × Kind) :=
  let slots := shape.slots
  (slots.findIdx? fun slot => !slot.content.isClaiming && slot.names.contains name).bind fun i =>
    slots[i]?.bind fun slot => slot.content.leafKind?.map fun kind => (i, kind)

end CloudCodec.Response
