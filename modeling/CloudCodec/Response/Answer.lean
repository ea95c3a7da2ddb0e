/-
# Answers to actions

Which record the response to an action is decoded into.
-/
import CloudCodec.Action
import CloudCodec.Response.Node

namespace CloudCodec.Response

open Decode (Settings)

/-- The kinds of answers. -/
inductive Answer
  | addressPools
  | byoipCidrs
  | byoipCidr
  | virtualSwitches
  | virtualSwitch
  | status
  | networkInterfaces
  | importImageTask
  | importImageTasks
  | importSnapshotTask
  | importSnapshotTasks
  | cancelledImportTask
  | exportTask
  | exportTasks
  | tariffs
  | extNetworks
  | privateIps
  | generic
  deriving DecidableEq, Repr

namespace Answer

/-- The name of a kind of answer. -/
def name : Answer → String
  | .addressPools => "AddressPools"
  | .byoipCidrs => "ByoipCidrs"
  | .byoipCidr => "ByoipCidr"
  | .virtualSwitches => "VirtualSwitches"
  | .virtualSwitch => "VirtualSwitch"
  | .status => "Status"
  | .networkInterfaces => "NetworkInterfaces"
  | .importImageTask => "ImportImageTask"
  | .importImageTasks => "ImportImageTasks"
  | .importSnapshotTask => "ImportSnapshotTask"
  | .importSnapshotTasks => "ImportSnapshotTasks"
  | .cancelledImportTask => "CancelledImportTask"
  | .exportTask => "ExportTask"
  | .exportTasks => "ExportTasks"
  | .tariffs => "Tariffs"
  | .extNetworks => "ExtNetworks"
  | .privateIps => "PrivateIps"
  | .generic => "Generic"

/-- The shape of the record of an answer. -/
def shape : Answer → Shape
  | .addressPools => .page itemMarker .addressPool
  | .byoipCidrs => .page itemMarker .byoipCidr
  | .byoipCidr => .entity .byoipCidr
  | .virtualSwitches => .page itemMarker .virtualSwitch
  | .virtualSwitch => .entity .virtualSwitch
  | .status => .status
  | .networkInterfaces => .page itemMarker .networkInterface
  | .importImageTask => .entity .imageImport
  | .importImageTasks => .page itemMarker .imageImport
  | .importSnapshotTask => .entity .snapshotImport
  | .importSnapshotTasks => .page itemMarker .snapshotImport
  | .cancelledImportTask => .entity .cancelledImport
  | .exportTask => .entity .instanceExport
  | .exportTasks => .page itemMarker .instanceExport
  | .tariffs => .page itemMarker .tariff
  | .extNetworks => .page itemMarker .externalNetwork
  | .privateIps => .page itemMarker .privateAddress
  | .generic => .generic

/-- The answer to an action. An action whose answer has no shape of its own is answered by all
leaves. -/
def ofAction : Action → Answer
  | .describePublicIpv4Pools => .addressPools
  | .describeByoipCidrs => .byoipCidrs
  | .provisionByoipCidr | .deprovisionByoipCidr => .byoipCidr
  | .describeVirtualSwitches => .virtualSwitches
  | .createVirtualSwitch => .virtualSwitch
  | .deleteVirtualSwitch | .cancelExportTask => .status
  | .describeNetworkInterfaces => .networkInterfaces
  | .importImage => .importImageTask
  | .describeImportImageTasks => .importImageTasks
  | .importSnapshot => .importSnapshotTask
  | .describeImportSnapshotTasks => .importSnapshotTasks
  | .cancelImportTask => .cancelledImportTask
  | .createInstanceExportTask => .exportTask
  | .describeExportTasks => .exportTasks
  | .describeTariffs => .tariffs
  | .describeExternalNetworks => .extNetworks
  | .describePrivateIpAddresses => .privateIps
  | .runInstances => .generic

/-- The record of the response to an action. -/
def decode (settings : Settings) (action : Action) (bytes : List UInt8) :
    Except Decode.Error Node :=
  match Decode.decode settings bytes (Node.fresh (ofAction action).shape) with
  | .ok _ node => .ok node
  | .error e _ => .error e

/-- Whether the outcome of a call is success. An outcome that is not told is success. -/
def succeeded (node : Node) : Bool :=
  match node.value? "status" with
  | some (.boolean b) => b
  | _ => true

end Answer

end CloudCodec.Response
