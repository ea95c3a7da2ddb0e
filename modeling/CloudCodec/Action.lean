/-
# Actions

The calls of the service that have a request and a response here, with their names on the wire.
-/

namespace CloudCodec

/-- A call of the service. -/
inductive Action
  | importImage
  | importSnapshot
  | describeImportImageTasks
  | describeImportSnapshotTasks
  | cancelImportTask
  | createInstanceExportTask
  | describeExportTasks
  | cancelExportTask
  | describePublicIpv4Pools
  | describeByoipCidrs
  | provisionByoipCidr
  | deprovisionByoipCidr
  | describeVirtualSwitches
  | createVirtualSwitch
  | deleteVirtualSwitch
  | describeNetworkInterfaces
  | runInstances
  | describeTariffs
  | describeExternalNetworks
  | describePrivateIpAddresses
  deriving DecidableEq, Repr

namespace Action

/-- All actions. -/
def all : List Action :=
  [.importImage, .importSnapshot, .describeImportImageTasks, .describeImportSnapshotTasks,
    .cancelImportTask, .createInstanceExportTask, .describeExportTasks, .cancelExportTask,
    .describePublicIpv4Pools, .describeByoipCidrs, .provisionByoipCidr, .deprovisionByoipCidr,
    .describeVirtualSwitches, .createVirtualSwitch, .deleteVirtualSwitch,
    .describeNetworkInterfaces, .runInstances, .describeTariffs, .describeExternalNetworks,
    .describePrivateIpAddresses]

/-- The name of an action on the wire. -/
def name : Action → String
  | .importImage => "ImportImage"
  | .importSnapshot => "ImportSnapshot"
  | .describeImportImageTasks => "DescribeImportImageTasks"
  | .describeImportSnapshotTasks => "DescribeImportSnapshotTasks"
  | .cancelImportTask => "CancelImportTask"
  | .createInstanceExportTask => "CreateInstanceExportTask"
  | .describeExportTasks => "DescribeExportTasks"
  | .cancelExportTask => "CancelExportTask"
  | .describePublicIpv4Pools => "DescribePublicIpv4Pools"
  | .describeByoipCidrs => "DescribeByoipCidrs"
  | .provisionByoipCidr => "ProvisionByoipCidr"
  | .deprovisionByoipCidr => "DeprovisionByoipCidr"
  | .describeVirtualSwitches => "DescribeVirtualSwitches"
  | .createVirtualSwitch => "CreateVirtualSwitch"
  | .deleteVirtualSwitch => "DeleteVirtualSwitch"
  | .describeNetworkInterfaces => "DescribeNetworkInterfaces"
  | .runInstances => "RunInstances"
  | .describeTariffs => "DescribeTariffs"
  | .describeExternalNetworks => "DescribeExternalNetworks"
  | .describePrivateIpAddresses => "DescribePrivateIpAddresses"

theorem mem_all (action : Action) : action ∈ all := by
  cases action <;> decide

/-- The action with a name. -/
def ofName? (name : String) : Option Action := all.find? fun action => action.name == name

/-- The names of the actions as callers spell them. -/
theorem map_name_all :
    all.map name =
      ["ImportImage", "ImportSnapshot", "DescribeImportImageTasks", "DescribeImportSnapshotTasks",
        "CancelImportTask", "CreateInstanceExportTask", "DescribeExportTasks", "CancelExportTask",
        "DescribePublicIpv4Pools", "DescribeByoipCidrs", "ProvisionByoipCidr",
        "DeprovisionByoipCidr", "DescribeVirtualSwitches", "CreateVirtualSwitch",
        "DeleteVirtualSwitch", "DescribeNetworkInterfaces", "RunInstances", "DescribeTariffs",
        "DescribeExternalNetworks", "DescribePrivateIpAddresses"] := rfl

/-- No action is found in the place of another one. -/
theorem ofName?_name (action : Action) : ofName? action.name = some action := by
  cases action <;> decide +kernel

theorem ofName?_eq_some_iff {text : String} {action : Action} :
    ofName? text = some action ↔ action.name = text := by
  constructor
  · intro h
    rw [ofName?] at h
    simpa using List.find?_some h
  · rintro rfl
    exact ofName?_name action

theorem name_injective {a b : Action} (h : a.name = b.name) : a = b :=
  Option.some.inj ((ofName?_name a).symm.trans (ofName?_eq_some_iff.2 h.symm))

end Action

end CloudCodec
