import I3cHost.Engine.State
import I3cHost.Inspection.Wire

/-!
# The activity of a session laid out for inspection

What is known about the device and its targets, the requests in flight, the calls made on the
transport, and what hooks and listeners have reported.
-/

namespace I3cHost

instance : Inspect DeviceState where
  tree state := .fields [("active_i3c_controller", tree state.activeController),
    ("i3c_bus", tree state.i3cBus), ("controller_role_handoff", tree state.controllerRoleHandoff),
    ("regular_ibi", tree state.regularIbi), ("hot_join", tree state.hotJoin),
    ("regular_ibi_wake", tree state.regularIbiWake), ("hot_join_wake", tree state.hotJoinWake),
    ("controller_role_request_wake", tree state.controllerRoleRequestWake)]

instance : Inspect DeviceInfo where
  tree info := .fields [("capability", tree info.capability), ("state", tree info.state)]

instance : Inspect TargetDevice where
  tree device := .fields [("address", tree device.address), ("pid_hi", tree device.pid.high),
    ("pid_lo", tree device.pid.low), ("pid", tree device.pid), ("type", tree device.type),
    ("dcr", tree device.dcr), ("bcr", tree device.bcr),
    ("handoff", tree device.capability.handoffControllerRole),
    ("static", tree device.capability.staticAddress),
    ("prio", tree device.capability.ibiPriority), ("disco", tree device.capability.discoVersion),
    ("pending", tree device.capability.maxPendingIbi), ("config", tree device.config),
    ("max_ibi", tree device.maxIbiPayload), ("valid_pid", tree device.validPid)]

instance : Inspect Census where
  tree census := .fields [("static", tree census.staticCount),
    ("dynamic", tree census.dynamicCount)]

instance : Inspect TransferSettings where
  tree settings := .fields [("mode", tree settings.mode), ("rate", tree settings.rate),
    ("tm", tree settings.modeInfo)]

instance : Inspect RequestRecord where
  tree record := .fields [("id", tree record.id), ("dependent", tree record.dependent),
    ("response", tree record.response)]

/-- The parts by which a control request is shown. -/
def ClassRequest.items (request : ClassRequest) (value : UInt16) : List Tree :=
  [tree request, tree (Coded.code request), tree value]

instance : Inspect TransportCall where
  tree
    | .controlIn request value maxLength =>
        .items ((.text "control_in" :: request.items value) ++ [tree maxLength])
    | .submitControlIn request value maxLength =>
        .items ((.text "submit_control_in" :: request.items value) ++ [tree maxLength])
    | .controlOut request value data =>
        .items ((.text "control_out" :: request.items value) ++ [tree data])
    | .bulkOut data => .items [.text "bulk_out", tree data]
    | .startBulkIn bufferSize => .items [.text "start_bulk_in", tree bufferSize]
    | .startInterruptIn => .items [.text "start_interrupt_in"]

instance : Inspect InitState := ⟨fun state ↦ .text state.label⟩

instance : Inspect InitEvent where
  tree
    | .start => .items [.text "Start"]
    | .capabilityReceived buffer => .items [.text "CapabilityReceived", tree buffer]
    | .pipelineStarted => .items [.text "PipelineStarted"]
    | .busInitStatus code => .items [.text "BusInitStatus", tree code]
    | .tableReceived buffer => .items [.text "TableReceived", tree buffer]
    | .configApplied => .items [.text "ConfigApplied"]
    | .tableMerged => .items [.text "TableMerged"]
    | .fail error => .items [.text "Fail", tree error]

instance : Inspect Rejection := ⟨fun rejection ↦ .failure "Rejected" rejection.message⟩

/-- Identifiers of a batch; of a long one only the number and the two ends. -/
def batchTree (ids : List UInt16) : Tree :=
  if ids.length ≤ 64 then
    tree ids
  else
    .fields [("count", tree ids.length), ("first", tree ids.head?), ("last", tree ids.getLast?)]

instance : Inspect Outcome where
  tree
    | .done => tree ()
    | .failed error => tree error
    | .undefined error => tree error
    | .submitted ids => batchTree ids
    | .response response => tree response
    | .requests records => tree records
    | .info info => tree info
    | .settings settings => tree settings
    | .devices devices => tree devices
    | .device device => tree device
    | .config config => tree config
    | .delivered count => tree count

instance : Inspect Arrival where
  tree arrival := .items [.text "insert", tree arrival.listener, tree arrival.address]

instance : Inspect Notice where
  tree
    | .arrival arrival => tree arrival
    | .response label response => .items [.text "response", tree label, tree response]
    | .vendor label payload => .items [.text "vendor", tree label, tree payload]
    | .followUp label outcomes => .items [.text "then", tree label, tree outcomes]

end I3cHost
