import I3cHost.Bulk.Request
import I3cHost.Bulk.Response
import I3cHost.Device.Capability
import I3cHost.Inspection.Failures
import I3cHost.Notification
import I3cHost.Target.AddressChange
import I3cHost.Target.Listing

/-!
# Records and messages laid out for inspection

The fields of everything that is exchanged with the device. A byte of bit fields shows the fields
and also its raw value.
-/

namespace I3cHost

/-! ## Counted lists and addresses -/

instance : Inspect EntryCount := ⟨fun header ↦ .fields [("entries", tree header.count)]⟩

instance : Inspect AddressChangeEntry where
  tree entry := .fields [("current", tree entry.current), ("new", tree entry.new),
    ("pid_lo", tree entry.pid.low), ("pid_hi", tree entry.pid.high)]

instance : Inspect AddressChangeOutcome where
  tree outcome := .fields [("old", tree outcome.old), ("new", tree outcome.new),
    ("status", tree outcome.status), ("succeeded", tree outcome.succeeded)]

instance : Inspect AddressChangeRequest := ⟨fun request ↦ tree request.entries⟩

instance : Inspect AddressChangeReport := ⟨fun report ↦ tree report.outcomes⟩

/-! ## Capabilities -/

instance : Inspect RoleAndDataType where
  tree bits := .fields [("role", tree bits.role), ("data_type", tree bits.dataType),
    ("raw", tree bits.raw)]

instance : Inspect CapabilityFlags where
  tree flags := .fields [("handoff", tree (flags.has .handoffControllerRole)),
    ("hot_join", tree (flags.has .hotJoin)), ("ibi", tree (flags.has .inBandInterrupt)),
    ("pending_read", tree (flags.has .pendingRead)),
    ("self_initiated", tree (flags.has .selfInitiated)),
    ("delayed_pending_read", tree (flags.has .delayedPendingRead)),
    ("raw", .bytes [flags.low, flags.high])]

instance : Inspect Version := ⟨fun version ↦ .items [tree version.major, tree version.minor]⟩

/-- The fields of the preamble, which every capability report starts with. -/
def CapabilityPreamble.namedFields (preamble : CapabilityPreamble) : List (String × Tree) :=
  [("total_length", tree preamble.totalLength), ("role_and_type", tree preamble.roleAndDataType),
    ("error_code", tree preamble.errorCode)]

instance : Inspect CapabilityPreamble := ⟨fun preamble ↦ .fields preamble.namedFields⟩

instance : Inspect CapabilityHeader where
  tree header := .fields (header.toCapabilityPreamble.namedFields ++
    [("mipi", tree header.mipiVersion), ("disco", tree header.discoVersion),
      ("flags", tree header.flags), ("hdr", tree header.hdrModes),
      ("max_ibi", tree header.maxIbiPayload)])

instance : Inspect CapabilityEntry where
  tree entry := .fields [("static", tree entry.staticAddress), ("prio", tree entry.ibiPriority),
    ("disco", tree entry.discoVersion), ("pid_lo", tree entry.pid.low),
    ("pid_hi", tree entry.pid.high), ("pending", tree entry.maxPendingIbi)]

instance : Inspect DeviceCapability where
  tree capability := .fields [("has_data", tree capability.hasData),
    ("role", tree capability.role), ("data_type", tree capability.dataType),
    ("handoff", tree capability.handoffControllerRole), ("hot_join", tree capability.hotJoin),
    ("ibi", tree capability.inBandInterrupt), ("pending_read", tree capability.pendingRead),
    ("self_initiated", tree capability.selfInitiated),
    ("delayed_pending_read", tree capability.delayedPendingRead),
    ("hdr", tree capability.hdrModes), ("max_ibi", tree capability.maxIbiPayload),
    ("mipi", tree capability.mipiVersion), ("disco", tree capability.discoVersion),
    ("controller_capable", tree capability.isControllerCapable)]

instance : Inspect CapabilityReport where
  tree report := .fields [("header", tree report.header), ("targets", tree report.targets),
    ("has_data", tree report.hasData), ("role", tree report.deviceRole),
    ("data_type", tree report.dataType), ("device", tree (DeviceCapability.ofReport report))]

/-! ## Targets -/

/-- The names under which configuration flags are shown. -/
def TargetConfig.namedFields (config : TargetConfig) : List (String × Tree) :=
  [("tir", tree config.interruptRequest), ("crr", tree config.controllerRoleRequest),
    ("ibit", tree config.ibiTimestamp)]

instance : Inspect TargetConfig := ⟨fun config ↦ .fields config.namedFields⟩

instance : Inspect TargetConfigBits where
  tree bits := .fields (bits.config.namedFields ++ [("raw", tree bits.raw)])

instance : Inspect ConfigChangeHeader where
  tree header := .fields [("type", tree header.commandType), ("entries", tree header.count)]

instance : Inspect ConfigChangeEntry where
  tree entry := .fields [("address", tree entry.address), ("config", tree entry.config),
    ("max_ibi", tree entry.maxIbiPayload)]

instance : Inspect ConfigChange := ⟨fun change ↦ tree change.entries⟩

instance : Inspect TargetRow where
  tree row := .fields [("address", tree row.address), ("config", tree row.config),
    ("type", tree row.type), ("pid_lo", tree row.pid.low), ("pid_hi", tree row.pid.high),
    ("pid", tree row.pid), ("dcr", tree row.dcr), ("bcr", tree row.bcr),
    ("max_ibi", tree row.maxIbiPayload)]

instance : Inspect TargetListing := ⟨fun listing ↦ tree listing.rows⟩

/-! ## Notifications -/

instance : Inspect NotificationKind where
  tree
    | .busInitialization code => .fields [("BusInitialization", tree code)]
    | .addressChange code => .fields [("AddressChange", tree code)]

instance : Inspect Notification where
  tree notification := .fields [("type", tree notification.type),
    ("code", tree notification.code), ("kind", tree notification.kind)]

/-! ## Bulk transfers -/

instance : Inspect BulkHeader := ⟨fun header ↦ .fields [("tag", tree header.tag)]⟩

instance : Inspect CommandBlockFlags where
  tree flags := .fields [("dependent", tree flags.dependent), ("raw", tree flags.raw)]

instance : Inspect CommandAttributes where
  tree attributes := .fields [("read", tree attributes.read),
    ("eh", tree attributes.errorHandling), ("raw", tree attributes.raw)]

instance : Inspect ResponseFlags where
  tree flags := .fields [("attempted", tree flags.attempted), ("has_data", tree flags.hasData),
    ("raw", tree flags.raw)]

instance : Inspect CommandBlockHeader where
  tree header := .fields [("id", tree header.id), ("dependent", tree header.flags.dependent),
    ("flags", tree header.flags.raw)]

instance : Inspect CommandDescriptor where
  tree descriptor := .fields [("type", tree descriptor.type),
    ("read", tree descriptor.isRead), ("eh", tree descriptor.attributes.errorHandling),
    ("attributes", tree descriptor.attributes.raw), ("target", tree descriptor.target),
    ("mode", tree descriptor.mode), ("rate", tree descriptor.rate),
    ("tm", tree descriptor.modeInfo), ("ccc", tree descriptor.ccc),
    ("db", tree descriptor.definingByte), ("len", tree descriptor.dataLength)]

instance : Inspect ResponseDescriptor where
  tree descriptor := .fields [("id", tree descriptor.id),
    ("attempted", tree descriptor.flags.attempted), ("has_data", tree descriptor.flags.hasData),
    ("flags", tree descriptor.flags.raw), ("status", tree descriptor.status),
    ("len", tree descriptor.dataLength)]

instance : Inspect CommandStatus where
  tree
    | .unknown code => .fields [("Unknown", tree code)]
    | status => .text status.label

instance : Inspect CommandBlock where
  tree block := .fields [("id", tree block.id), ("dependent", tree block.dependent),
    ("descriptor", tree block.descriptor), ("data", tree block.data)]

instance : Inspect BulkRequest where
  tree
    | .regular blocks => .fields [("regular", tree blocks)]
    | .vendorSpecific payload => .fields [("vendor", tree payload)]

instance : Inspect CommandResponse where
  tree response := .fields [("id", tree response.id), ("attempted", tree response.attempted),
    ("status", tree response.status), ("has_data", tree response.hasData),
    ("data", tree response.data)]

instance : Inspect BulkResponse where
  tree
    | .regular responses => .fields [("regular", tree responses)]
    | .ibi payload => .fields [("ibi", tree payload)]
    | .vendorSpecific payload => .fields [("vendor", tree payload)]

end I3cHost
