import I3cHost.Capability.Report
import I3cHost.ClassRequest

/-!
# What a device can do

The part of the capability report that concerns the device itself.
-/

namespace I3cHost

/-- What a device reported about itself. -/
structure DeviceCapability where
  /-- Whether the device had capability data to report. -/
  hasData : Bool
  role : DeviceRole
  dataType : CapabilityDataType
  handoffControllerRole : Bool
  hotJoin : Bool
  inBandInterrupt : Bool
  pendingRead : Bool
  selfInitiated : Bool
  delayedPendingRead : Bool
  hdrModes : UInt8
  maxIbiPayload : UInt32
  mipiVersion : Version
  discoVersion : Version
  deriving DecidableEq, Inhabited

namespace DeviceCapability

/-- What a report says about the device. -/
def ofReport (report : CapabilityReport) : DeviceCapability where
  hasData := report.hasData
  role := report.deviceRole
  dataType := report.dataType
  handoffControllerRole := report.header.flags.has .handoffControllerRole
  hotJoin := report.header.flags.has .hotJoin
  inBandInterrupt := report.header.flags.has .inBandInterrupt
  pendingRead := report.header.flags.has .pendingRead
  selfInitiated := report.header.flags.has .selfInitiated
  delayedPendingRead := report.header.flags.has .delayedPendingRead
  hdrModes := report.header.hdrModes
  maxIbiPayload := report.header.maxIbiPayload
  mipiVersion := report.header.mipiVersion
  discoVersion := report.header.discoVersion

/-- Whether the device can become the active controller of the bus. -/
def isControllerCapable (capability : DeviceCapability) : Bool :=
  capability.role == .primaryController

/-- Whether the device has what a feature needs. -/
def supports (capability : DeviceCapability) : Feature → Bool
  | .i3cBus => true
  | .controllerRoleHandoff => capability.handoffControllerRole
  | .controllerRoleRequestWake => capability.handoffControllerRole
  | .regularIbi => capability.inBandInterrupt
  | .regularIbiWake => capability.inBandInterrupt
  | .hotJoin => capability.hotJoin
  | .hotJoinWake => capability.hotJoin
  | .hdrExitRecovery => capability.hdrModes != 0

end DeviceCapability

end I3cHost
