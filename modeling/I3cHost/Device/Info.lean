import I3cHost.Device.Capability
import I3cHost.Error

/-!
# What is known about the device

The capability, once it has been reported, and the features that are enabled. Operations on the
bus are refused, with the first reason that applies, until the capability is known and the device
is the active controller.
-/

namespace I3cHost

/-- The features that are enabled on the device. -/
structure DeviceState where
  activeController : Bool := false
  i3cBus : Bool := false
  controllerRoleHandoff : Bool := false
  regularIbi : Bool := false
  hotJoin : Bool := false
  regularIbiWake : Bool := false
  hotJoinWake : Bool := false
  controllerRoleRequestWake : Bool := false
  deriving DecidableEq, Inhabited

namespace DeviceState

/-- Records that a feature was enabled or disabled. Nothing stays enabled by leaving a high data
rate mode. -/
def setFeature (state : DeviceState) (feature : Feature) (enabled : Bool) : DeviceState :=
  match feature with
  | .i3cBus => { state with i3cBus := enabled }
  | .controllerRoleHandoff => { state with controllerRoleHandoff := enabled }
  | .regularIbi => { state with regularIbi := enabled }
  | .hotJoin => { state with hotJoin := enabled }
  | .regularIbiWake => { state with regularIbiWake := enabled }
  | .hotJoinWake => { state with hotJoinWake := enabled }
  | .controllerRoleRequestWake => { state with controllerRoleRequestWake := enabled }
  | .hdrExitRecovery => state

/-- Whether a feature is enabled. -/
def isEnabled (state : DeviceState) : Feature → Bool
  | .i3cBus => state.i3cBus
  | .controllerRoleHandoff => state.controllerRoleHandoff
  | .regularIbi => state.regularIbi
  | .hotJoin => state.hotJoin
  | .regularIbiWake => state.regularIbiWake
  | .hotJoinWake => state.hotJoinWake
  | .controllerRoleRequestWake => state.controllerRoleRequestWake
  | .hdrExitRecovery => false

end DeviceState

/-- What is known about the device. -/
structure DeviceInfo where
  /-- Missing until the device has reported it. -/
  capability : Option DeviceCapability := none
  state : DeviceState := {}
  deriving DecidableEq, Inhabited

namespace DeviceInfo

/-- The capability, provided the device manages the bus. -/
def activeCapability (info : DeviceInfo) : HostResult DeviceCapability :=
  match info.capability with
  | none => .error (.state .capabilitiesUnknown)
  | some capability =>
      if info.state.activeController then
        .ok capability
      else
        .error (.state .notActiveController)

/-- Checks that the device manages the bus. -/
def checkActiveController (info : DeviceInfo) : HostResult Unit :=
  discard info.activeCapability

/-- Checks that a feature may be enabled or disabled. -/
def checkFeature (info : DeviceInfo) (feature : Feature) : HostResult Unit := do
  let capability ← info.activeCapability
  if capability.supports feature then
    return ()
  else
    throw (.state (.featureNotSupported feature))

end DeviceInfo

end I3cHost
