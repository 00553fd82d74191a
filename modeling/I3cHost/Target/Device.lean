import I3cHost.Capability.Header
import I3cHost.Target.Listing

/-!
# Targets

What the host knows about one target. Part of it comes from the capability report and part from
the listing of targets; each of the two leaves the other part as it was.
-/

namespace I3cHost

/-- The part of a target's description that is known before the bus is initialized. -/
structure TargetCapability where
  handoffControllerRole : Bool := false
  /-- Zero when the target has no static address. -/
  staticAddress : UInt8 := 0
  ibiPriority : UInt8 := 0
  discoVersion : UInt16 := 0
  maxPendingIbi : UInt32 := 0
  deriving DecidableEq, Inhabited

/-- What the host knows about one target. -/
structure TargetDevice where
  /-- Zero until an address is assigned. -/
  address : UInt8 := 0
  pid : ProvisionedId := {}
  type : TargetType := .i3c
  dcr : UInt8 := 0
  bcr : UInt8 := 0
  capability : TargetCapability := {}
  config : TargetConfig := {}
  maxIbiPayload : UInt32 := 0
  /-- Whether the target is known by its provisioned identifier. -/
  validPid : Bool := false
  deriving DecidableEq, Inhabited

namespace TargetDevice

/-- Sets the provisioned identifier to the low 48 bits of a number. -/
def setPid (device : TargetDevice) (number : Nat) : TargetDevice :=
  { device with pid := .ofNat number, validPid := number != 0 }

/-- An I3C target with an address and an identifier. -/
def ofPid (address : UInt8) (pid : UInt64) : TargetDevice :=
  setPid { address } pid.toNat

/-- An I2C target, which is reached at its fixed address. -/
def i2c (address : UInt8) : TargetDevice where
  address
  type := .i2c
  capability := { staticAddress := address }

/-- Whether the target is known by an identifier other than zero. -/
def matchesPid (device : TargetDevice) (pid : ProvisionedId) : Bool :=
  device.validPid && !pid.isZero && device.pid == pid

/-- Whether nothing can reach the target: an I3C target without address, without static address
and without an identifier by which an address could be assigned. -/
def isUnreachable (device : TargetDevice) : Bool :=
  device.type == .i3c && device.address == 0 && device.capability.staticAddress == 0
    && !device.validPid

/-- The target with the identifier of a report, unless the report has none. -/
def adoptPid (device : TargetDevice) (pid : ProvisionedId) : TargetDevice :=
  if pid.isZero then device else device.setPid pid.toNat

/-- The target after its entry of a capability report has been taken over. -/
def applyCapabilityEntry (device : TargetDevice) (entry : CapabilityEntry) : TargetDevice :=
  let device := device.adoptPid entry.pid
  { device with
    capability :=
      { device.capability with
        staticAddress := entry.staticAddress
        ibiPriority := entry.ibiPriority
        discoVersion := entry.discoVersion
        maxPendingIbi := entry.maxPendingIbi } }

/-- A target known only from its entry of a capability report. -/
def ofCapabilityEntry (entry : CapabilityEntry) : TargetDevice :=
  applyCapabilityEntry {} entry

/-- Whether the role bits of the bus characteristics say that a target can take the controller
role. -/
def canTakeController (bcr : UInt8) : Bool :=
  bcr >>> 6 == 1

/-- The target after its row of a listing has been taken over. -/
def applyRow (device : TargetDevice) (row : TargetRow) : CodecResult TargetDevice := do
  let type ← Coded.ofByte row.type
  let device := { device with address := row.address }
  let device := device.adoptPid row.pid
  return { device with
    type
    dcr := row.dcr
    bcr := row.bcr
    capability :=
      { device.capability with handoffControllerRole := canTakeController row.bcr }
    config := row.config.config
    maxIbiPayload := row.maxIbiPayload }

/-- The row of a target in a listing. -/
def row (device : TargetDevice) : TargetRow where
  address := device.address
  config := device.config.bits
  type := Coded.byte device.type
  pid := device.pid
  dcr := device.dcr
  bcr := device.bcr
  maxIbiPayload := device.maxIbiPayload

end TargetDevice

end I3cHost
