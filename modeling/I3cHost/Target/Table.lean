import I3cHost.Error
import I3cHost.Target.Device
import I3cHost.Transfer

/-!
# The table of targets

The targets in the order in which they became known. A listener may be registered; while events
are enabled it is told the address of every target that is inserted with one. Operations that can
be refused leave the table as it was when they are.
-/

namespace I3cHost

/-- What a listener has been told. -/
structure Arrival where
  listener : String
  address : UInt8
  deriving DecidableEq

/-- The targets known to the host. -/
structure TargetTable where
  devices : List TargetDevice := []
  eventsEnabled : Bool := false
  /-- The name under which the listener is told of arrivals. -/
  listener : Option String := none
  /-- What listeners have been told, oldest first. -/
  arrivals : Array Arrival := #[]

/-- How many I3C targets can be given an address in which way. -/
structure Census where
  /-- Targets that are reached through their static address. -/
  staticCount : Nat := 0
  /-- Targets that take part in dynamic address assignment. -/
  dynamicCount : Nat := 0
  deriving DecidableEq

namespace TargetTable

/-- The index of the target at an address. Zero is no address. -/
def position (table : TargetTable) (address : UInt8) : Option Nat :=
  if address = 0 then none else table.devices.findIdx? fun device ↦ device.address == address

/-- No target is found at the address zero. -/
@[simp] theorem position_zero (table : TargetTable) : table.position 0 = none := by
  simp [position]

/-- The index of the target with an identifier. -/
def positionOfPid (table : TargetTable) (pid : ProvisionedId) : Option Nat :=
  table.devices.findIdx? fun device ↦ device.matchesPid pid

/-- The target at an address. -/
def get? (table : TargetTable) (address : UInt8) : Option TargetDevice := do
  table.devices[← table.position address]?

/-- No device is found at address 0, which stands for no address. -/
@[simp] theorem get?_zero (table : TargetTable) : table.get? 0 = none := by
  simp [get?]

/-- The number of targets. -/
def size (table : TargetTable) : Nat :=
  table.devices.length

/-- Whether there are no targets. -/
def isEmpty (table : TargetTable) : Bool :=
  table.devices.isEmpty

/-- The addresses in use, in the order of the targets. -/
def addresses (table : TargetTable) : List UInt8 :=
  (table.devices.map (·.address)).filter (· != 0)

/-- Tells the listener, if there is one and events are enabled, that a target arrived at an
address. -/
def announce (table : TargetTable) (address : UInt8) : TargetTable :=
  match table.listener with
  | some listener =>
      if table.eventsEnabled ∧ address ≠ 0 then
        { table with arrivals := table.arrivals.push ⟨listener, address⟩ }
      else
        table
  | none => table

/-- Appends a target. Its address has to be in range and free, and it has to be reachable. -/
def insert (table : TargetTable) (device : TargetDevice) : HostResult TargetTable :=
  if device.address > maxTargetAddress then
    .error (.validation (.addressOutOfRange device.address))
  else if (table.position device.address).isSome then
    .error (.validation (.addressInUse device.address))
  else if device.isUnreachable then
    .error (.validation .unidentifiableDevice)
  else
    .ok ({ table with devices := table.devices ++ [device] }.announce device.address)

/-- Removes the target at an address and returns it. -/
def remove (table : TargetTable) (address : UInt8) : Option (TargetDevice × TargetTable) := do
  let index ← table.position address
  let device ← table.devices[index]?
  return (device, { table with devices := table.devices.eraseIdx index })

/-- Replaces the target at an index. -/
def modify (table : TargetTable) (index : Nat) (change : TargetDevice → TargetDevice) :
    TargetTable :=
  { table with devices := table.devices.modify index change }

/-- Moves the target at an address to another, which has to be in range and free. -/
def changeAddress (table : TargetTable) (old new : UInt8) : HostResult TargetTable :=
  if new = 0 ∨ new > maxTargetAddress then
    .error (.validation (.addressOutOfRange new))
  else
    match table.position old with
    | none => .error (.validation (.unknownTarget old))
    | some index =>
        if (table.position new).any (· != index) then
          .error (.validation (.addressInUse new))
        else
          .ok (table.modify index fun device ↦ { device with address := new })

/-- Records the configuration of the target at an address. -/
def updateConfig (table : TargetTable) (address : UInt8) (config : TargetConfig)
    (maxIbiPayload : UInt32) : HostResult TargetTable :=
  match table.position address with
  | none => .error (.validation (.unknownTarget address))
  | some index => .ok (table.modify index fun device ↦ { device with config, maxIbiPayload })

/-- Counts the I3C targets by the way in which they can be given an address. Fails if one of them
has neither a static address nor an identifier. -/
def identify (table : TargetTable) : HostResult Census :=
  let candidates := table.devices.filter (·.type == .i3c)
  let (fixed, others) := candidates.partition (·.capability.staticAddress != 0)
  if others.all (·.validPid) then
    .ok ⟨fixed.length, others.length⟩
  else
    .error (.validation .unidentifiableDevice)

/-- The table as a listing. -/
def listing (table : TargetTable) : HostResult Bytes :=
  .ofCodec (Message.toBytes (⟨table.devices.map (·.row)⟩ : TargetListing))

/-- A buffer that gives every target with an address the same configuration. -/
def configChange (table : TargetTable) (config : TargetConfig) (maxIbiPayload : UInt32) :
    HostResult Bytes :=
  .ofCodec (Message.toBytes (⟨table.addresses.map fun address ↦
    { address, config := config.bits, maxIbiPayload }⟩ : ConfigChange))

end TargetTable

end I3cHost
