import I3cHost.BitField
import I3cHost.Coded

/-!
# Role and flags of a device

The bit fields of the capability report: two small numbers that give the role of the device and
the kind of data in the report, and a word of flags that give what the device supports.
-/

namespace I3cHost

/-- The part a device plays on the bus. -/
inductive DeviceRole where
  | primaryController
  | secondaryController
  | target
  deriving DecidableEq, Inhabited

instance : Coded DeviceRole where
  subject := "device role"
  values := [.primaryController, .secondaryController, .target]
  code
    | .primaryController => 1
    | .secondaryController => 2
    | .target => 3
  label
    | .primaryController => "PrimaryController"
    | .secondaryController => "SecondaryController"
    | .target => "Target"
  mem_values value := by cases value <;> decide
  code_injective left right := by cases left <;> cases right <;> decide

/-- Whether a capability report lists the targets that are known beforehand. -/
inductive CapabilityDataType where
  | noStaticData
  | staticData
  deriving DecidableEq, Inhabited

instance : Coded CapabilityDataType where
  subject := "capability data type"
  values := [.noStaticData, .staticData]
  code
    | .noStaticData => 0
    | .staticData => 1
  label
    | .noStaticData => "NoStaticData"
    | .staticData => "StaticData"
  mem_values value := by cases value <;> decide
  code_injective left right := by cases left <;> cases right <;> decide

/-- The byte that holds the device role in bits 0 and 1 and the data type in bits 2 and 3. -/
structure RoleAndDataType where
  raw : UInt8 := 0
  deriving DecidableEq, Inhabited

namespace RoleAndDataType

/-- The number of the device role. -/
def role (bits : RoleAndDataType) : UInt8 :=
  BitField.pair bits.raw 0

/-- The number of the data type. -/
def dataType (bits : RoleAndDataType) : UInt8 :=
  BitField.pair bits.raw 2

/-- Replaces the device role by the low two bits of a value. -/
def setRole (bits : RoleAndDataType) (value : UInt8) : RoleAndDataType :=
  ⟨BitField.setPair bits.raw 0 value⟩

/-- Replaces the data type by the low two bits of a value. -/
def setDataType (bits : RoleAndDataType) (value : UInt8) : RoleAndDataType :=
  ⟨BitField.setPair bits.raw 2 value⟩

/-- The byte and the numbers it holds. -/
def describe (bits : RoleAndDataType) : String :=
  Text.labelled "RoleAndDataType" [(".0", toString bits.raw.toNat),
    ("device_role", toString bits.role.toNat), ("data_type", toString bits.dataType.toNat)]

end RoleAndDataType

/-- The flag word of a capability report, low byte first. -/
structure CapabilityFlags where
  low : UInt8 := 0
  high : UInt8 := 0
  deriving DecidableEq, Inhabited

/-- The capabilities that have a flag, in the order of their bits. -/
inductive CapabilityFlag where
  | handoffControllerRole
  | hotJoin
  | inBandInterrupt
  | pendingRead
  | selfInitiated
  | delayedPendingRead
  deriving DecidableEq, Inhabited

/-- The bit of a flag within the low byte. -/
def CapabilityFlag.position : CapabilityFlag → UInt8
  | .handoffControllerRole => 0
  | .hotJoin => 1
  | .inBandInterrupt => 2
  | .pendingRead => 3
  | .selfInitiated => 4
  | .delayedPendingRead => 5

namespace CapabilityFlags

/-- Whether a flag is set. -/
def has (flags : CapabilityFlags) (flag : CapabilityFlag) : Bool :=
  BitField.flag flags.low flag.position

/-- Sets or clears a flag. -/
def set (flags : CapabilityFlags) (flag : CapabilityFlag) (value : Bool) : CapabilityFlags :=
  { flags with low := BitField.setFlag flags.low flag.position value }

/-- The two bytes and the flags they hold. -/
def describe (flags : CapabilityFlags) : String :=
  Text.labelled "CapabilityFlags" [(".0", Text.bytes [flags.low, flags.high]),
    ("handoff_controller_role", Text.truth (flags.has .handoffControllerRole)),
    ("hot_join", Text.truth (flags.has .hotJoin)),
    ("in_band_interrupt", Text.truth (flags.has .inBandInterrupt)),
    ("pending_read", Text.truth (flags.has .pendingRead)),
    ("self_initiated", Text.truth (flags.has .selfInitiated)),
    ("delayed_pending_read", Text.truth (flags.has .delayedPendingRead))]

end CapabilityFlags

end I3cHost
