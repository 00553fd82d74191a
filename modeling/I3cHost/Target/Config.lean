import I3cHost.BitField
import I3cHost.Codec.Message

/-!
# Configuration of targets

Three flags say what a target may do on its own. They travel in one byte, both in the table of
targets and in the buffer that changes the configuration of a list of targets.
-/

namespace I3cHost

/-- The byte that holds the configuration flags of a target. -/
structure TargetConfigBits where
  raw : UInt8 := 0
  deriving DecidableEq, Inhabited

/-- What a target may do on its own. -/
structure TargetConfig where
  interruptRequest : Bool := false
  controllerRoleRequest : Bool := false
  ibiTimestamp : Bool := false
  deriving DecidableEq, Inhabited

namespace TargetConfigBits

/-- Whether the target may request an interrupt. -/
def interruptRequest (bits : TargetConfigBits) : Bool :=
  BitField.flag bits.raw 0

/-- Whether the target may request the controller role. -/
def controllerRoleRequest (bits : TargetConfigBits) : Bool :=
  BitField.flag bits.raw 1

/-- Whether interrupts of the target carry a time stamp. -/
def ibiTimestamp (bits : TargetConfigBits) : Bool :=
  BitField.flag bits.raw 2

/-- Sets or clears the permission to request an interrupt. -/
def setInterruptRequest (bits : TargetConfigBits) (value : Bool) : TargetConfigBits :=
  ⟨BitField.setFlag bits.raw 0 value⟩

/-- Sets or clears the permission to request the controller role. -/
def setControllerRoleRequest (bits : TargetConfigBits) (value : Bool) : TargetConfigBits :=
  ⟨BitField.setFlag bits.raw 1 value⟩

/-- Sets or clears time stamps of interrupts. -/
def setIbiTimestamp (bits : TargetConfigBits) (value : Bool) : TargetConfigBits :=
  ⟨BitField.setFlag bits.raw 2 value⟩

/-- The flags without the bits that have no meaning. -/
def config (bits : TargetConfigBits) : TargetConfig where
  interruptRequest := bits.interruptRequest
  controllerRoleRequest := bits.controllerRoleRequest
  ibiTimestamp := bits.ibiTimestamp

/-- The byte and the flags it holds. -/
def describe (bits : TargetConfigBits) : String :=
  Text.labelled "TargetConfigBits" [(".0", toString bits.raw.toNat),
    ("target_interrupt_request", Text.truth bits.interruptRequest),
    ("controller_role_request", Text.truth bits.controllerRoleRequest),
    ("ibi_timestamp", Text.truth bits.ibiTimestamp)]

end TargetConfigBits

/-- The byte for a configuration, all other bits clear. -/
def TargetConfig.bits (config : TargetConfig) : TargetConfigBits :=
  ((TargetConfigBits.setInterruptRequest {} config.interruptRequest).setControllerRoleRequest
    config.controllerRoleRequest).setIbiTimestamp config.ibiTimestamp

/-- The header of a buffer that changes target configurations. -/
structure ConfigChangeHeader where
  commandType : UInt8
  count : UInt8
  reserved : UInt8 × UInt8 := (0, 0)
  deriving DecidableEq

instance : Record ConfigChangeHeader where
  size := 4
  toBytes record := [record.commandType, record.count, record.reserved.1, record.reserved.2]
  ofBytes bytes := ⟨bytes.byte 0, bytes.byte 1, (bytes.byte 2, bytes.byte 3)⟩
  length_toBytes _ := rfl
  ofBytes_toBytes _ := rfl
  toBytes_ofBytes
    | [_, _, _, _], _ => rfl

/-- The new configuration of the target at an address. -/
structure ConfigChangeEntry where
  address : UInt8 := 0
  config : TargetConfigBits := {}
  reserved : UInt8 × UInt8 := (0, 0)
  maxIbiPayload : UInt32 := 0
  deriving DecidableEq

instance : Record ConfigChangeEntry where
  size := 8
  toBytes record :=
    [record.address, record.config.raw, record.reserved.1, record.reserved.2]
      ++ .ofWord32 record.maxIbiPayload
  ofBytes bytes := ⟨bytes.byte 0, ⟨bytes.byte 1⟩, (bytes.byte 2, bytes.byte 3), bytes.word32 4⟩
  length_toBytes _ := rfl
  ofBytes_toBytes record := by simp [Bytes.ofWord32, Bytes.word32]
  toBytes_ofBytes
    | [_, _, _, _, _, _, _, _], _ => by simp [Bytes.word32]

/-- A buffer that changes the configuration of a list of targets. -/
structure ConfigChange where
  entries : List ConfigChangeEntry := []
  deriving DecidableEq

namespace ConfigChange

/-- The one command type that is defined. -/
def commandType : UInt8 := 1

/-- Writes the header and the entries. More entries than one byte can count are refused. -/
def encode (change : ConfigChange) (writer : Writer) : CodecResult Writer := do
  if change.entries.length ≤ 255 then
    let writer ← writer.record
      ({ commandType, count := UInt8.ofNat change.entries.length } : ConfigChangeHeader)
    writer.records change.entries
  else
    throw (.invalidField "target config entry count" (UInt32.ofNat change.entries.length))

/-- Reads the header and as many entries as it declares. -/
def decode (buffer : Bytes) : CodecResult ConfigChange := do
  let (header, reader) ← (Reader.ofBytes buffer).record (α := ConfigChangeHeader)
  if header.commandType ≠ commandType then
    throw (.invalidField "target config command type" header.commandType.toUInt32)
  let (entries, _) ← reader.records header.count.toNat
  return ⟨entries⟩

instance : Message ConfigChange where
  encodedSize change :=
    Record.size ConfigChangeHeader + change.entries.length * Record.size ConfigChangeEntry
  encode := encode
  decode := decode

end ConfigChange

end I3cHost
