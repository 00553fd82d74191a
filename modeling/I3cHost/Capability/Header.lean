import I3cHost.Capability.Flags
import I3cHost.Codec.Message
import I3cHost.ProvisionedId

/-!
# Records of the capability report

The report opens with a header of sixteen bytes. Its first four bytes stand alone when the device
has no capability data, so they are a record of their own. Each target known beforehand adds an
entry of sixteen bytes.
-/

namespace I3cHost

/-- A version with a major and a minor part. -/
structure Version where
  major : UInt8 := 0
  minor : UInt8 := 0
  deriving DecidableEq, Inhabited

/-- The first four bytes of a capability report. -/
structure CapabilityPreamble where
  totalLength : UInt16 := 0
  roleAndDataType : RoleAndDataType := {}
  errorCode : UInt8 := 0
  deriving DecidableEq, Inhabited

instance : Record CapabilityPreamble where
  size := 4
  toBytes record :=
    .ofWord16 record.totalLength ++ [record.roleAndDataType.raw, record.errorCode]
  ofBytes bytes := ⟨bytes.word16 0, ⟨bytes.byte 2⟩, bytes.byte 3⟩
  length_toBytes _ := rfl
  ofBytes_toBytes record := by simp [Bytes.ofWord16, Bytes.word16]
  toBytes_ofBytes
    | [_, _, _, _], _ => by simp [Bytes.word16]

/-- The header of a capability report with capability data. -/
structure CapabilityHeader extends CapabilityPreamble where
  mipiVersion : Version := {}
  discoVersion : Version := {}
  flags : CapabilityFlags := {}
  hdrModes : UInt8 := 0
  reserved : UInt8 := 0
  maxIbiPayload : UInt32 := 0
  deriving DecidableEq, Inhabited

instance : Record CapabilityHeader where
  size := 16
  toBytes record :=
    .ofWord16 record.totalLength ++ [record.roleAndDataType.raw, record.errorCode,
      record.mipiVersion.major, record.mipiVersion.minor, record.discoVersion.major,
      record.discoVersion.minor, record.flags.low, record.flags.high, record.hdrModes,
      record.reserved] ++ .ofWord32 record.maxIbiPayload
  ofBytes bytes :=
    { totalLength := bytes.word16 0
      roleAndDataType := ⟨bytes.byte 2⟩
      errorCode := bytes.byte 3
      mipiVersion := ⟨bytes.byte 4, bytes.byte 5⟩
      discoVersion := ⟨bytes.byte 6, bytes.byte 7⟩
      flags := ⟨bytes.byte 8, bytes.byte 9⟩
      hdrModes := bytes.byte 10
      reserved := bytes.byte 11
      maxIbiPayload := bytes.word32 12 }
  length_toBytes _ := rfl
  ofBytes_toBytes record := by simp [Bytes.ofWord16, Bytes.word16, Bytes.ofWord32, Bytes.word32]
  toBytes_ofBytes
    | [_, _, _, _, _, _, _, _, _, _, _, _, _, _, _, _], _ => by simp [Bytes.word16, Bytes.word32]

/-- What a device knows beforehand about one target. -/
structure CapabilityEntry where
  staticAddress : UInt8 := 0
  ibiPriority : UInt8 := 0
  discoVersion : UInt16 := 0
  pid : ProvisionedId := {}
  reserved : UInt8 × UInt8 := (0, 0)
  maxPendingIbi : UInt32 := 0
  deriving DecidableEq, Inhabited

instance : Record CapabilityEntry where
  size := 16
  toBytes record :=
    [record.staticAddress, record.ibiPriority] ++ .ofWord16 record.discoVersion
      ++ record.pid.toBytes ++ [record.reserved.1, record.reserved.2]
      ++ .ofWord32 record.maxPendingIbi
  ofBytes bytes :=
    { staticAddress := bytes.byte 0
      ibiPriority := bytes.byte 1
      discoVersion := bytes.word16 2
      pid := .ofBytes bytes 4
      reserved := (bytes.byte 10, bytes.byte 11)
      maxPendingIbi := bytes.word32 12 }
  length_toBytes _ := rfl
  ofBytes_toBytes record := by
    simp [Bytes.ofWord16, Bytes.word16, Bytes.ofWord32, Bytes.word32, ProvisionedId.toBytes,
      ProvisionedId.ofBytes]
  toBytes_ofBytes
    | [_, _, _, _, _, _, _, _, _, _, _, _, _, _, _, _], _ => by
      simp [Bytes.word16, Bytes.word32, ProvisionedId.toBytes, ProvisionedId.ofBytes]

end I3cHost
