import I3cHost.Capability.Header

/-!
# The capability report

A device either answers that it has no capability data, in which case the first four bytes are
all that counts, or it sends the full header followed by one entry for every target it knows
beforehand. The header declares the length of the whole report; decoding checks the declared
length against the buffer, against the header and against the entries, in this order of fields.
-/

namespace I3cHost

/-- The error code of a report that is followed by capability data. -/
def capabilityDataPresent : UInt8 := 0

/-- The error code of a report without capability data. -/
def noCapabilityData : UInt8 := 1

/-- The size of the header of a report with capability data. -/
def capabilityHeaderSize : Nat := Record.size CapabilityHeader

/-- The size of one target entry of a report. -/
def capabilityEntrySize : Nat := Record.size CapabilityEntry

/-- A capability report. -/
structure CapabilityReport where
  header : CapabilityHeader := {}
  targets : List CapabilityEntry := []
  deriving DecidableEq, Inhabited

namespace CapabilityReport

/-- The data type that the presence of targets calls for. -/
def dataTypeOf (targets : List CapabilityEntry) : CapabilityDataType :=
  if targets.isEmpty then .noStaticData else .staticData

/-- The number of bytes of a report with capability data. -/
def fullSize (targets : List CapabilityEntry) : Nat :=
  capabilityHeaderSize + targets.length * capabilityEntrySize

/-- A report with capability data from a device of a role. -/
def ofTargets (role : DeviceRole) (flags : CapabilityFlags) (maxIbiPayload : UInt32)
    (targets : List CapabilityEntry) : CapabilityReport where
  header :=
    { totalLength := UInt16.ofNat (fullSize targets)
      roleAndDataType :=
        (RoleAndDataType.setRole {} (Coded.byte role)).setDataType
          (Coded.byte (dataTypeOf targets))
      errorCode := capabilityDataPresent
      mipiVersion := ⟨1, 1⟩
      discoVersion := ⟨1, 0⟩
      flags
      maxIbiPayload }
  targets

/-- A report from a device without capability data. -/
def withoutData : CapabilityReport where
  header :=
    { totalLength := 4
      roleAndDataType := RoleAndDataType.setRole {} (Coded.byte DeviceRole.primaryController)
      errorCode := noCapabilityData }

/-- Whether the report carries capability data. -/
def hasData (report : CapabilityReport) : Bool :=
  report.header.errorCode != noCapabilityData

/-- The role of the device. Without capability data the device is taken for a primary controller
that knows nothing about the bus beforehand. -/
def deviceRole (report : CapabilityReport) : DeviceRole :=
  if report.hasData then
    match Coded.ofByte report.header.roleAndDataType.role with
    | .ok role => role
    | .error _ => .primaryController
  else
    .primaryController

/-- Whether the report lists targets. -/
def dataType (report : CapabilityReport) : CapabilityDataType :=
  dataTypeOf report.targets

/-- The number of bytes that writing the report takes. -/
def encodedSize (report : CapabilityReport) : Nat :=
  if report.hasData then fullSize report.targets else Record.size CapabilityPreamble

/-- The header as it is written: the declared length and the data type follow the targets. -/
def writtenHeader (report : CapabilityReport) : CapabilityHeader :=
  { report.header with
    totalLength := UInt16.ofNat report.encodedSize
    roleAndDataType :=
      report.header.roleAndDataType.setDataType (Coded.byte report.dataType) }

/-- The four bytes written for a report without capability data. -/
def writtenPreamble (report : CapabilityReport) : CapabilityPreamble where
  totalLength := 4
  roleAndDataType := report.header.roleAndDataType
  errorCode := noCapabilityData

/-- Writes the report. -/
def encode (report : CapabilityReport) (writer : Writer) : CodecResult Writer :=
  if report.hasData then do
    let writer ← writer.record report.writtenHeader
    writer.records report.targets
  else
    writer.record report.writtenPreamble

/-- Reads the target entries of a report whose header declares a length and a data type. -/
def decodeTargets (declared : Nat) (dataType : CapabilityDataType) (reader : Reader) :
    CodecResult (List CapabilityEntry) :=
  let entriesSize := declared - capabilityHeaderSize
  match dataType with
  | .noStaticData =>
      if entriesSize = 0 then
        .ok []
      else
        .error (.lengthMismatch declared capabilityHeaderSize)
  | .staticData =>
      let count := entriesSize / capabilityEntrySize
      if entriesSize % capabilityEntrySize = 0 then do
        let (targets, _) ← reader.records count
        return targets
      else
        .error (.lengthMismatch declared (capabilityHeaderSize + count * capabilityEntrySize))

/-- Reads a report. -/
def decode (buffer : Bytes) : CodecResult CapabilityReport := do
  let (preamble, _) ← (Reader.ofBytes buffer).record (α := CapabilityPreamble)
  let declared := preamble.totalLength.toNat
  if buffer.length < declared then
    throw (.bufferTooShort declared buffer.length)
  if preamble.errorCode = noCapabilityData then
    return ⟨{ toCapabilityPreamble := preamble }, []⟩
  if preamble.errorCode ≠ capabilityDataPresent then
    throw (.invalidField "capability error code" preamble.errorCode.toUInt32)
  if declared < capabilityHeaderSize then
    throw (.lengthMismatch declared capabilityHeaderSize)
  let (header, reader) ← (Reader.ofBytes buffer).record (α := CapabilityHeader)
  let _ ← Coded.ofByte (α := DeviceRole) header.roleAndDataType.role
  let dataType ← Coded.ofByte header.roleAndDataType.dataType
  let targets ← decodeTargets declared dataType reader
  return ⟨header, targets⟩

instance : Message CapabilityReport where
  encodedSize := encodedSize
  encode := encode
  decode := decode

end CapabilityReport

end I3cHost
