import I3cHost.Bulk.Descriptor
import I3cHost.Status

/-!
# Transfers from the device

A regular transfer answers at least one command: response descriptors, each followed by as much
padded data as it declares, up to the end of the transfer. In-band interrupts and vendor-specific
transfers are opaque, so a decoded payload includes its padding.
-/

namespace I3cHost

/-- The answer to one command. -/
structure CommandResponse where
  id : UInt16
  attempted : Bool
  status : CommandStatus
  hasData : Bool
  data : Bytes
  deriving DecidableEq, Inhabited

/-- A transfer from the device. -/
inductive BulkResponse where
  | regular (responses : List CommandResponse)
  | ibi (payload : Bytes)
  | vendorSpecific (payload : Bytes)
  deriving DecidableEq

namespace CommandResponse

/-- The answer the host gives itself for a command whose transfer did not complete. -/
def transportFailure (id : UInt16) : CommandResponse where
  id
  attempted := false
  status := .transportFailure
  hasData := false
  data := []

/-- The number of bytes of an answer. -/
def encodedSize (response : CommandResponse) : Nat :=
  Record.size ResponseDescriptor + Bytes.paddedLength response.data.length

/-- The descriptor of an answer. -/
def descriptor (response : CommandResponse) : ResponseDescriptor where
  id := response.id
  flags := (ResponseFlags.setAttempted {} response.attempted).setHasData response.hasData
  status := response.status.byte
  dataLength := UInt32.ofNat response.data.length

/-- Writes an answer. -/
def encode (response : CommandResponse) (writer : Writer) : CodecResult Writer := do
  let writer ← writer.record response.descriptor
  writer.put (Bytes.padded response.data)

/-- Reads the answer that comes next. -/
def read (reader : Reader) : CodecResult (CommandResponse × Reader) := do
  let (descriptor, reader) ← reader.record (α := ResponseDescriptor)
  let (data, reader) ← reader.payload descriptor.dataLength.toNat
  let status ← CommandStatus.ofByte descriptor.status
  return (⟨descriptor.id, descriptor.flags.attempted, status, descriptor.flags.hasData, data⟩,
    reader)

/-- The parts of an answer by name. -/
def describe (response : CommandResponse) : String :=
  Text.labelled "CommandResponse" [("request_id", toString response.id.toNat),
    ("attempted", Text.truth response.attempted), ("error_status", response.status.label),
    ("has_data", Text.truth response.hasData), ("data", Text.bytes response.data)]

end CommandResponse

namespace BulkResponse

/-- The number of bytes of a transfer. -/
def encodedSize : BulkResponse → Nat
  | .regular responses =>
      Record.size BulkHeader + responses.foldr (fun response size ↦ response.encodedSize + size) 0
  | .ibi payload => Record.size BulkHeader + Bytes.paddedLength payload.length
  | .vendorSpecific payload => Record.size BulkHeader + Bytes.paddedLength payload.length

/-- Writes an opaque transfer. -/
def encodeOpaque (tag : BulkResponseTag) (payload : Bytes) (writer : Writer) :
    CodecResult Writer := do
  let writer ← writer.record tag.header
  writer.put (Bytes.padded payload)

/-- Writes a transfer. -/
def encode (response : BulkResponse) (writer : Writer) : CodecResult Writer :=
  match response with
  | .regular responses => do
      let writer ← writer.record BulkResponseTag.regularCommand.header
      responses.foldlM (fun writer response ↦ response.encode writer) writer
  | .ibi payload => encodeOpaque .ibi payload writer
  | .vendorSpecific payload => encodeOpaque .vendorSpecific payload writer

/-- Reads a transfer. A regular transfer without any answer is too short. -/
def decode (buffer : Bytes) : CodecResult BulkResponse := do
  let (header, reader) ← (Reader.ofBytes buffer).record (α := BulkHeader)
  match ← Coded.ofByte (α := BulkResponseTag) header.tag with
  | .regularCommand =>
      if reader.rest.isEmpty then
        throw (.bufferTooShort (Record.size BulkHeader + Record.size ResponseDescriptor)
          buffer.length)
      return .regular (← reader.items CommandResponse.read)
  | .ibi => return .ibi reader.rest
  | .vendorSpecific => return .vendorSpecific reader.rest

instance : Message BulkResponse where
  encodedSize := encodedSize
  encode := encode
  decode := decode

end BulkResponse

end I3cHost
