import I3cHost.Bulk.Descriptor

/-!
# Transfers to the device

A regular request is a list of blocks up to the end of the transfer. A write carries its payload,
padded to a whole number of words, and declares the payload's length; a read carries nothing and
declares how many bytes it asks for. A vendor-specific request is opaque, so a decoded payload
includes its padding.
-/

namespace I3cHost

/-- One command of a regular request. -/
structure CommandBlock where
  id : UInt16
  dependent : Bool
  descriptor : CommandDescriptor
  /-- The payload of a write; empty for a read. -/
  data : Bytes
  deriving DecidableEq

/-- A transfer to the device. -/
inductive BulkRequest where
  | regular (blocks : List CommandBlock)
  | vendorSpecific (payload : Bytes)
  deriving DecidableEq

namespace CommandBlock

/-- The number of bytes set aside for a block. -/
def encodedSize (block : CommandBlock) : Nat :=
  Record.size CommandBlockHeader + Record.size CommandDescriptor
    + Bytes.paddedLength block.data.length

/-- The header of a block. -/
def header (block : CommandBlock) : CommandBlockHeader where
  id := block.id
  flags := CommandBlockFlags.setDependent {} block.dependent

/-- Writes a block. A write that declares another length than its payload has is refused. -/
def encode (block : CommandBlock) (writer : Writer) : CodecResult Writer := do
  let declared := block.descriptor.dataLength.toNat
  if block.descriptor.isRead = false ∧ declared ≠ block.data.length then
    throw (.lengthMismatch declared block.data.length)
  let writer ← writer.record block.header
  let writer ← writer.record block.descriptor
  if block.descriptor.isRead then
    return writer
  else
    writer.put (Bytes.padded block.data)

/-- Reads the block that comes next. -/
def read (reader : Reader) : CodecResult (CommandBlock × Reader) := do
  let (header, reader) ← reader.record (α := CommandBlockHeader)
  let (descriptor, reader) ← reader.record (α := CommandDescriptor)
  if descriptor.isRead then
    return (⟨header.id, header.flags.dependent, descriptor, []⟩, reader)
  else
    let (data, reader) ← reader.payload descriptor.dataLength.toNat
    return (⟨header.id, header.flags.dependent, descriptor, data⟩, reader)

end CommandBlock

namespace BulkRequest

/-- The number of bytes set aside for a request. -/
def encodedSize : BulkRequest → Nat
  | .regular blocks =>
      Record.size BulkHeader + blocks.foldr (fun block size ↦ block.encodedSize + size) 0
  | .vendorSpecific payload => Record.size BulkHeader + Bytes.paddedLength payload.length

/-- Writes a request. -/
def encode (request : BulkRequest) (writer : Writer) : CodecResult Writer :=
  match request with
  | .regular blocks => do
      let writer ← writer.record BulkRequestTag.regularCommand.header
      blocks.foldlM (fun writer block ↦ block.encode writer) writer
  | .vendorSpecific payload => do
      let writer ← writer.record BulkRequestTag.vendorSpecific.header
      writer.put (Bytes.padded payload)

/-- Reads a request. -/
def decode (buffer : Bytes) : CodecResult BulkRequest := do
  let (header, reader) ← (Reader.ofBytes buffer).record (α := BulkHeader)
  match ← Coded.ofByte (α := BulkRequestTag) header.tag with
  | .regularCommand => return .regular (← reader.items CommandBlock.read)
  | .vendorSpecific => return .vendorSpecific reader.rest

instance : Message BulkRequest where
  encodedSize := encodedSize
  encode := encode
  decode := decode

end BulkRequest

end I3cHost
