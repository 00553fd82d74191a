import I3cHost.Codec.Message

/-!
# Counted lists of records

Several buffers are a four-byte header that holds a 16-bit count, followed by as many records.
Bytes after the last record are ignored.
-/

namespace I3cHost

/-- The header of a counted list of records. -/
structure EntryCount where
  count : UInt16
  reserved : UInt8 × UInt8 := (0, 0)
  deriving DecidableEq

instance : Record EntryCount where
  size := 4
  toBytes header := .ofWord16 header.count ++ [header.reserved.1, header.reserved.2]
  ofBytes bytes := ⟨bytes.word16 0, (bytes.byte 2, bytes.byte 3)⟩
  length_toBytes _ := rfl
  ofBytes_toBytes header := by simp [Bytes.ofWord16, Bytes.word16]
  toBytes_ofBytes
    | [_, _, _, _], _ => by simp [Bytes.word16]

namespace EntryList

variable {α : Type} [Record α]

/-- The size of a list with a number of entries. -/
def size (α : Type) [Record α] (count : Nat) : Nat :=
  4 + count * Record.size α

/-- Writes the header and the entries. More entries than the count can express are refused. -/
def encode (entries : List α) (writer : Writer) : CodecResult Writer := do
  if entries.length ≤ 65535 then
    let writer ← writer.record ({ count := UInt16.ofNat entries.length } : EntryCount)
    writer.records entries
  else
    throw (.invalidField "entry count" (UInt32.ofNat entries.length))

/-- Reads the header and exactly the entries it declares. -/
def decode (buffer : Bytes) : CodecResult (List α) := do
  let (header, reader) ← (Reader.ofBytes buffer).record (α := EntryCount)
  let needed := size α header.count.toNat
  if buffer.length < needed then
    throw (.bufferTooShort needed buffer.length)
  let (entries, _) ← reader.records header.count.toNat
  return entries

end EntryList

end I3cHost
