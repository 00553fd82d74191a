import I3cHost.Codec.Reader
import I3cHost.Codec.Writer

/-!
# Records of fixed size

A record has a fixed layout: every buffer of its size is a record, and a record written out is
read back as itself, reserved bytes included. `Record` carries both laws.
-/

namespace I3cHost

/-- A type whose values are laid out in a fixed number of bytes, each layout being a value. -/
class Record (α : Type) where
  /-- The number of bytes of the layout. -/
  size : Nat
  /-- The layout of a value. -/
  toBytes : α → Bytes
  /-- The value with a layout. -/
  ofBytes : Bytes → α
  /-- Every layout has the size of the record. -/
  length_toBytes : ∀ value : α, (toBytes value).length = size
  /-- A value is determined by its layout. -/
  ofBytes_toBytes : ∀ value : α, ofBytes (toBytes value) = value
  /-- No byte of a layout is lost. -/
  toBytes_ofBytes : ∀ bytes : Bytes, bytes.length = size → toBytes (ofBytes bytes) = bytes

attribute [simp] Record.length_toBytes Record.ofBytes_toBytes

instance : Record UInt32 where
  size := 4
  toBytes := .ofWord32
  ofBytes bytes := bytes.word32 0
  length_toBytes _ := rfl
  ofBytes_toBytes word := by simp [Bytes.ofWord32, Bytes.word32]
  toBytes_ofBytes
    | [_, _, _, _], _ => by simp [Bytes.word32]

variable {α : Type} [Record α]

/-- Reads the record that comes next. -/
def Reader.record (reader : Reader) : CodecResult (α × Reader) := do
  let (bytes, reader) ← reader.take (Record.size α)
  return (Record.ofBytes bytes, reader)

/-- Reads a number of records that follow each other, behind those already read. -/
def Reader.recordsAfter (before : Array α) : Nat → Reader → CodecResult (Array α × Reader)
  | 0, reader => .ok (before, reader)
  | count + 1, reader => do
      let (value, reader) ← reader.record
      reader.recordsAfter (before.push value) count

/-- Reads a number of records that follow each other. -/
def Reader.records (count : Nat) (reader : Reader) : CodecResult (List α × Reader) := do
  let (values, reader) ← reader.recordsAfter #[] count
  return (values.toList, reader)

/-- Writes a record. -/
def Writer.record (value : α) (writer : Writer) : CodecResult Writer :=
  writer.put (Record.toBytes value)

/-- Writes records one after the other. -/
def Writer.records (values : List α) (writer : Writer) : CodecResult Writer :=
  values.foldlM (fun writer value ↦ writer.record value) writer

/-- The record at an offset of a buffer. -/
def Record.read (buffer : Bytes) (offset : Nat) : CodecResult α := do
  let (value, _) ← (Reader.startingAt buffer offset).record
  return value

/-- Places a record at an offset of a buffer. Also returns the position after the record. -/
def Record.write (value : α) (buffer : Bytes) (offset : Nat) : CodecResult (Nat × Bytes) :=
  buffer.overwrite offset (Record.toBytes value)

end I3cHost
