import I3cHost.Bytes
import I3cHost.Codec.Error

/-!
# Reading a buffer from front to back

A reader holds the part of a buffer that has not been read. Taking more bytes than remain is
refused with the position that would have been reached and the size of the whole buffer.
-/

namespace I3cHost

/-- The unread part of a buffer, with the position it starts at and the size of the buffer. -/
structure Reader where
  rest : Bytes
  offset : Nat
  total : Nat

namespace Reader

/-- A reader at the front of a buffer. -/
def ofBytes (buffer : Bytes) : Reader :=
  ⟨buffer, 0, buffer.length⟩

/-- A reader at some offset of a buffer. -/
def startingAt (buffer : Bytes) (offset : Nat) : Reader :=
  ⟨buffer.drop offset, offset, buffer.length⟩

/-- Takes the next bytes. -/
def take (count : Nat) (reader : Reader) : CodecResult (Bytes × Reader) :=
  let (front, rest) := reader.rest.splitAt count
  if front.length = count then
    .ok (front, { reader with rest, offset := reader.offset + count })
  else
    .error (.bufferTooShort (reader.offset + count) reader.total)

/-- Takes a payload together with the padding after it, and drops the padding. -/
def payload (length : Nat) (reader : Reader) : CodecResult (Bytes × Reader) := do
  let (bytes, reader) ← reader.take (Bytes.paddedLength length)
  return (bytes.take length, reader)

/-- Reads items until the buffer ends, behind those already read and at most as many as the
limit says. -/
def itemsAfter {α : Type} (item : Reader → CodecResult (α × Reader)) (before : Array α) :
    Nat → Reader → CodecResult (Array α)
  | 0, _ => .ok before
  | limit + 1, reader =>
      if reader.rest.isEmpty then
        .ok before
      else do
        let (value, reader) ← item reader
        itemsAfter item (before.push value) limit reader

/-- Reads items until the buffer ends. Every item has to take at least one byte, so there are no
more items than bytes. -/
def items {α : Type} (item : Reader → CodecResult (α × Reader)) (reader : Reader) :
    CodecResult (List α) := do
  let values ← itemsAfter item #[] reader.rest.length reader
  return values.toList

/-- Taking no more than what remains splits the rest there. -/
theorem take_eq_ok {count : Nat} {reader : Reader} (h : count ≤ reader.rest.length) :
    reader.take count =
      .ok (reader.rest.take count,
        ⟨reader.rest.drop count, reader.offset + count, reader.total⟩) := by
  simp [take, Nat.min_eq_left h]

/-- Taking more than what remains is refused. -/
theorem take_eq_error {count : Nat} {reader : Reader} (h : reader.rest.length < count) :
    reader.take count = .error (.bufferTooShort (reader.offset + count) reader.total) := by
  have : ¬ min count reader.rest.length = count := by omega
  simp [take, this]

end Reader

end I3cHost
