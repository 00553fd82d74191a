import I3cHost.Bytes
import I3cHost.Codec.Error

/-!
# Filling a destination from its front

A message is written piece by piece into a destination of fixed capacity. A piece that does not
fit is refused with the position it would have reached, so the error depends on the first piece
that is too much and not on the size of the whole message.
-/

namespace I3cHost

/-- A destination of fixed capacity together with what has been written to its front. -/
structure Writer where
  capacity : Nat
  written : Array UInt8

namespace Writer

/-- A destination nothing has been written to. -/
def ofCapacity (capacity : Nat) : Writer :=
  ⟨capacity, #[]⟩

/-- Writes the next piece. -/
def put (piece : Bytes) (writer : Writer) : CodecResult Writer :=
  let stop := writer.written.size + piece.length
  if stop ≤ writer.capacity then
    .ok { writer with written := writer.written ++ piece }
  else
    .error (.bufferTooShort stop writer.capacity)

/-- A piece that fits is appended to what has been written. -/
theorem put_eq_ok {piece : Bytes} {writer : Writer}
    (h : writer.written.size + piece.length ≤ writer.capacity) :
    writer.put piece = .ok ⟨writer.capacity, writer.written ++ piece⟩ := by
  simp [put, h]

/-- A piece that does not fit is refused with the position it would have reached. -/
theorem put_eq_error {piece : Bytes} {writer : Writer}
    (h : writer.capacity < writer.written.size + piece.length) :
    writer.put piece =
      .error (.bufferTooShort (writer.written.size + piece.length) writer.capacity) := by
  simp [put, Nat.not_le.2 h]

end Writer

/-- Replaces the bytes of a buffer from an offset on by a piece of the same length, which has to
lie within the buffer. Also returns the position after the piece. -/
def Bytes.overwrite (buffer : Bytes) (offset : Nat) (piece : Bytes) : CodecResult (Nat × Bytes) :=
  let stop := offset + piece.length
  if stop ≤ buffer.length then
    .ok (stop, buffer.take offset ++ piece ++ buffer.drop stop)
  else
    .error (.bufferTooShort stop buffer.length)

end I3cHost
