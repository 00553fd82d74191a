import I3cHost.Codec.Record

/-!
# Messages

A message is anything that is carried in a buffer of its own. Its size is known before it is
written, so it can be written to a destination that is just large enough.
-/

namespace I3cHost

/-- A type whose values are carried in a buffer. -/
class Message (α : Type) where
  /-- The number of bytes that writing the message takes. -/
  encodedSize : α → Nat
  /-- Writes the message. -/
  encode : α → Writer → CodecResult Writer
  /-- Reads a message from a buffer. -/
  decode : Bytes → CodecResult α

namespace Message

variable {α : Type} [Message α]

/-- Writes the message to the front of a destination and leaves the bytes after it as they were.
Also returns the number of bytes written. -/
def encodeInto (message : α) (destination : Bytes) : CodecResult (Nat × Bytes) := do
  let writer ← encode message (Writer.ofCapacity destination.length)
  let count := writer.written.size
  return (count, writer.written.toList ++ destination.drop count)

/-- The bytes of a message. -/
def toBytes (message : α) : CodecResult Bytes := do
  let writer ← encode message (Writer.ofCapacity (encodedSize message))
  return writer.written.toList

end Message

/-- A record alone in a buffer is a message; bytes after it are ignored. -/
instance {α : Type} [Record α] : Message α where
  encodedSize _ := Record.size α
  encode value writer := writer.record value
  decode buffer := Record.read buffer 0

end I3cHost
