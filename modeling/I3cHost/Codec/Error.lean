import I3cHost.Text

/-!
# Reasons for refusing a buffer

A buffer is refused because it ends too early, because a length it declares contradicts its
content, or because a field holds a value the format does not define. Encoding fails for the same
reasons: the destination is too small, or the message contradicts itself.
-/

namespace I3cHost

/-- Why a buffer was not read or a message not written. -/
inductive CodecError where
  /-- The buffer ends before the position that had to be reached. -/
  | bufferTooShort (needed available : Nat)
  /-- A declared length disagrees with the length found. -/
  | lengthMismatch (declared actual : Nat)
  /-- A field holds a value without a meaning. -/
  | invalidField (field : String) (value : UInt32)
  deriving DecidableEq, Inhabited

/-- The sentence shown for a codec error. -/
def CodecError.message : CodecError → String
  | .bufferTooShort needed available =>
      s!"buffer too short: {needed} bytes needed, {available} available"
  | .lengthMismatch declared actual =>
      s!"length field declares {declared} bytes but the buffer holds {actual}"
  | .invalidField field value => "invalid " ++ field ++ " value " ++ Text.hex value.toNat

/-- A result of reading or writing a buffer. -/
abbrev CodecResult := Except CodecError

end I3cHost
