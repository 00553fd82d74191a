/-!
# Bytes and little-endian words

Every buffer exchanged with the device is a list of bytes. Fields wider than a byte are written
least significant byte first, and payloads are filled up with zeros to a whole number of
four-byte words. The laws `joinWord16_lane` and `joinWord32_lane` say that a word is determined
by its bytes, and `ofWord16_joinWord16`, `ofWord32_joinWord32` that joining bytes loses nothing.
-/

namespace I3cHost

/-- The content of a buffer, first byte first. -/
abbrev Bytes := List UInt8

namespace Bytes

/-- The byte at a position; positions past the end read as zero. -/
def byte (bytes : Bytes) (position : Nat) : UInt8 :=
  bytes.getD position 0

/-- The byte of a number at a position, where the byte at position zero is worth least. -/
def lane (number : Nat) : Nat → UInt8
  | 0 => UInt8.ofNat number
  | position + 1 => lane (number / 256) position

/-- The 16-bit word with the given bytes. -/
def joinWord16 (low high : UInt8) : UInt16 :=
  UInt16.ofNat (low.toNat + 256 * high.toNat)

/-- The 32-bit word with the given bytes. -/
def joinWord32 (first second third fourth : UInt8) : UInt32 :=
  UInt32.ofNat (first.toNat + 256 * second.toNat + 65536 * third.toNat + 16777216 * fourth.toNat)

/-- The two bytes of a 16-bit word. -/
def ofWord16 (word : UInt16) : Bytes :=
  [lane word.toNat 0, lane word.toNat 1]

/-- The four bytes of a 32-bit word. -/
def ofWord32 (word : UInt32) : Bytes :=
  [lane word.toNat 0, lane word.toNat 1, lane word.toNat 2, lane word.toNat 3]

/-- The 16-bit word that starts at a position. -/
def word16 (bytes : Bytes) (position : Nat) : UInt16 :=
  joinWord16 (bytes.byte position) (bytes.byte (position + 1))

/-- The 32-bit word that starts at a position. -/
def word32 (bytes : Bytes) (position : Nat) : UInt32 :=
  joinWord32 (bytes.byte position) (bytes.byte (position + 1)) (bytes.byte (position + 2))
    (bytes.byte (position + 3))

/-- A run of zero bytes. -/
def zeros (count : Nat) : Bytes :=
  List.replicate count 0

/-- A length rounded up to a whole number of four-byte words. -/
def paddedLength (length : Nat) : Nat :=
  (length + 3) / 4 * 4

/-- A payload filled up with zeros to a whole number of four-byte words. -/
def padded (payload : Bytes) : Bytes :=
  payload ++ zeros (paddedLength payload.length - payload.length)

/-- As many zeros as were asked for. -/
@[simp] theorem length_zeros (count : Nat) : (zeros count).length = count := by
  simp [zeros]

/-- Padding never shortens a payload. -/
theorem le_paddedLength (length : Nat) : length ≤ paddedLength length := by
  unfold paddedLength
  omega

/-- A padded payload has the padded length. -/
@[simp] theorem length_padded (payload : Bytes) :
    (padded payload).length = paddedLength payload.length := by
  have := le_paddedLength payload.length
  simp only [padded, List.length_append, length_zeros]
  omega

/-- The first byte of a buffer is at position 0. -/
@[simp] theorem byte_cons_zero (first : UInt8) (rest : Bytes) : byte (first :: rest) 0 = first :=
  rfl

/-- The bytes behind the first one are those of the rest, one position later. -/
@[simp] theorem byte_cons_succ (first : UInt8) (rest : Bytes) (position : Nat) :
    byte (first :: rest) (position + 1) = byte rest position :=
  rfl

/-- The two bytes of a 16-bit word determine it. -/
@[simp] theorem joinWord16_lane (word : UInt16) :
    joinWord16 (lane word.toNat 0) (lane word.toNat 1) = word := by
  have := word.toNat_lt
  apply UInt16.toNat_inj.1
  simp only [joinWord16, lane, UInt16.toNat_ofNat', UInt8.toNat_ofNat']
  omega

/-- The four bytes of a 32-bit word determine it. -/
@[simp] theorem joinWord32_lane (word : UInt32) :
    joinWord32 (lane word.toNat 0) (lane word.toNat 1) (lane word.toNat 2) (lane word.toNat 3)
      = word := by
  have := word.toNat_lt
  apply UInt32.toNat_inj.1
  simp only [joinWord32, lane, UInt32.toNat_ofNat', UInt8.toNat_ofNat']
  omega

/-- A 16-bit word joined from two bytes is written as these two bytes. -/
@[simp] theorem ofWord16_joinWord16 (low high : UInt8) :
    ofWord16 (joinWord16 low high) = [low, high] := by
  have := low.toNat_lt
  have := high.toNat_lt
  simp only [ofWord16, joinWord16, lane, List.cons.injEq, and_true]
  constructor <;> apply UInt8.toNat_inj.1 <;>
    simp only [UInt16.toNat_ofNat', UInt8.toNat_ofNat'] <;> omega

/-- A 32-bit word joined from four bytes is written as these four bytes. -/
@[simp] theorem ofWord32_joinWord32 (first second third fourth : UInt8) :
    ofWord32 (joinWord32 first second third fourth) = [first, second, third, fourth] := by
  have := first.toNat_lt
  have := second.toNat_lt
  have := third.toNat_lt
  have := fourth.toNat_lt
  simp only [ofWord32, joinWord32, lane, List.cons.injEq, and_true]
  refine ⟨?_, ?_, ?_, ?_⟩ <;> apply UInt8.toNat_inj.1 <;>
    simp only [UInt32.toNat_ofNat', UInt8.toNat_ofNat'] <;> omega

/-- A word of 16 bits takes two bytes. -/
@[simp] theorem length_ofWord16 (word : UInt16) : (ofWord16 word).length = 2 :=
  rfl

/-- A word of 32 bits takes four bytes. -/
@[simp] theorem length_ofWord32 (word : UInt32) : (ofWord32 word).length = 4 :=
  rfl

end Bytes

end I3cHost
