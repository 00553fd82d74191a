import I3cHost.Bytes
import I3cHost.Text

/-!
# Provisioned identifiers

A target that takes part in dynamic address assignment is known by a 48-bit identifier. Records
hold its low 32 bits followed by its high 16 bits. Zero stands for no identifier.
-/

namespace I3cHost

/-- A 48-bit identifier in the two parts in which records hold it. -/
structure ProvisionedId where
  high : UInt16 := 0
  low : UInt32 := 0
  deriving DecidableEq, Inhabited

namespace ProvisionedId

/-- The identifier as a number. -/
def toNat (identifier : ProvisionedId) : Nat :=
  identifier.high.toNat * 0x100000000 + identifier.low.toNat

/-- The low 48 bits of a number. -/
def ofNat (number : Nat) : ProvisionedId where
  high := UInt16.ofNat (number / 0x100000000)
  low := UInt32.ofNat number

/-- Whether there is no identifier. -/
def isZero (identifier : ProvisionedId) : Bool :=
  identifier.high == 0 && identifier.low == 0

/-- The low part followed by the high part. -/
def toBytes (identifier : ProvisionedId) : Bytes :=
  .ofWord32 identifier.low ++ .ofWord16 identifier.high

/-- The identifier that starts at a position of a buffer. -/
def ofBytes (bytes : Bytes) (position : Nat) : ProvisionedId where
  high := bytes.word16 (position + 4)
  low := bytes.word32 position

/-- An identifier is the number it was made from, up to 48 bits. -/
theorem toNat_ofNat (number : Nat) : (ofNat number).toNat = number % 0x1000000000000 := by
  simp only [toNat, ofNat, UInt16.toNat_ofNat', UInt32.toNat_ofNat']
  omega

/-- The number of an identifier determines it. -/
@[simp] theorem ofNat_toNat (identifier : ProvisionedId) : ofNat identifier.toNat = identifier := by
  have high := identifier.high.toNat_lt
  have low := identifier.low.toNat_lt
  cases identifier
  simp only [toNat, ofNat, mk.injEq] at *
  constructor
  · apply UInt16.toNat_inj.1
    simp only [UInt16.toNat_ofNat']
    omega
  · apply UInt32.toNat_inj.1
    simp only [UInt32.toNat_ofNat']
    omega

end ProvisionedId

end I3cHost
