/-!
# Fields of a byte

Flags and small numbers share a byte. Setting one of them leaves every other bit as it was.
-/

namespace I3cHost.BitField

/-- The flag at a bit position. -/
def flag (byte : UInt8) (position : UInt8) : Bool :=
  (byte >>> position) &&& 1 != 0

/-- The byte with the flag at a bit position set or cleared. -/
def setFlag (byte : UInt8) (position : UInt8) (value : Bool) : UInt8 :=
  if value then byte ||| (1 <<< position) else byte &&& ~~~(1 <<< position)

/-- The two-bit number whose low bit is at a position. -/
def pair (byte : UInt8) (position : UInt8) : UInt8 :=
  (byte >>> position) &&& 3

/-- The byte with the two-bit number at a position replaced by the low two bits of a value. -/
def setPair (byte : UInt8) (position : UInt8) (value : UInt8) : UInt8 :=
  (byte &&& ~~~(3 <<< position)) ||| ((value &&& 3) <<< position)

end I3cHost.BitField
