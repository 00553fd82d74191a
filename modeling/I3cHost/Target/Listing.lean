import I3cHost.Coded
import I3cHost.Codec.EntryList
import I3cHost.ProvisionedId
import I3cHost.Target.Config

/-!
# The listing of targets

The device lists the targets it manages as a counted list of sixteen-byte rows. A listing with a
row of undefined type is refused as a whole.
-/

namespace I3cHost

/-- The protocol a target speaks. -/
inductive TargetType where
  | i3c
  | i2c
  deriving DecidableEq, Inhabited

instance : Coded TargetType where
  subject := "target type"
  values := [.i3c, .i2c]
  code
    | .i3c => 0
    | .i2c => 1
  label
    | .i3c => "I3c"
    | .i2c => "I2c"
  mem_values value := by cases value <;> decide
  code_injective left right := by cases left <;> cases right <;> decide

/-- What the device reports about one target. -/
structure TargetRow where
  address : UInt8 := 0
  config : TargetConfigBits := {}
  type : UInt8 := 0
  reserved : UInt8 := 0
  pid : ProvisionedId := {}
  dcr : UInt8 := 0
  bcr : UInt8 := 0
  maxIbiPayload : UInt32 := 0
  deriving DecidableEq, Inhabited

instance : Record TargetRow where
  size := 16
  toBytes record :=
    [record.address, record.config.raw, record.type, record.reserved] ++ record.pid.toBytes
      ++ [record.dcr, record.bcr] ++ .ofWord32 record.maxIbiPayload
  ofBytes bytes :=
    { address := bytes.byte 0
      config := ⟨bytes.byte 1⟩
      type := bytes.byte 2
      reserved := bytes.byte 3
      pid := .ofBytes bytes 4
      dcr := bytes.byte 10
      bcr := bytes.byte 11
      maxIbiPayload := bytes.word32 12 }
  length_toBytes _ := rfl
  ofBytes_toBytes record := by
    simp [Bytes.ofWord16, Bytes.word16, Bytes.ofWord32, Bytes.word32, ProvisionedId.toBytes,
      ProvisionedId.ofBytes]
  toBytes_ofBytes
    | [_, _, _, _, _, _, _, _, _, _, _, _, _, _, _, _], _ => by
      simp [Bytes.word16, Bytes.word32, ProvisionedId.toBytes, ProvisionedId.ofBytes]

/-- The listing of all targets. -/
structure TargetListing where
  rows : List TargetRow := []
  deriving DecidableEq

namespace TargetListing

/-- Reads a listing whose rows all have a defined type. -/
def decode (buffer : Bytes) : CodecResult TargetListing := do
  let rows ← EntryList.decode buffer
  rows.forM fun row ↦ do
    let _ ← Coded.ofByte (α := TargetType) row.type
  return ⟨rows⟩

instance : Message TargetListing where
  encodedSize listing := EntryList.size TargetRow listing.rows.length
  encode listing writer := EntryList.encode listing.rows writer
  decode := decode

end TargetListing

end I3cHost
