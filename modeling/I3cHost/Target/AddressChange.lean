import I3cHost.Codec.EntryList
import I3cHost.Coded
import I3cHost.ProvisionedId

/-!
# Changes of target addresses

The host asks for new addresses with a counted list of twelve-byte entries, and the device answers
with a counted list of four-byte entries. An answer with an undefined status is refused as a whole.
-/

namespace I3cHost

/-- Whether an address was changed. -/
inductive AddressChangeStatus where
  | success
  | failure
  deriving DecidableEq, Inhabited

instance : Coded AddressChangeStatus where
  subject := "address change status"
  values := [.success, .failure]
  code
    | .success => 0
    | .failure => 1
  label
    | .success => "Success"
    | .failure => "Failure"
  mem_values value := by cases value <;> decide
  code_injective left right := by cases left <;> cases right <;> decide

/-- The wish to move the target at an address to another. -/
structure AddressChangeEntry where
  current : UInt8 := 0
  new : UInt8 := 0
  reservedFront : UInt8 × UInt8 := (0, 0)
  pid : ProvisionedId := {}
  reservedBack : UInt8 × UInt8 := (0, 0)
  deriving DecidableEq

instance : Record AddressChangeEntry where
  size := 12
  toBytes record :=
    [record.current, record.new, record.reservedFront.1, record.reservedFront.2]
      ++ record.pid.toBytes ++ [record.reservedBack.1, record.reservedBack.2]
  ofBytes bytes :=
    { current := bytes.byte 0
      new := bytes.byte 1
      reservedFront := (bytes.byte 2, bytes.byte 3)
      pid := .ofBytes bytes 4
      reservedBack := (bytes.byte 10, bytes.byte 11) }
  length_toBytes _ := rfl
  ofBytes_toBytes record := by
    simp [Bytes.ofWord16, Bytes.word16, Bytes.ofWord32, Bytes.word32, ProvisionedId.toBytes,
      ProvisionedId.ofBytes]
  toBytes_ofBytes
    | [_, _, _, _, _, _, _, _, _, _, _, _], _ => by
      simp [Bytes.word16, Bytes.word32, ProvisionedId.toBytes, ProvisionedId.ofBytes]

/-- A list of wished address changes. -/
structure AddressChangeRequest where
  entries : List AddressChangeEntry := []
  deriving DecidableEq

instance : Message AddressChangeRequest where
  encodedSize request := EntryList.size AddressChangeEntry request.entries.length
  encode request writer := EntryList.encode request.entries writer
  decode buffer := do return ⟨← EntryList.decode buffer⟩

/-- What became of one wished address change. -/
structure AddressChangeOutcome where
  old : UInt8 := 0
  new : UInt8 := 0
  status : UInt8 := 0
  reserved : UInt8 := 0
  deriving DecidableEq

instance : Record AddressChangeOutcome where
  size := 4
  toBytes record := [record.old, record.new, record.status, record.reserved]
  ofBytes bytes := ⟨bytes.byte 0, bytes.byte 1, bytes.byte 2, bytes.byte 3⟩
  length_toBytes _ := rfl
  ofBytes_toBytes _ := rfl
  toBytes_ofBytes
    | [_, _, _, _], _ => rfl

/-- Whether the address was changed. -/
def AddressChangeOutcome.succeeded (outcome : AddressChangeOutcome) : Bool :=
  outcome.status == Coded.byte AddressChangeStatus.success

/-- The answer to a list of wished address changes. -/
structure AddressChangeReport where
  outcomes : List AddressChangeOutcome := []
  deriving DecidableEq

namespace AddressChangeReport

/-- Reads an answer whose entries all have a defined status. -/
def decode (buffer : Bytes) : CodecResult AddressChangeReport := do
  let outcomes ← EntryList.decode buffer
  outcomes.forM fun outcome ↦ do
    let _ ← Coded.ofByte (α := AddressChangeStatus) outcome.status
  return ⟨outcomes⟩

instance : Message AddressChangeReport where
  encodedSize report := EntryList.size AddressChangeOutcome report.outcomes.length
  encode report writer := EntryList.encode report.outcomes writer
  decode := decode

end AddressChangeReport

end I3cHost
