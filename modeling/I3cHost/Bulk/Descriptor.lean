import I3cHost.BitField
import I3cHost.Codec.Message
import I3cHost.Transfer

/-!
# Records of bulk transfers

A bulk transfer starts with a tag. Regular transfers then carry blocks: on the way to the device
a block header and a command descriptor, on the way back a response descriptor.
-/

namespace I3cHost

/-- What a transfer to the device carries. -/
inductive BulkRequestTag where
  | regularCommand
  | vendorSpecific
  deriving DecidableEq, Inhabited

instance : Coded BulkRequestTag where
  subject := "bulk request tag"
  values := [.regularCommand, .vendorSpecific]
  code
    | .regularCommand => 0
    | .vendorSpecific => 2
  label
    | .regularCommand => "RegularCommand"
    | .vendorSpecific => "VendorSpecific"
  mem_values value := by cases value <;> decide
  code_injective left right := by cases left <;> cases right <;> decide

/-- What a transfer from the device carries. -/
inductive BulkResponseTag where
  | regularCommand
  | ibi
  | vendorSpecific
  deriving DecidableEq, Inhabited

instance : Coded BulkResponseTag where
  subject := "bulk response tag"
  values := [.regularCommand, .ibi, .vendorSpecific]
  code
    | .regularCommand => 0
    | .ibi => 1
    | .vendorSpecific => 2
  label
    | .regularCommand => "RegularCommand"
    | .ibi => "Ibi"
    | .vendorSpecific => "VendorSpecific"
  mem_values value := by cases value <;> decide
  code_injective left right := by cases left <;> cases right <;> decide

/-- The header of every bulk transfer. -/
structure BulkHeader where
  tag : UInt8
  reserved : UInt8 × UInt8 × UInt8 := (0, 0, 0)
  deriving DecidableEq

instance : Record BulkHeader where
  size := 4
  toBytes record := [record.tag, record.reserved.1, record.reserved.2.1, record.reserved.2.2]
  ofBytes bytes := ⟨bytes.byte 0, bytes.byte 1, bytes.byte 2, bytes.byte 3⟩
  length_toBytes _ := rfl
  ofBytes_toBytes _ := rfl
  toBytes_ofBytes
    | [_, _, _, _], _ => rfl

/-- The header of a transfer to the device. -/
def BulkRequestTag.header (tag : BulkRequestTag) : BulkHeader where
  tag := Coded.byte tag

/-- The header of a transfer from the device. -/
def BulkResponseTag.header (tag : BulkResponseTag) : BulkHeader where
  tag := Coded.byte tag

/-- The flag byte of a block header. -/
structure CommandBlockFlags where
  raw : UInt8 := 0
  deriving DecidableEq

namespace CommandBlockFlags

/-- Whether the command waits for the one before it. -/
def dependent (flags : CommandBlockFlags) : Bool :=
  BitField.flag flags.raw 0

/-- Sets or clears the dependence on the command before. -/
def setDependent (flags : CommandBlockFlags) (value : Bool) : CommandBlockFlags :=
  ⟨BitField.setFlag flags.raw 0 value⟩

/-- The byte and the flag it holds. -/
def describe (flags : CommandBlockFlags) : String :=
  Text.labelled "CommandBlockFlags" [(".0", toString flags.raw.toNat),
    ("dependent_on_previous", Text.truth flags.dependent)]

end CommandBlockFlags

/-- The header of one command in a request. -/
structure CommandBlockHeader where
  id : UInt16
  flags : CommandBlockFlags
  reserved : UInt8 := 0
  deriving DecidableEq

instance : Record CommandBlockHeader where
  size := 4
  toBytes record := .ofWord16 record.id ++ [record.flags.raw, record.reserved]
  ofBytes bytes := ⟨bytes.word16 0, ⟨bytes.byte 2⟩, bytes.byte 3⟩
  length_toBytes _ := rfl
  ofBytes_toBytes record := by simp [Bytes.ofWord16, Bytes.word16]
  toBytes_ofBytes
    | [_, _, _, _], _ => by simp [Bytes.word16]

/-- The attribute byte of a command: bit 0 is the direction, bits 1 and 2 the error handling. -/
structure CommandAttributes where
  raw : UInt8 := 0
  deriving DecidableEq

namespace CommandAttributes

/-- Whether the command reads from the target. -/
def read (attributes : CommandAttributes) : Bool :=
  BitField.flag attributes.raw 0

/-- The number of the error handling. -/
def errorHandling (attributes : CommandAttributes) : UInt8 :=
  BitField.pair attributes.raw 1

/-- Sets the direction. -/
def setRead (attributes : CommandAttributes) (value : Bool) : CommandAttributes :=
  ⟨BitField.setFlag attributes.raw 0 value⟩

/-- Replaces the error handling by the low two bits of a value. -/
def setErrorHandling (attributes : CommandAttributes) (value : UInt8) : CommandAttributes :=
  ⟨BitField.setPair attributes.raw 1 value⟩

/-- The byte and the fields it holds. -/
def describe (attributes : CommandAttributes) : String :=
  Text.labelled "CommandAttributes" [(".0", toString attributes.raw.toNat),
    ("read", Text.truth attributes.read),
    ("error_handling", toString attributes.errorHandling.toNat)]

end CommandAttributes

/-- Everything the device has to know about one command, its payload apart. -/
structure CommandDescriptor where
  type : UInt8 := 0
  attributes : CommandAttributes := {}
  target : UInt8 := 0
  mode : UInt8 := 0
  rate : UInt8 := 0
  modeInfo : UInt8 := 0
  ccc : UInt8 := 0
  definingByte : UInt8 := 0
  dataLength : UInt32 := 0
  reserved : UInt32 := 0
  deriving DecidableEq

instance : Record CommandDescriptor where
  size := 16
  toBytes record :=
    [record.type, record.attributes.raw, record.target, record.mode, record.rate,
      record.modeInfo, record.ccc, record.definingByte] ++ .ofWord32 record.dataLength
      ++ .ofWord32 record.reserved
  ofBytes bytes :=
    { type := bytes.byte 0
      attributes := ⟨bytes.byte 1⟩
      target := bytes.byte 2
      mode := bytes.byte 3
      rate := bytes.byte 4
      modeInfo := bytes.byte 5
      ccc := bytes.byte 6
      definingByte := bytes.byte 7
      dataLength := bytes.word32 8
      reserved := bytes.word32 12 }
  length_toBytes _ := rfl
  ofBytes_toBytes record := by simp [Bytes.ofWord32, Bytes.word32]
  toBytes_ofBytes
    | [_, _, _, _, _, _, _, _, _, _, _, _, _, _, _, _], _ => by simp [Bytes.word32]

namespace CommandDescriptor

/-- The descriptor of a command given by its parts. -/
def ofCommand (type : CommandType) (read : Bool) (errorHandling : ErrorHandling)
    (target : UInt8) (settings : TransferSettings) (ccc definingByte : UInt8)
    (dataLength : UInt32) : CommandDescriptor where
  type := Coded.byte type
  attributes :=
    (CommandAttributes.setRead {} read).setErrorHandling (Coded.byte errorHandling)
  target
  mode := Coded.byte settings.mode
  rate := Coded.byte settings.rate
  modeInfo := settings.modeInfo
  ccc
  definingByte
  dataLength

/-- Whether the command reads from the target. -/
def isRead (descriptor : CommandDescriptor) : Bool :=
  descriptor.attributes.read

end CommandDescriptor

/-- The flag byte of a response. -/
structure ResponseFlags where
  raw : UInt8 := 0
  deriving DecidableEq

namespace ResponseFlags

/-- Whether the command was attempted. -/
def attempted (flags : ResponseFlags) : Bool :=
  BitField.flag flags.raw 0

/-- Whether the response carries data. -/
def hasData (flags : ResponseFlags) : Bool :=
  BitField.flag flags.raw 1

/-- Sets or clears whether the command was attempted. -/
def setAttempted (flags : ResponseFlags) (value : Bool) : ResponseFlags :=
  ⟨BitField.setFlag flags.raw 0 value⟩

/-- Sets or clears whether the response carries data. -/
def setHasData (flags : ResponseFlags) (value : Bool) : ResponseFlags :=
  ⟨BitField.setFlag flags.raw 1 value⟩

/-- The byte and the flags it holds. -/
def describe (flags : ResponseFlags) : String :=
  Text.labelled "ResponseFlags" [(".0", toString flags.raw.toNat),
    ("attempted", Text.truth flags.attempted), ("has_data", Text.truth flags.hasData)]

end ResponseFlags

/-- The header of the answer to one command. -/
structure ResponseDescriptor where
  id : UInt16
  flags : ResponseFlags
  status : UInt8
  dataLength : UInt32
  deriving DecidableEq

instance : Record ResponseDescriptor where
  size := 8
  toBytes record :=
    .ofWord16 record.id ++ [record.flags.raw, record.status] ++ .ofWord32 record.dataLength
  ofBytes bytes := ⟨bytes.word16 0, ⟨bytes.byte 2⟩, bytes.byte 3, bytes.word32 4⟩
  length_toBytes _ := rfl
  ofBytes_toBytes record := by simp [Bytes.ofWord16, Bytes.word16, Bytes.ofWord32, Bytes.word32]
  toBytes_ofBytes
    | [_, _, _, _, _, _, _, _], _ => by simp [Bytes.word16, Bytes.word32]

end I3cHost
