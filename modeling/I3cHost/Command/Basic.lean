import I3cHost.Bulk.Request
import I3cHost.Error

/-!
# Commands

A command is sent to one target, or to all of them, and either carries a payload or asks for
data. It holds the callback that will receive the answer, of whatever type callbacks are.
-/

namespace I3cHost

/-- The payload of a command, or the number of bytes it asks for. -/
inductive CommandTransfer where
  | write (data : Bytes)
  | read (length : UInt32)
  deriving DecidableEq, Inhabited

/-- What a command is. -/
inductive CommandKind where
  | regular
  | ccc (code : UInt8)
  | cccWithDefiningByte (code definingByte : UInt8)
  | targetResetPattern
  deriving DecidableEq, Inhabited

/-- A command, with the callback for its answer if it has one. -/
structure Command (κ : Type) where
  kind : CommandKind
  target : UInt8
  transfer : CommandTransfer
  errorHandling : ErrorHandling := .terminateOnAnyError
  settings : TransferSettings := {}
  callback : Option κ := none

namespace CommandTransfer

/-- Whether the command asks for data. -/
def isRead : CommandTransfer → Bool
  | .write _ => false
  | .read _ => true

/-- The payload; empty when the command asks for data. -/
def payload : CommandTransfer → Bytes
  | .write data => data
  | .read _ => []

/-- The length that the descriptor declares. -/
def length : CommandTransfer → UInt32
  | .write data => UInt32.ofNat data.length
  | .read length => length

/-- The transfer by name. -/
def describe : CommandTransfer → String
  | .write data => Text.applied "Write" (Text.bytes data)
  | .read length => Text.applied "Read" (toString length.toNat)

end CommandTransfer

namespace CommandKind

/-- The type of the command on the wire. -/
def type : CommandKind → CommandType
  | .regular => .regular
  | .ccc _ => .cccWithoutDefiningByte
  | .cccWithDefiningByte _ _ => .cccWithDefiningByte
  | .targetResetPattern => .targetResetPattern

/-- The common command code, if the command has one. -/
def code? : CommandKind → Option UInt8
  | .ccc code => some code
  | .cccWithDefiningByte code _ => some code
  | .regular => none
  | .targetResetPattern => none

/-- The common command code as written, zero without one. -/
def codeByte (kind : CommandKind) : UInt8 :=
  kind.code?.getD 0

/-- The defining byte as written, zero without one. -/
def definingByte : CommandKind → UInt8
  | .cccWithDefiningByte _ definingByte => definingByte
  | _ => 0

/-- The kind by name. -/
def describe : CommandKind → String
  | .regular => "Regular"
  | .ccc code => Text.applied "Ccc" (toString code.toNat)
  | .cccWithDefiningByte code definingByte =>
      Text.labelled "CccWithDefiningByte" [("ccc", toString code.toNat),
        ("defining_byte", toString definingByte.toNat)]
  | .targetResetPattern => "TargetResetPattern"

end CommandKind

/-- The settings by name. -/
def TransferSettings.describe (settings : TransferSettings) : String :=
  Text.labelled "I3cMode" [("transfer_mode", Coded.label settings.mode),
    ("transfer_rate", Coded.label settings.rate),
    ("tm_specific_info", toString settings.modeInfo.toNat)]

namespace Command

variable {κ : Type}

/-- The pattern that resets targets: always sent to all of them and without payload. -/
def targetReset : Command κ where
  kind := .targetResetPattern
  target := broadcastAddress
  transfer := .write []

/-- The first length that a descriptor cannot declare. -/
def payloadLimit : Nat := 0x100000000

/-- What is wrong with a transfer of a command of some kind. Reads ask for whole words, a regular
command transfers at least one byte, and a payload's length has to fit 32 bits. -/
def transferFault? (kind : CommandKind) : CommandTransfer → Option ValidationError
  | .write data =>
      if data.isEmpty ∧ kind = .regular then some .missingWriteData
      else if data.length ≥ payloadLimit then some (.payloadTooLarge data.length)
      else none
  | .read length =>
      if length.toNat % 4 ≠ 0 then some (.unalignedReadLength length)
      else if length = 0 ∧ kind = .regular then some .zeroReadLength
      else none

/-- What is wrong with a command, whatever is queued before it. -/
def fault? (command : Command κ) : Option ValidationError :=
  if command.target > maxTargetAddress then
    some (.addressOutOfRange command.target)
  else
    transferFault? command.kind command.transfer

/-- Whether a target reset pattern may directly follow: after another pattern, and after a target
reset action whose failure, even for want of an acknowledgement, does not end the request. -/
def admitsResetPattern (command : Command κ) : Bool :=
  match command.kind with
  | .targetResetPattern => true
  | kind =>
      (kind.code? == some resetActionBroadcast || kind.code? == some resetActionDirect)
        && command.errorHandling == .doNotTerminateIncludingNack

/-- The descriptor of a command. -/
def descriptor (command : Command κ) : CommandDescriptor :=
  .ofCommand command.kind.type command.transfer.isRead command.errorHandling command.target
    command.settings command.kind.codeByte command.kind.definingByte command.transfer.length

/-- The block that carries a command in a request. -/
def block (command : Command κ) (id : UInt16) (dependent : Bool) : CommandBlock where
  id
  dependent
  descriptor := command.descriptor
  data := command.transfer.payload

/-- The parts of a command by name. -/
def describe (command : Command κ) : String :=
  Text.labelled "Command" [("target_address", toString command.target.toNat),
    ("transfer", command.transfer.describe),
    ("error_handling", Coded.label command.errorHandling), ("kind", command.kind.describe),
    ("mode", command.settings.describe), ("has_callback", Text.truth command.callback.isSome)]

end Command

end I3cHost
