import I3cHost.Command.Queue
import I3cHost.Proofs.Bulk.Request
import I3cHost.Proofs.Codec.Reading

/-!
# Commands and the blocks that carry them

The block of a command that nothing is wrong with can be written, and everything the device has to
know about the command is found in it.
-/

namespace I3cHost

namespace CommandAttributes

/-- The error handling of a descriptor does not touch its direction. -/
@[simp] theorem read_setErrorHandling (read : Bool) (errorHandling : ErrorHandling) :
    ((setRead {} read).setErrorHandling (Coded.byte errorHandling)).read = read := by
  cases read <;> cases errorHandling <;> decide

/-- The error handling is read back as it was set, in either direction. -/
@[simp] theorem errorHandling_setErrorHandling (read : Bool) (errorHandling : ErrorHandling) :
    ((setRead {} read).setErrorHandling (Coded.byte errorHandling)).errorHandling =
      Coded.byte errorHandling := by
  cases read <;> cases errorHandling <;> decide

end CommandAttributes

namespace CommandTransfer

/-- The number of bytes that a transfer sends or asks for. -/
def byteCount : CommandTransfer → Nat
  | .write data => data.length
  | .read length => length.toNat

end CommandTransfer

/-- A block carries a command: reading its fields gives back what the command is, whom it is sent
to, how, and with what data. -/
structure CommandBlock.Carries {κ : Type} (block : CommandBlock) (command : Command κ) : Prop where
  kind : Coded.ofByte block.descriptor.type = .ok command.kind.type
  direction : block.descriptor.isRead = command.transfer.isRead
  errorHandling :
    Coded.ofByte block.descriptor.attributes.errorHandling = .ok command.errorHandling
  target : block.descriptor.target = command.target
  mode : Coded.ofByte block.descriptor.mode = .ok command.settings.mode
  rate : Coded.ofByte block.descriptor.rate = .ok command.settings.rate
  modeInfo : block.descriptor.modeInfo = command.settings.modeInfo
  ccc : block.descriptor.ccc = command.kind.codeByte
  definingByte : block.descriptor.definingByte = command.kind.definingByte
  length : block.descriptor.dataLength.toNat = command.transfer.byteCount
  data : block.data = command.transfer.payload

namespace Command

variable {κ : Type} {command : Command κ} {id : UInt16} {dependent : Bool}

/-- The descriptor of a block asks for data exactly if the command does. -/
@[simp] theorem isRead_block :
    (command.block id dependent).descriptor.isRead = command.transfer.isRead :=
  CommandAttributes.read_setErrorHandling _ _

/-- The payload of a command that nothing is wrong with has a length that a descriptor can
declare. -/
theorem length_lt_of_fault? {data : Bytes} (h : command.fault? = none)
    (hwrite : command.transfer = .write data) : data.length < payloadLimit := by
  unfold fault? transferFault? at h
  simp only [hwrite] at h
  split at h
  · cases h
  · split at h
    · cases h
    · split at h
      · cases h
      · omega

/-- The descriptor of a block declares as many bytes as the command transfers. -/
theorem dataLength_block (h : command.fault? = none) :
    (command.block id dependent).descriptor.dataLength.toNat = command.transfer.byteCount := by
  show command.transfer.length.toNat = _
  cases htransfer : command.transfer with
  | write data =>
      have hlength := length_lt_of_fault? h htransfer
      simp only [CommandTransfer.length, CommandTransfer.byteCount, UInt32.toNat_ofNat']
      exact Nat.mod_eq_of_lt hlength
  | read length => rfl

/-- The block of a command that nothing is wrong with is coherent. -/
theorem coherent_block (h : command.fault? = none) : (command.block id dependent).Coherent := by
  constructor
  case declared =>
    rw [isRead_block, dataLength_block h]
    intro hread
    cases htransfer : command.transfer with
    | write data => simp [block, htransfer, CommandTransfer.byteCount, CommandTransfer.payload]
    | read length => simp [htransfer, CommandTransfer.isRead] at hread
  case bare =>
    rw [isRead_block]
    intro hread
    cases htransfer : command.transfer with
    | write data => simp [htransfer, CommandTransfer.isRead] at hread
    | read length => simp [block, htransfer, CommandTransfer.payload]

/-- The block of a command that nothing is wrong with carries the command. -/
theorem carries_block (h : command.fault? = none) :
    (command.block id dependent).Carries command where
  kind := Coded.ofByte_byte (by cases command.kind.type <;> decide)
  direction := isRead_block
  errorHandling := by
    show Coded.ofByte (CommandAttributes.errorHandling _) = _
    rw [block, descriptor, CommandDescriptor.ofCommand,
      CommandAttributes.errorHandling_setErrorHandling]
    exact Coded.ofByte_byte (by cases command.errorHandling <;> decide)
  target := rfl
  mode := Coded.ofByte_byte (by cases command.settings.mode <;> decide)
  rate := Coded.ofByte_byte (by cases command.settings.rate <;> decide)
  modeInfo := rfl
  ccc := rfl
  definingByte := rfl
  length := dataLength_block h
  data := rfl

end Command

end I3cHost
