import I3cHost.ClassRequest
import I3cHost.Notification
import I3cHost.Transport.Error

/-!
# Errors of the host

Every operation of the host fails in one of five ways: the caller passed something that no device
could accept, the transport failed, the device sent something malformed, the operation is not
allowed in the current state, or the device has no room for a request.
-/

namespace I3cHost

/-- What is wrong with the arguments of an operation. Found before anything is sent. -/
inductive ValidationError where
  | addressOutOfRange (address : UInt8)
  | addressInUse (address : UInt8)
  | unknownTarget (address : UInt8)
  | unidentifiableDevice
  | missingWriteData
  | unalignedReadLength (length : UInt32)
  | zeroReadLength
  | payloadTooLarge (length : Nat)
  | misplacedResetPattern
  | emptyQueue
  | missingCallback (index : Nat)
  | featureCannotBeCleared (feature : Feature)
  deriving DecidableEq, Inhabited

/-- What is wrong with the answer of the device. -/
inductive ProtocolError where
  | codec (error : CodecError)
  | shortTransfer (expected actual : Nat)
  deriving DecidableEq, Inhabited

/-- Why an operation is not allowed in the current state. -/
inductive StateError where
  | capabilitiesUnknown
  | notActiveController
  | featureNotSupported (feature : Feature)
  | busInitializationFailed (code : BusInitCode)
  | responsesNotReceived
  | unexpectedInitEvent (event : String)
  deriving DecidableEq, Inhabited

/-- Why an operation of the host failed. -/
inductive HostError where
  | validation (error : ValidationError)
  | transport (error : TransportError)
  | protocol (error : ProtocolError)
  | state (error : StateError)
  | bufferUnavailable (required available : Nat)
  deriving DecidableEq, Inhabited

/-- The sentence shown for an invalid argument. -/
def ValidationError.message : ValidationError → String
  | .addressOutOfRange address =>
      "target address " ++ Text.hexByte address ++ " is outside the 7-bit range"
  | .addressInUse address =>
      "address " ++ Text.hexByte address ++ " is already taken by another target"
  | .unknownTarget address => "no target device at address " ++ Text.hexByte address
  | .unidentifiableDevice => "I3C target has neither a static address nor a provisioned ID"
  | .missingWriteData => "regular write carries no data"
  | .unalignedReadLength length => s!"read length {length.toNat} is not a multiple of 4"
  | .zeroReadLength => "regular read must request at least one dword"
  | .payloadTooLarge length => s!"payload of {length} bytes does not fit a command descriptor"
  | .misplacedResetPattern =>
      "target reset pattern may only follow a reset pattern or a non-terminating RSTACT"
  | .emptyQueue => "command queue is empty"
  | .missingCallback index => s!"queued command {index} has no response callback"
  | .featureCannotBeCleared feature => "feature " ++ Coded.label feature ++ " can only be set"

/-- The sentence shown for a malformed answer. -/
def ProtocolError.message : ProtocolError → String
  | .codec error => error.message
  | .shortTransfer expected actual => s!"device accepted {actual} of {expected} bytes"

/-- The sentence shown for an operation that is not allowed. -/
def StateError.message : StateError → String
  | .capabilitiesUnknown => "device capabilities are not known yet"
  | .notActiveController => "device is not the active I3C controller"
  | .featureNotSupported feature => "device does not support " ++ Coded.label feature
  | .busInitializationFailed code => "bus initialization failed: " ++ Coded.label code
  | .responsesNotReceived =>
      "bulk responses are not being received; initialize the device first"
  | .unexpectedInitEvent event =>
      "initialization event " ++ event ++ " is not valid in the current state"

/-- The sentence shown for a failed operation. -/
def HostError.message : HostError → String
  | .validation error => "validation error: " ++ error.message
  | .transport error => "transport error: " ++ error.message
  | .protocol error => "protocol error: " ++ error.message
  | .state error => "state error: " ++ error.message
  | .bufferUnavailable required available =>
      s!"device buffer too small: {required} bytes required, {available} available"

/-- A malformed buffer makes the operation that needed it fail. -/
def HostError.ofCodec (error : CodecError) : HostError :=
  .protocol (.codec error)

instance : Coe ValidationError HostError := ⟨.validation⟩

instance : Coe TransportError HostError := ⟨.transport⟩

instance : Coe StateError HostError := ⟨.state⟩

/-- A result of an operation of the host. -/
abbrev HostResult := Except HostError

/-- A read or write of a buffer as part of an operation of the host. -/
def HostResult.ofCodec {α : Type} (result : CodecResult α) : HostResult α :=
  result.mapError .ofCodec

/-- A value that was read or written is the result. -/
@[simp] theorem HostResult.ofCodec_ok {α : Type} (value : α) :
    HostResult.ofCodec (.ok value) = .ok value :=
  rfl

/-- An error of the codec is reported as an error of the host. -/
@[simp] theorem HostResult.ofCodec_error {α : Type} (error : CodecError) :
    HostResult.ofCodec (.error error : CodecResult α) = .error (.ofCodec error) :=
  rfl

/-- Reporting a result as one of the host neither adds nor hides an error. -/
theorem HostResult.ofCodec_eq_ok_iff {α : Type} {result : CodecResult α} {value : α} :
    HostResult.ofCodec result = .ok value ↔ result = .ok value := by
  cases result <;> simp

end I3cHost
