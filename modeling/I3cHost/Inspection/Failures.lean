import I3cHost.Error
import I3cHost.Inspection.Tree

/-!
# Failures laid out for inspection

The kind of a failure is its name behind the name of the group it belongs to.
-/

namespace I3cHost

/-- The name of a malformed buffer's fault. -/
def CodecError.kind : CodecError → String
  | .bufferTooShort .. => "BufferTooShort"
  | .lengthMismatch .. => "LengthMismatch"
  | .invalidField .. => "InvalidField"

/-- The name of a failed transfer's fault. -/
def TransportError.kind : TransportError → String
  | .timeout => "Timeout"
  | .stall => "Stall"
  | .disconnected => "Disconnected"
  | .cancelled => "Cancelled"
  | .native _ => "Native"

/-- The name of what is wrong with arguments. -/
def ValidationError.kind : ValidationError → String
  | .addressOutOfRange _ => "AddressOutOfRange"
  | .addressInUse _ => "AddressInUse"
  | .unknownTarget _ => "UnknownTarget"
  | .unidentifiableDevice => "UnidentifiableDevice"
  | .missingWriteData => "MissingWriteData"
  | .unalignedReadLength _ => "UnalignedReadLength"
  | .zeroReadLength => "ZeroReadLength"
  | .payloadTooLarge _ => "PayloadTooLarge"
  | .misplacedResetPattern => "MisplacedResetPattern"
  | .emptyQueue => "EmptyQueue"
  | .missingCallback _ => "MissingCallback"
  | .featureCannotBeCleared _ => "FeatureCannotBeCleared"

/-- The name of what is wrong with an answer of the device. -/
def ProtocolError.kind : ProtocolError → String
  | .codec error => "Codec." ++ error.kind
  | .shortTransfer .. => "ShortTransfer"

/-- The name of what the current state rules out. -/
def StateError.kind : StateError → String
  | .capabilitiesUnknown => "CapabilitiesUnknown"
  | .notActiveController => "NotActiveController"
  | .featureNotSupported _ => "FeatureNotSupported"
  | .busInitializationFailed _ => "BusInitializationFailed"
  | .responsesNotReceived => "ResponsesNotReceived"
  | .unexpectedInitEvent _ => "UnexpectedInitEvent"

/-- The name of a failure of the host. -/
def HostError.kind : HostError → String
  | .validation error => "Validation." ++ error.kind
  | .transport error => "Transport." ++ error.kind
  | .protocol error => "Protocol." ++ error.kind
  | .state error => "State." ++ error.kind
  | .bufferUnavailable .. => "BufferUnavailable"

instance : Inspect CodecError := ⟨fun error ↦ .failure error.kind error.message⟩

instance : Inspect HostError := ⟨fun error ↦ .failure error.kind error.message⟩

end I3cHost
