import I3cHost.Codec.Error

/-!
# Status of an answered command

The device reports the outcome of each command as a byte. Codes it does not define are kept. One
code never comes from a device: it is reserved for commands whose transfer failed on the way, and
`CommandStatus.ofByte` refuses it.
-/

namespace I3cHost

/-- The outcome of one command. -/
inductive CommandStatus where
  | success
  | crc
  | parity
  | frame
  | addressHeader
  | nack
  | shortRead
  | overflow
  | aborted
  /-- A code without a defined meaning, kept as it was sent. -/
  | unknown (code : UInt8)
  /-- The transfer that carried the command or its answer did not complete. -/
  | transportFailure
  deriving DecidableEq, Inhabited

namespace CommandStatus

/-- The byte a status is written as. -/
def byte : CommandStatus → UInt8
  | .success => 0
  | .crc => 1
  | .parity => 2
  | .frame => 3
  | .addressHeader => 4
  | .nack => 5
  | .shortRead => 6
  | .overflow => 7
  | .aborted => 8
  | .unknown code => code
  | .transportFailure => 0xFF

/-- The status a device reports with a byte. -/
def ofByte (byte : UInt8) : CodecResult CommandStatus :=
  match byte.toNat with
  | 0 => .ok .success
  | 1 => .ok .crc
  | 2 => .ok .parity
  | 3 => .ok .frame
  | 4 => .ok .addressHeader
  | 5 => .ok .nack
  | 6 => .ok .shortRead
  | 7 => .ok .overflow
  | 8 => .ok .aborted
  | 0xFF => .error (.invalidField "error status" 0xFF)
  | _ => .ok (.unknown byte)

/-- The name of a status, with the code of one that has no meaning. -/
def label : CommandStatus → String
  | .success => "Success"
  | .crc => "Crc"
  | .parity => "Parity"
  | .frame => "Frame"
  | .addressHeader => "AddressHeader"
  | .nack => "Nack"
  | .shortRead => "ShortRead"
  | .overflow => "Overflow"
  | .aborted => "Aborted"
  | .unknown code => Text.applied "Unknown" (toString code.toNat)
  | .transportFailure => "TransportFailure"

end CommandStatus

end I3cHost
