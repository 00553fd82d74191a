/-!
# Failures of the transport

A transfer ends in one of a few well-known ways, or with a code of the USB stack below that is
passed through unchanged.
-/

namespace I3cHost

/-- Why a transfer did not complete. -/
inductive TransportError where
  | timeout
  | stall
  | disconnected
  | cancelled
  /-- A code of the USB stack. -/
  | native (code : Int32)
  deriving DecidableEq, Inhabited

/-- The sentence shown for a transport error. -/
def TransportError.message : TransportError → String
  | .timeout => "transfer timed out"
  | .stall => "endpoint stalled"
  | .disconnected => "device disconnected"
  | .cancelled => "transfer cancelled"
  | .native code => "native transport error " ++ toString code.toInt

end I3cHost
