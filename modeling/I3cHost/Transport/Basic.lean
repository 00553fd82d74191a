import I3cHost.Bytes
import I3cHost.ClassRequest
import I3cHost.Transport.Error

/-!
# The transport

The transport moves bytes between the host and the device: requests on the control endpoint,
transfers on the bulk endpoints and notifications on the interrupt endpoint. Some calls return
when the transfer is over. Others only start something, whose completions the transport hands out
one by one when it is given the occasion. The occasions are named by `Moment`: completions come
while the event thread waits for them, but a real transport may also deliver some of them while
the host is inside a call.
-/

namespace I3cHost

/-- A result of a transfer. -/
abbrev TransportResult := Except TransportError

/-- A call on the transport. -/
inductive TransportCall where
  /-- A control request whose data is waited for. -/
  | controlIn (request : ClassRequest) (value : UInt16) (maxLength : Nat)
  /-- A control request whose data is delivered later. -/
  | submitControlIn (request : ClassRequest) (value : UInt16) (maxLength : Nat)
  /-- A control request that carries data to the device. -/
  | controlOut (request : ClassRequest) (value : UInt16) (data : Bytes)
  /-- A transfer to the bulk endpoint. -/
  | bulkOut (data : Bytes)
  /-- The start of polling for transfers from the bulk endpoint. -/
  | startBulkIn (bufferSize : Nat)
  /-- The start of polling for notifications. -/
  | startInterruptIn
  deriving DecidableEq

/-- What is to be done with the data of a control request that is delivered later. -/
inductive Continuation where
  /-- Initialization goes on with the capability report. -/
  | capabilityReport
  /-- Initialization goes on with the listing of targets. -/
  | targetListing
  /-- Targets that joined the bus are merged into the table. -/
  | hotJoinListing
  /-- Reported moves are carried out in the table. -/
  | addressChanges
  deriving DecidableEq

/-- Something that has completed. -/
inductive Completion where
  | control (continuation : Continuation) (result : TransportResult Bytes)
  | bulkIn (result : TransportResult Bytes)
  | interrupt (result : TransportResult Bytes)

/-- An occasion on which completions may be delivered. -/
inductive Moment where
  /-- The event thread waits for completions. -/
  | waiting
  /-- A request made during initialization is under way. -/
  | initRequest
  /-- Any other request that carries data is under way. -/
  | request
  /-- The device is asked for room in its buffer. -/
  | bufferQuery
  /-- A transfer to the bulk endpoint is under way. -/
  | bulkOut
  /-- Polling of an endpoint is being started. -/
  | polling
  deriving DecidableEq

/-- A transport with states of a type. -/
class Transport (τ : Type) where
  /-- The largest packet of the bulk endpoint. -/
  maxPacketSize : τ → Nat
  /-- Makes a control request and waits for its data. -/
  controlIn (request : ClassRequest) (value : UInt16) (maxLength : Nat) :
    StateM τ (TransportResult Bytes)
  /-- Makes a control request whose data is delivered later. -/
  submitControlIn (request : ClassRequest) (value : UInt16) (maxLength : Nat)
    (continuation : Continuation) : StateM τ (TransportResult Unit)
  /-- Makes a control request that carries data. -/
  controlOut (request : ClassRequest) (value : UInt16) (data : Bytes) :
    StateM τ (TransportResult Unit)
  /-- Writes a transfer to the bulk endpoint and returns the number of bytes accepted. -/
  bulkOut (data : Bytes) : StateM τ (TransportResult Nat)
  /-- Starts polling for transfers from the bulk endpoint. -/
  startBulkIn (bufferSize : Nat) : StateM τ (TransportResult Unit)
  /-- Starts polling for notifications. -/
  startInterruptIn : StateM τ (TransportResult Unit)
  /-- The next completion to be delivered on an occasion. -/
  next? (moment : Moment) : τ → Option (Completion × τ)

end I3cHost
