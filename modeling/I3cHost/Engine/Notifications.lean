import I3cHost.Engine.Traffic
import I3cHost.Target.Merge
import I3cHost.Target.Relocation

/-!
# Reacting to notifications

Notifications mostly arrive on the event thread, which must not wait for itself, so what a request
made in answer to one fetches is delivered later. The outcome of initializing the bus is posted to
whoever initializes it; a hot join fetches the listing of targets; a change of addresses fetches
the report of the moves.
-/

namespace I3cHost.Engine

variable {τ : Type} [Transport τ]

/-- Makes a request in answer to a notification, provided the transport is still there. -/
def fetch (turn : Turn τ) (request : ClassRequest) (continuation : Continuation) :
    EngineOp τ Unit := do
  if (← get).pipes.linked then
    submitControlIn turn request continuation
  else
    throw (.transport .disconnected)

/-- Reacts to a notification. -/
def handleNotification (turn : Turn τ) (data : Bytes) : EngineOp τ Unit := do
  let notification ← ofResult (.ofCodec (Message.decode data))
  let kind ← ofResult (.ofCodec (Notification.kind notification))
  match kind with
  | .busInitialization code =>
      let _ ← modifyGet (post (.busInitStatus code))
  | .addressChange .hotJoinFailed => return ()
  | .addressChange .hotJoinSucceeded => fetch turn .getTargetDeviceTable .hotJoinListing
  | .addressChange .allSucceeded => fetch turn .getAddressChangeResult .addressChanges
  | .addressChange .someFailed => fetch turn .getAddressChangeResult .addressChanges

/-- Reacts to a transfer from the interrupt endpoint. Errors and malformed notifications are
dropped. -/
def handleInterrupt (turn : Turn τ) (result : TransportResult Bytes) : EngineM τ Unit := do
  match result with
  | .ok data =>
      let _ ← (handleNotification turn data).run
  | .error _ => return ()

/-- Goes on with the data of a request that was made earlier. -/
def handleControl (continuation : Continuation) (result : TransportResult Bytes) :
    EngineM τ Unit := do
  match continuation, result with
  | .capabilityReport, .ok data =>
      let _ ← modifyGet (post (.capabilityReceived data))
  | .targetListing, .ok data =>
      let _ ← modifyGet (post (.tableReceived data))
  | .capabilityReport, .error error =>
      let _ ← modifyGet (post (.fail (.transport error)))
  | .targetListing, .error error =>
      let _ ← modifyGet (post (.fail (.transport error)))
  | .hotJoinListing, .ok data =>
      let _ ← modifyGet (onTable fun table ↦ table.mergeListing data)
  | .addressChanges, .ok data =>
      let _ ← modifyGet (onTable fun table ↦ table.applyAddressChanges data)
  | .hotJoinListing, .error _ => return ()
  | .addressChanges, .error _ => return ()

end I3cHost.Engine
