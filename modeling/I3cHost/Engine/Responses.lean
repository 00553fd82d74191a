import I3cHost.Engine.Calls

/-!
# Answers reach their callbacks

An answer is handed to the callback of the request that waits under its identifier. A callback
runs while the request is not tracked, on the thread that deals with the answer, and may make any
calls itself. When the stream of answers ends, every request that waits is answered with a
transport failure.
-/

namespace I3cHost.Engine

variable {τ : Type} [Transport τ]

/-- Makes the calls of a hook and reports what came of them. -/
def follow (turn : Turn τ) (hook : Hook τ) : EngineM τ Unit := do
  unless hook.followUp.isEmpty do
    let outcomes ← hook.followUp.mapM (perform turn)
    modify (report (.followUp hook.label outcomes))

/-- Runs a hook on an answer. -/
def runHook (turn : Turn τ) (hook : Hook τ) (response : CommandResponse) : EngineM τ Unit := do
  unless hook.quiet do
    modify (report (.response hook.label response))
  follow turn hook

/-- Runs a hook on a vendor-specific payload. -/
def runVendorHook (turn : Turn τ) (hook : Hook τ) (payload : Bytes) : EngineM τ Unit := do
  modify (report (.vendor hook.label payload))
  follow turn hook

/-- Answers a request that is no longer tracked. It is tracked again, together with the answer,
if its callback keeps it. -/
def answer (turn : Turn τ) (request : TrackedRequest (Hook τ)) (response : CommandResponse) :
    EngineM τ Unit := do
  runHook turn request.callback response
  modify (onTracker fun tracker ↦
    tracker.settle request response (request.callback.keep response))

/-- The state after the request that waits under an identifier has been taken out of the tracked
ones, and that request. -/
def takePending (id : UInt16) (engine : Engine τ) :
    Option (TrackedRequest (Hook τ)) × Engine τ :=
  match engine.tracker.takePending id with
  | some (request, tracker) => (some request, { engine with tracker })
  | none => (none, engine)

/-- Hands an answer to the request that waits for it. Without one the answer is dropped. -/
def resolve (turn : Turn τ) (response : CommandResponse) : EngineM τ Unit := do
  if let some request ← modifyGet (takePending response.id) then
    answer turn request response

/-- The state after the hook for vendor-specific transfers has been taken out, and that hook. -/
def takeVendorHook (engine : Engine τ) : Option (Hook τ) × Engine τ :=
  (engine.vendorHook, { engine with vendorHook := none })

/-- The state with a hook for vendor-specific transfers put back, unless there is another by
now. -/
def restoreVendorHook (hook : Hook τ) (engine : Engine τ) : Engine τ :=
  { engine with vendorHook := engine.vendorHook.or (some hook) }

/-- Hands a vendor-specific payload to the hook for it. -/
def resolveVendor (turn : Turn τ) (payload : Bytes) : EngineM τ Unit := do
  if let some hook ← modifyGet takeVendorHook then
    runVendorHook turn hook payload
    modify (restoreVendorHook hook)

/-- Hands out what a transfer from the device carries. Payloads of interrupts have no consumer. -/
def dispatch (turn : Turn τ) : BulkResponse → EngineM τ Unit
  | .regular responses => responses.forM (resolve turn)
  | .vendorSpecific payload => resolveVendor turn payload
  | .ibi _ => return ()

/-- Reacts to a transfer from the device. A malformed one is refused as a whole. -/
def handleBulkResponse (turn : Turn τ) (data : Bytes) : EngineM τ (HostResult Unit) := do
  match BulkResponse.decode data with
  | .ok response =>
      dispatch turn response
      return .ok ()
  | .error error => return .error (.ofCodec error)

/-- The state after all requests that wait have been taken out of the tracked ones, and those
requests. -/
def takeAllPending (engine : Engine τ) : Array (TrackedRequest (Hook τ)) × Engine τ :=
  let (pending, tracker) := engine.tracker.takeAllPending
  (pending, { engine with tracker })

/-- Answers every request that waits with a transport failure. -/
def failAll (turn : Turn τ) : EngineM τ Unit := do
  let pending ← modifyGet takeAllPending
  pending.toList.forM fun request ↦ answer turn request (.transportFailure request.id)

/-- Reacts to a completion of the bulk endpoint. Malformed transfers are dropped. A lost device
or a cancelled stream means that no more answers will arrive. -/
def handleBulkIn (turn : Turn τ) (result : TransportResult Bytes) : EngineM τ Unit := do
  match result with
  | .ok data =>
      let _ ← handleBulkResponse turn data
  | .error .disconnected => endOfAnswers
  | .error .cancelled => endOfAnswers
  | .error .timeout => return ()
  | .error .stall => return ()
  | .error (.native _) => return ()
where
  /-- Notes that no answers arrive and fails the requests that wait for one. -/
  endOfAnswers : EngineM τ Unit := do
    modify (onTracker fun tracker ↦ { tracker with receiving := false })
    failAll turn

end I3cHost.Engine
