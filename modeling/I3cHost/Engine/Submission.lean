import I3cHost.Engine.Traffic

/-!
# Submitting requests

A request is sent only while answers can arrive and the device has room for it. Commands are
tracked before the transfer, so that an answer that arrives during the transfer finds them; if the
transfer fails they are withdrawn and stay queued.
-/

namespace I3cHost.Engine

variable {τ : Type} [Transport τ]

/-- The free space of the device's buffer. -/
def bufferAvailable (turn : Turn τ) : EngineOp τ Nat := do
  let data ← controlIn turn .bufferQuery .getBufferAvailable 0 bufferAvailableLength
  let available : UInt32 ← ofResult (.ofCodec (Record.read data 0))
  return available.toNat

/-- Refuses a request that the device has no room for. -/
def ensureRoom (turn : Turn τ) (required : Nat) : EngineOp τ Unit := do
  let available ← bufferAvailable turn
  if required > available then
    throw (.bufferUnavailable required available)

/-- Writes a request as one transfer, which the device has to accept as a whole. -/
def writeRequest (turn : Turn τ) (bytes : Bytes) : EngineOp τ Unit := do
  let written ← bulkOut turn bytes
  if written ≠ bytes.length then
    throw (.protocol (.shortTransfer bytes.length written))

/-- The state in which the queued commands, sent under identifiers from a first one on, have
handed their callbacks over to tracked requests. -/
def trackQueued (first : UInt16) (dependent : Bool) (engine : Engine τ) : Engine τ :=
  let (requests, queue) := engine.queue.handOver first dependent
  { engine with queue, tracker := engine.tracker.track requests }

/-- The state in which the queued commands, sent under identifiers from a first one on, have taken
their callbacks back from the requests that still wait. -/
def withdrawQueued (first : UInt16) (engine : Engine τ) : Engine τ :=
  let (withdrawn, tracker) := engine.tracker.withdraw first engine.queue.size
  { engine with tracker, queue := engine.queue.takeBack first withdrawn }

/-- The state in which the queued commands have left the queue and used up their identifiers. -/
def concludeQueued (engine : Engine τ) : Engine τ :=
  { engine with tracker := engine.tracker.advance engine.queue.size, queue := {} }

/-- Refuses a queue that is empty or holds a command without a callback. -/
def ensureSendable (queue : CommandQueue (Hook τ)) : HostResult Unit :=
  if queue.isEmpty then
    .error (.validation .emptyQueue)
  else
    match queue.withoutCallback? with
    | some index => .error (.validation (.missingCallback index))
    | none => .ok ()

/-- Sends the queued commands as one request and returns their identifiers. -/
def submit (turn : Turn τ) (dependent : Bool) : EngineOp τ (List UInt16) := do
  let engine ← get
  ofResult (ensureSendable engine.queue)
  ofResult engine.tracker.ensureReceiving
  let first := engine.tracker.nextId
  let bytes ← ofResult (.ofCodec (Message.toBytes (engine.queue.request first dependent)))
  ensureRoom turn bytes.length
  modify (trackQueued first dependent)
  try
    writeRequest turn bytes
  catch error =>
    modify (withdrawQueued first)
    throw error
  modify concludeQueued
  return engine.queue.ids first

/-- Sends a vendor-specific request. -/
def submitVendor (turn : Turn τ) (payload : Bytes) : EngineOp τ Unit := do
  ofResult (← get).tracker.ensureReceiving
  let bytes ← ofResult (.ofCodec (Message.toBytes (BulkRequest.vendorSpecific payload)))
  ensureRoom turn bytes.length
  writeRequest turn bytes

end I3cHost.Engine
