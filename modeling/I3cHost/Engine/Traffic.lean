import I3cHost.Engine.State

/-!
# Calls on the transport

Every call is recorded before it is made. The calls that take time give the calling thread the
occasion to let completions happen before the result is looked at.
-/

namespace I3cHost.Engine

variable {τ : Type} [Transport τ]

/-- The state after a call has been recorded and made, and the result of the call. -/
def call {α : Type} (record : TransportCall) (operation : StateM τ (TransportResult α))
    (engine : Engine τ) : TransportResult α × Engine τ :=
  let (result, transport) := operation.run engine.transport
  (result, { engine with transport, trace := engine.trace.push record })

/-- The result of a call as part of an operation. -/
def ofTransfer {α : Type} (result : TransportResult α) : EngineOp τ α :=
  ofResult (result.mapError .transport)

/-- Makes a control request and waits for its data. -/
def controlIn (turn : Turn τ) (moment : Moment) (request : ClassRequest) (value : UInt16)
    (maxLength : Nat) : EngineOp τ Bytes := do
  let result ← modifyGet (call (.controlIn request value maxLength)
    (Transport.controlIn request value maxLength))
  let _ ← turn moment
  ofTransfer result

/-- Makes a control request that carries data. -/
def controlOut (turn : Turn τ) (moment : Moment) (request : ClassRequest) (value : UInt16)
    (data : Bytes) : EngineOp τ Unit := do
  let result ← modifyGet (call (.controlOut request value data)
    (Transport.controlOut request value data))
  let _ ← turn moment
  ofTransfer result

/-- Makes a control request whose data is delivered later. Only an accepted request is an
occasion for completions. -/
def submitControlIn (turn : Turn τ) (request : ClassRequest) (continuation : Continuation) :
    EngineOp τ Unit := do
  let result ← modifyGet (call (.submitControlIn request 0 maxControlInLength)
    (Transport.submitControlIn request 0 maxControlInLength continuation))
  ofTransfer result
  let _ ← turn .initRequest

/-- Writes a transfer to the bulk endpoint and returns the number of bytes accepted. -/
def bulkOut (turn : Turn τ) (data : Bytes) : EngineOp τ Nat := do
  let result ← modifyGet (call (.bulkOut data) (Transport.bulkOut data))
  let _ ← turn .bulkOut
  ofTransfer result

/-- Starts to poll for transfers from the bulk endpoint, unless answers are being received. The
mark that they are is set first, so that it is not lost when the stream ends at once. -/
def startBulkIn (turn : Turn τ) : EngineOp τ Unit := do
  let engine ← get
  unless engine.tracker.receiving do
    let bufferSize := Transport.maxPacketSize engine.transport * engine.pipes.bulkInPackets
    modify (onTracker fun tracker ↦ { tracker with receiving := true })
    modify (onPipes fun pipes ↦ { pipes with bulkInAttached := true })
    let result ← modifyGet (call (.startBulkIn bufferSize) (Transport.startBulkIn bufferSize))
    let _ ← turn .polling
    if let .error error := result then
      modify (onTracker fun tracker ↦ { tracker with receiving := false })
      throw (.transport error)

/-- Starts to poll for notifications, unless this succeeded before. -/
def startInterruptIn (turn : Turn τ) : EngineOp τ Unit := do
  unless (← get).pipes.interruptStarted do
    modify (onPipes fun pipes ↦ { pipes with interruptAttached := true })
    let result ← modifyGet (call .startInterruptIn Transport.startInterruptIn)
    let _ ← turn .polling
    ofTransfer result
    modify (onPipes fun pipes ↦ { pipes with interruptStarted := true })

end I3cHost.Engine
