import I3cHost.Engine.BringUp
import I3cHost.Engine.Submission
import I3cHost.Target.AddressChange

/-!
# Carrying out calls

`perform` carries out whatever an application asks of a session. Calls about single targets and
about features are refused before anything is sent unless the device manages the bus. What the
session remembers changes only after the device has accepted the request; a change of address is
remembered later still, when the device reports it.
-/

namespace I3cHost.Engine

variable {τ : Type} [Transport τ]

/-- What came of an operation that returns nothing. -/
def settled (operation : EngineOp τ Unit) : EngineM τ Outcome := do
  match ← operation.run with
  | .ok () => return .done
  | .error error => return .failed error

/-- The state after a command has been queued with the settings of the session, unless something
is wrong with it. -/
def enqueue (command : Command (Hook τ)) (engine : Engine τ) : Outcome × Engine τ :=
  let command := { command with settings := engine.settings }
  match engine.queue.fault? command with
  | some fault => (.failed (.validation fault), engine)
  | none => (.done, { engine with queue := engine.queue.append command })

/-- The state after copies of a command have been queued, up to the first that is refused. -/
def enqueueCopies (command : Command (Hook τ)) : Nat → Engine τ → Outcome × Engine τ
  | 0, engine => (.done, engine)
  | copies + 1, engine =>
      match enqueue command engine with
      | (.done, engine) => enqueueCopies command copies engine
      | (refusal, engine) => (refusal, engine)

/-- The state after an answer that was kept under an identifier has been handed out. -/
def takeRetained (id : UInt16) (engine : Engine τ) : Outcome × Engine τ :=
  match engine.tracker.takeRetained id with
  | some (response, tracker) => (.response (some response), { engine with tracker })
  | none => (.response none, engine)

/-- The target at an address, provided the device manages the bus. -/
def managedDevice (address : UInt8) (engine : Engine τ) : HostResult TargetDevice := do
  engine.device.checkActiveController
  match engine.table.get? address with
  | some device => return device
  | none => throw (.validation (.unknownTarget address))

/-- Configures the target at an address and records the configuration. -/
def configureDevice (turn : Turn τ) (address : UInt8) (config : TargetConfig)
    (maxIbiPayload : UInt32) : EngineOp τ Unit := do
  let change : ConfigChange := ⟨[{ address, config := config.bits, maxIbiPayload }]⟩
  let buffer ← ofResult (.ofCodec (Message.toBytes change))
  controlOut turn .request .setTargetDeviceConfig 0 buffer
  recordConfig address config maxIbiPayload

/-- Gives the target at an address another configuration. -/
def setDeviceConfig (turn : Turn τ) (address : UInt8) (config : TargetConfig) :
    EngineOp τ Unit := do
  let device ← ofResult (managedDevice address (← get))
  configureDevice turn address config device.maxIbiPayload

/-- Gives the target at an address another limit for the payload of its interrupts. -/
def setDeviceMaxIbi (turn : Turn τ) (address : UInt8) (maxIbiPayload : UInt32) :
    EngineOp τ Unit := do
  let device ← ofResult (managedDevice address (← get))
  configureDevice turn address device.config maxIbiPayload

/-- The request that moves the target at an address to another, which has to be in range and
free. -/
def addressChange (current new : UInt8) (engine : Engine τ) :
    HostResult AddressChangeRequest := do
  engine.device.checkActiveController
  if new = 0 ∨ new > maxTargetAddress then
    throw (.validation (.addressOutOfRange new))
  let device ← managedDevice current engine
  if (engine.table.get? new).isSome then
    throw (.validation (.addressInUse new))
  return ⟨[{ current, new, pid := device.pid }]⟩

/-- Asks the device to move the target at an address to another. -/
def changeAddress (turn : Turn τ) (current new : UInt8) : EngineOp τ Unit := do
  let request ← ofResult (addressChange current new (← get))
  let buffer ← ofResult (.ofCodec (Message.toBytes request))
  controlOut turn .request .changeDynamicAddress 0 buffer

/-- Sets or clears a feature of the device and remembers it. -/
def switchFeature (turn : Turn τ) (feature : Feature) (enabled : Bool) : EngineOp τ Unit := do
  ofResult ((← get).device.checkFeature feature)
  controlOut turn .request (if enabled then .setFeature else .clearFeature) (Coded.word16 feature)
    []
  modify (onDeviceState fun state ↦ state.setFeature feature enabled)

/-- Disables a feature. Leaving a high data rate mode is no lasting state, so it cannot be
undone. -/
def disable (turn : Turn τ) (feature : Feature) : EngineOp τ Unit := do
  if feature = .hdrExitRecovery then
    throw (.validation (.featureCannotBeCleared feature))
  switchFeature turn feature false

/-- Has the device drop or go on with what it holds of requests. -/
def controlBulk (turn : Turn τ) (control : BulkControl) : EngineOp τ Unit :=
  controlOut turn .request .cancelOrResumeBulkRequest control.word []

/-- What came of an operation on the feature that a number selects. -/
def onFeature (selector : UInt16) (operation : Feature → EngineOp τ Unit) : EngineM τ Outcome :=
  match Coded.ofWord16 selector with
  | .ok feature => settled (operation feature)
  | .error error => return .undefined error

/-- The state after the event thread has been stopped. Requests that wait stay tracked. -/
def close (engine : Engine τ) : Engine τ :=
  engine.onPipes fun pipes ↦ { pipes with eventThread := false }

/-- The state after the event thread's wait for completions has failed: the thread ends when the
device is lost, and waits again otherwise. -/
def failWait (error : TransportError) (engine : Engine τ) : Engine τ :=
  if error = .disconnected then close engine else engine

/-- Carries a call out. -/
def perform (turn : Turn τ) : Call (Hook τ) τ → EngineM τ Outcome
  | .bringUp => settled (runBringUp turn)
  | .enqueue command copies => modifyGet (enqueueCopies command copies)
  | .clear => do
      modify fun engine ↦ { engine with queue := {} }
      return .done
  | .submit dependent => do
      match ← (submit turn dependent).run with
      | .ok ids => return .submitted ids
      | .error error => return .failed error
  | .submitVendor payload => settled (submitVendor turn payload)
  | .takeRetained id => modifyGet (takeRetained id)
  | .retained id => return .response ((← get).tracker.retained id)
  | .requests => return .requests (← get).tracker.records
  | .onVendor callback => do
      modify fun engine ↦ { engine with vendorHook := callback }
      return .done
  | .onHotJoin listener => do
      modify fun engine ↦ { engine with table := { engine.table with listener } }
      return .done
  | .info => return .info (← get).device
  | .settings => return .settings (← get).settings
  | .setSettings settings => do
      modify fun engine ↦ { engine with settings }
      return .done
  | .devices => return .devices (← get).table.devices
  | .device address => return .device ((← get).table.get? address)
  | .deviceConfig address => return .config (((← get).table.get? address).map (·.config))
  | .setDeviceConfig address config => settled (setDeviceConfig turn address config)
  | .setDeviceMaxIbi address maxIbiPayload => settled (setDeviceMaxIbi turn address maxIbiPayload)
  | .changeAddress current new => settled (changeAddress turn current new)
  | .enable selector => onFeature selector fun feature ↦ switchFeature turn feature true
  | .disable selector => onFeature selector (disable turn)
  | .exitHdr => settled (switchFeature turn .hdrExitRecovery true)
  | .controlBulk control => settled (controlBulk turn control)
  | .pump => return .delivered (← turn .waiting)
  | .close => do
      modify close
      return .done
  | .failWait error => do
      modify (failWait error)
      return .done
  | .adjust change => do
      modify fun engine ↦ { engine with transport := change engine.transport }
      return .done

end I3cHost.Engine
