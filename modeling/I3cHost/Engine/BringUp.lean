import I3cHost.Engine.Traffic
import I3cHost.Target.Merge

/-!
# Initializing the device and the bus

The actions of initialization, and the run that processes events until initialization has come to
an end. An action that cannot go on posts a failure as the next event. A run discards what was
posted before it, and an event that the current state does not accept is dropped. When nothing
has been posted the step has timed out, which is a failure too.
-/

namespace I3cHost.Engine

variable {τ : Type} [Transport τ]

/-- Takes a capability report over: what it says about the device, and the targets it lists. -/
def applyCapability (buffer : Bytes) : EngineOp τ Unit := do
  let report ← ofResult (.ofCodec (CapabilityReport.decode buffer))
  modify fun engine ↦
    { engine with device := { engine.device with capability := some (.ofReport report) } }
  unless report.targets.isEmpty do
    let added ← modifyGet (onTable fun table ↦ table.mergeCapability buffer)
    let _ ← ofResult added

/-- Has the bus initialized, starting with static addresses if any target has one. -/
def initializeBus (turn : Turn τ) : EngineOp τ Unit := do
  let census ← ofResult (← get).table.identify
  let mode : AssignmentMode := if census.staticCount > 0 then .staticThenDynamic else .dynamicOnly
  controlOut turn .initRequest .initializeI3cBus mode.word []

/-- The configuration that a device calls for: its targets may interrupt and take the controller
role as far as the device supports it. -/
def configFor (capability : DeviceCapability) : TargetConfig where
  interruptRequest := capability.inBandInterrupt
  controllerRoleRequest := capability.handoffControllerRole

/-- Records the configuration of the target at an address in the table. -/
def recordConfig (address : UInt8) (config : TargetConfig) (maxIbiPayload : UInt32) :
    EngineOp τ Unit := do
  let result ← modifyGet (onTable fun table ↦
    match table.updateConfig address config maxIbiPayload with
    | .ok table => (.ok (), table)
    | .error error => (.error error, table))
  ofResult result

/-- Configures every target that has an address. -/
def configureTargets (turn : Turn τ) : EngineOp τ Unit := do
  let engine ← get
  match engine.device.capability with
  | none => throw (.state .capabilitiesUnknown)
  | some capability =>
      let config := configFor capability
      let addresses := engine.table.addresses
      unless addresses.isEmpty do
        let buffer ← ofResult (engine.table.configChange config capability.maxIbiPayload)
        controlOut turn .initRequest .setTargetDeviceConfig 0 buffer
        addresses.forM fun address ↦ recordConfig address config capability.maxIbiPayload

/-- Merges a listing of targets. -/
def mergeListing (buffer : Bytes) : EngineOp τ Unit := do
  let added ← modifyGet (onTable fun table ↦ table.mergeListing buffer)
  let _ ← ofResult added

/-- Carries an operation out and posts an event if it succeeds, or else its failure. Returns
whether what had to be posted could be. -/
def postOutcome (operation : EngineOp τ Unit) (success : Option InitEvent) : EngineM τ Bool := do
  match ← operation.run, success with
  | .ok (), none => return true
  | .ok (), some event => modifyGet (post event)
  | .error error, _ => modifyGet (post (.fail error))

/-- Records whether the device manages the bus. -/
def setActiveController (active : Bool) : EngineM τ Unit :=
  modify (onDeviceState fun state ↦ { state with activeController := active })

/-- Keeps the reason of a failure. -/
def setFailure (failure : Option HostError) : EngineM τ Unit :=
  modify (onBringUp fun bringUp ↦ { bringUp with failure })

/-- Carries an action out. Returns whether it succeeded. -/
def performStandard (turn : Turn τ) : InitAction → EngineM τ Bool
  | .start => do
      setFailure none
      postOutcome (submitControlIn turn .getI3cCapability .capabilityReport) none
  | .takeCapability buffer =>
      postOutcome (do applyCapability buffer; startBulkIn turn) (some .pipelineStarted)
  | .initializeBus => postOutcome (do startInterruptIn turn; initializeBus turn) none
  | .stayInStandby => do
      setActiveController false
      return true
  | .busInitialized => do
      modify (onDeviceState fun state ↦ { state with activeController := true, i3cBus := true })
      postOutcome (submitControlIn turn .getTargetDeviceTable .targetListing) none
  | .busInitFailed code => do
      setActiveController false
      setFailure (some (.state (.busInitializationFailed code)))
      return true
  | .takeListing buffer =>
      postOutcome (do mergeListing buffer; configureTargets turn) (some .configApplied)
  | .configApplied =>
      postOutcome (submitControlIn turn .getTargetDeviceTable .targetListing) none
  | .refreshListing buffer => postOutcome (mergeListing buffer) (some .tableMerged)
  | .ready => do
      modify fun engine ↦ { engine with table := { engine.table with eventsEnabled := true } }
      return true
  | .failure error => do
      setFailure (some error)
      return true

/-- Carries an action out in the way the application wants. Returns whether it succeeded. -/
def performAction (turn : Turn τ) (action : InitAction) : EngineM τ Bool := do
  match (← get).bringUp.policy.action action with
  | .standard => performStandard turn action
  | .skip => return true
  | .fail => return false

/-- The value of a condition. -/
def holdsStandard (device : DeviceInfo) : InitGuard → Bool
  | .controllerCapable => device.capability.any (·.isControllerCapable)
  | .busInitSuccessful code => code == .success

/-- The value of a condition in the way the application wants; nothing if it cannot be
evaluated. -/
def holds? (guard : InitGuard) (engine : Engine τ) : Option Bool :=
  match engine.bringUp.policy.guard guard with
  | .standard => some (holdsStandard engine.device guard)
  | .always value => some value
  | .fail => none

/-- Takes the first transition whose condition is fulfilled. -/
def takeTransition (turn : Turn τ) : List Transition → EngineM τ (Except Rejection Unit)
  | [] => return .error .transitionsFailed
  | transition :: others => do
      let engine ← get
      match transition.guard.mapM fun (guard, value) ↦ (holds? guard engine).map (· == value) with
      | none => return .error .guardFailed
      | some (some false) => takeTransition turn others
      | some _ =>
          if ← performAction turn transition.action then
            modify (onBringUp fun bringUp ↦ { bringUp with state := transition.target })
            return .ok ()
          else
            return .error .actionFailed

/-- Processes an event. An event that is not accepted leaves the state of initialization as it
was. -/
def process (turn : Turn τ) (event : InitEvent) : EngineM τ (Except Rejection Unit) := do
  match transitions (← get).bringUp.state event with
  | [] => return .error .invalidEvent
  | candidates => takeTransition turn candidates

/-- Removes the oldest posted event. -/
def dropPosted (engine : Engine τ) : Engine τ :=
  engine.onBringUp fun bringUp ↦ { bringUp with posted := bringUp.posted.tail }

/-- Processes posted events in order until one is accepted. Returns whether one was. -/
def processUntilAccepted (turn : Turn τ) : List InitEvent → EngineM τ Bool
  | [] => return false
  | event :: others => do
      modify dropPosted
      match ← process turn event with
      | .ok () => return true
      | .error _ => processUntilAccepted turn others

/-- The number of states, and of rounds after which a run is given up. With the standard actions
every round leads closer to an end, since a step that has timed out is a failure, so a run ends
within as many rounds. An application that refuses to carry the failure out can have a run wait for
ever, one step that has timed out after the other. Here such a run is given up. -/
def maxSteps : Nat := 11

/-- Goes on with initialization until it has come to an end, one accepted event a round. A run is
given up when no rounds are left. -/
def advance (turn : Turn τ) : Nat → EngineOp τ Unit
  | 0 => throw (.state (.unexpectedInitEvent "Fail"))
  | steps + 1 => do
      let bringUp := (← get).bringUp
      match bringUp.state with
      | .ready => return ()
      | .standby => return ()
      | .failed => throw (bringUp.failure.getD (.state (.unexpectedInitEvent "Fail")))
      | _ =>
          unless ← processUntilAccepted turn bringUp.posted do
            let _ ← process turn (.fail (.transport .timeout))
          advance turn steps

/-- Initializes the device and the bus. Until this has succeeded the table keeps its arrivals to
itself. -/
def runBringUp (turn : Turn τ) : EngineOp τ Unit := do
  modify (onBringUp fun bringUp ↦ { bringUp with posted := [] })
  modify fun engine ↦ { engine with table := { engine.table with eventsEnabled := false } }
  match ← process turn .start with
  | .error _ => throw (.state (.unexpectedInitEvent "Start"))
  | .ok () => advance turn maxSteps

end I3cHost.Engine
