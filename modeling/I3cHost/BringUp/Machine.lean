import I3cHost.Error

/-!
# The states of initialization

The device and the bus are brought up in steps. Every step sends a request, and the event that
reports its outcome leads to the next step. `transitions` is the whole table: for a state and an
event it lists the transitions in the order in which their guards are tried. Every state accepts a
failure.
-/

namespace I3cHost

/-- How far initialization has come. -/
inductive InitState where
  | idle
  | capabilityRequested
  | pipelineStarting
  | busInitRequested
  | tableRequested
  | configRequested
  | tableRefreshRequested
  | finalizing
  | ready
  | standby
  | failed
  deriving DecidableEq, Inhabited

/-- The name of a state. -/
def InitState.label : InitState → String
  | .idle => "Idle"
  | .capabilityRequested => "CapabilityRequested"
  | .pipelineStarting => "PipelineStarting"
  | .busInitRequested => "BusInitRequested"
  | .tableRequested => "TableRequested"
  | .configRequested => "ConfigRequested"
  | .tableRefreshRequested => "TableRefreshRequested"
  | .finalizing => "Finalizing"
  | .ready => "Ready"
  | .standby => "Standby"
  | .failed => "Failed"

/-- What moves initialization on. -/
inductive InitEvent where
  | start
  | capabilityReceived (buffer : Bytes)
  | pipelineStarted
  | busInitStatus (code : BusInitCode)
  | tableReceived (buffer : Bytes)
  | configApplied
  | tableMerged
  | fail (error : HostError)
  deriving DecidableEq

/-- What is done on the way to a state. -/
inductive InitAction where
  /-- Asks for the capability report. -/
  | start
  /-- Takes the capability report over and starts to poll for answers. -/
  | takeCapability (buffer : Bytes)
  /-- Starts to poll for notifications and has the bus initialized. -/
  | initializeBus
  /-- Gives up the controller role. -/
  | stayInStandby
  /-- Takes the controller role and asks for the listing of targets. -/
  | busInitialized
  /-- Gives up the controller role and keeps the reason. -/
  | busInitFailed (code : BusInitCode)
  /-- Merges the listing of targets and configures them. -/
  | takeListing (buffer : Bytes)
  /-- Asks for the listing of targets once more. -/
  | configApplied
  /-- Merges the listing of targets once more. -/
  | refreshListing (buffer : Bytes)
  /-- Enables the events of the table. -/
  | ready
  /-- Keeps the reason of a failure. -/
  | failure (error : HostError)
  deriving DecidableEq

/-- A condition on the way to a state. -/
inductive InitGuard where
  | controllerCapable
  | busInitSuccessful (code : BusInitCode)
  deriving DecidableEq

/-- A way from one state to another. -/
structure Transition where
  /-- The condition, with the value it has to have. -/
  guard : Option (InitGuard × Bool) := none
  action : InitAction
  target : InitState
  deriving DecidableEq

/-- The transitions for an event in a state, in the order in which they are tried. -/
def transitions : InitState → InitEvent → List Transition
  | _, .fail error => [{ action := .failure error, target := .failed }]
  | .idle, .start => [{ action := .start, target := .capabilityRequested }]
  | .failed, .start => [{ action := .start, target := .capabilityRequested }]
  | .standby, .start => [{ action := .start, target := .capabilityRequested }]
  | .ready, .start => [{ action := .start, target := .capabilityRequested }]
  | .capabilityRequested, .capabilityReceived buffer =>
      [{ action := .takeCapability buffer, target := .pipelineStarting }]
  | .pipelineStarting, .pipelineStarted =>
      [{ guard := some (.controllerCapable, true), action := .initializeBus,
         target := .busInitRequested },
        { guard := some (.controllerCapable, false), action := .stayInStandby,
          target := .standby }]
  | .busInitRequested, .busInitStatus code =>
      [{ guard := some (.busInitSuccessful code, true), action := .busInitialized,
         target := .tableRequested },
        { guard := some (.busInitSuccessful code, false), action := .busInitFailed code,
          target := .failed }]
  | .tableRequested, .tableReceived buffer =>
      [{ action := .takeListing buffer, target := .configRequested }]
  | .configRequested, .configApplied =>
      [{ action := .configApplied, target := .tableRefreshRequested }]
  | .tableRefreshRequested, .tableReceived buffer =>
      [{ action := .refreshListing buffer, target := .finalizing }]
  | .finalizing, .tableMerged => [{ action := .ready, target := .ready }]
  | _, _ => []

/-- Why an event was not accepted. -/
inductive Rejection where
  /-- The state has no transition for the event. -/
  | invalidEvent
  /-- The condition of a transition could not be evaluated. -/
  | guardFailed
  /-- The action of a transition failed. -/
  | actionFailed
  /-- No transition had its condition fulfilled. -/
  | transitionsFailed
  deriving DecidableEq

/-- The text shown for a rejection. -/
def Rejection.message : Rejection → String
  | .invalidEvent => "InvalidEvent"
  | .guardFailed => "GuardFailed(())"
  | .actionFailed => "ActionFailed(())"
  | .transitionsFailed => "TransitionsFailed"

/-- What an application wants done instead of an action. -/
inductive ActionRule where
  | standard
  | skip
  | fail
  deriving DecidableEq, Inhabited

/-- What an application wants a condition to evaluate to. -/
inductive GuardRule where
  | standard
  | always (value : Bool)
  | fail
  deriving DecidableEq, Inhabited

/-- The actions and conditions that an application has replaced. -/
structure InitPolicy where
  action : InitAction → ActionRule := fun _ ↦ .standard
  guard : InitGuard → GuardRule := fun _ ↦ .standard

end I3cHost
