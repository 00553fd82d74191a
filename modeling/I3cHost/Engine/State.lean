import I3cHost.BringUp.Machine
import I3cHost.Engine.Hook
import I3cHost.Transport.Basic

/-!
# The state of a session

Everything that a session remembers, together with the state of its transport, what it has asked
of the transport and what its hooks have reported. Operations that can fail keep what they did
before they failed, so they act on the state even then.
-/

namespace I3cHost

/-- The part of the state that belongs to initialization. -/
structure BringUp where
  state : InitState := .idle
  /-- Why the latest run failed. -/
  failure : Option HostError := none
  /-- Events that wait to be processed, oldest first. -/
  posted : List InitEvent := []
  /-- Whether anybody processes posted events. -/
  listening : Bool := true
  policy : InitPolicy := {}

/-- Which endpoints are polled, and whether completions can reach the session. -/
structure Pipes where
  /-- The number of packets in a buffer for the bulk endpoint. -/
  bulkInPackets : Nat := 16
  /-- Whether transfers from the bulk endpoint are handed to the session. -/
  bulkInAttached : Bool := false
  /-- Whether notifications are handed to the session. -/
  interruptAttached : Bool := false
  /-- Whether polling for notifications was started successfully. -/
  interruptStarted : Bool := false
  /-- Whether notifications can still make requests. -/
  linked : Bool := true
  /-- Whether the event thread is running. -/
  eventThread : Bool := true

/-- The state of a session over a transport with states of a type. -/
structure Engine (τ : Type) where
  transport : τ
  device : DeviceInfo := {}
  table : TargetTable := {}
  tracker : Tracker (Hook τ) := {}
  vendorHook : Option (Hook τ) := none
  queue : CommandQueue (Hook τ) := {}
  settings : TransferSettings := {}
  bringUp : BringUp := {}
  pipes : Pipes := {}
  /-- The calls made on the transport, oldest first. -/
  trace : Array TransportCall := #[]
  /-- What hooks and listeners reported, oldest first. -/
  journal : Array Notice := #[]

/-- An operation on a session that cannot fail. -/
abbrev EngineM (τ : Type) := StateM (Engine τ)

/-- An operation on a session that can fail. What it did before stays done. -/
abbrev EngineOp (τ : Type) := ExceptT HostError (StateM (Engine τ))

/-- What the calling thread lets happen on an occasion on which completions may be delivered, and
how many are. -/
abbrev Turn (τ : Type) := Moment → EngineM τ Nat

/-- Lets nothing happen. Code that runs on the event thread keeps it busy, so no completion is
delivered meanwhile. -/
def Turn.busy {τ : Type} : Turn τ :=
  fun _ ↦ pure 0

namespace Engine

variable {τ : Type}

/-- A result as part of an operation. -/
def ofResult {α : Type} (result : HostResult α) : EngineOp τ α :=
  ExceptT.mk (pure result)

/-- The state after a hook or listener has reported something. -/
def report (notice : Notice) (engine : Engine τ) : Engine τ :=
  { engine with journal := engine.journal.push notice }

/-- The state after an operation of the table; what the table announced has been reported. -/
def onTable {α : Type} (operation : TargetTable → α × TargetTable) (engine : Engine τ) :
    α × Engine τ :=
  let (result, table) := operation engine.table
  (result, { engine with
    table := { table with arrivals := #[] }
    journal := engine.journal ++ table.arrivals.map Notice.arrival })

/-- The state with changed tracked requests. -/
def onTracker (change : Tracker (Hook τ) → Tracker (Hook τ)) (engine : Engine τ) : Engine τ :=
  { engine with tracker := change engine.tracker }

/-- The state with changed features of the device. -/
def onDeviceState (change : DeviceState → DeviceState) (engine : Engine τ) : Engine τ :=
  { engine with device := { engine.device with state := change engine.device.state } }

/-- The state with changed pipes. -/
def onPipes (change : Pipes → Pipes) (engine : Engine τ) : Engine τ :=
  { engine with pipes := change engine.pipes }

/-- The state with a changed initialization. -/
def onBringUp (change : BringUp → BringUp) (engine : Engine τ) : Engine τ :=
  { engine with bringUp := change engine.bringUp }

/-- The state after an event of initialization has been posted, and whether anybody will process
it. -/
def post (event : InitEvent) (engine : Engine τ) : Bool × Engine τ :=
  if engine.bringUp.listening then
    (true, engine.onBringUp fun bringUp ↦ { bringUp with posted := bringUp.posted ++ [event] })
  else
    (false, engine)

end Engine

end I3cHost
