import I3cHost.Command.Queue
import I3cHost.Device.Info
import I3cHost.Target.Table

/-!
# Calls, their outcomes, and hooks

What an application can do to a session is a value of type `Call`, so a history of a session is
a list of calls. An application may share the transport with its session; what it does there is a
call too. A `Hook` is a callback as data: it has a name under which it reports, decides which
answers are kept, and may make calls of its own. Everything that hooks are told, and what came of
their calls, is a `Notice`.
-/

namespace I3cHost

/-- Something an application does to a session over a transport with states of a type. Callbacks
are of any type. -/
inductive Call (κ τ : Type) where
  /-- Initializes the device and the bus. -/
  | bringUp
  /-- Queues copies of a command. -/
  | enqueue (command : Command κ) (copies : Nat := 1)
  | clear
  | submit (dependent : Bool)
  | submitVendor (payload : Bytes)
  | takeRetained (id : UInt16)
  | retained (id : UInt16)
  | requests
  | onVendor (callback : Option κ)
  | onHotJoin (listener : Option String)
  | info
  | settings
  | setSettings (settings : TransferSettings)
  | devices
  | device (address : UInt8)
  | deviceConfig (address : UInt8)
  | setDeviceConfig (address : UInt8) (config : TargetConfig)
  | setDeviceMaxIbi (address : UInt8) (maxIbiPayload : UInt32)
  | changeAddress (current new : UInt8)
  | enable (selector : UInt16)
  | disable (selector : UInt16)
  | exitHdr
  | controlBulk (control : BulkControl)
  /-- Lets the event thread deliver what has completed. -/
  | pump
  /-- Stops the event thread. -/
  | close
  /-- Lets the event thread's wait for completions fail. -/
  | failWait (error : TransportError)
  /-- Changes the transport. -/
  | adjust (change : τ → τ)
  deriving Inhabited

/-- What came of a call. -/
inductive Outcome where
  | done
  | failed (error : HostError)
  /-- The call named something that does not exist. -/
  | undefined (error : CodecError)
  | submitted (ids : List UInt16)
  | response (response : Option CommandResponse)
  | requests (records : List RequestRecord)
  | info (info : DeviceInfo)
  | settings (settings : TransferSettings)
  | devices (devices : List TargetDevice)
  | device (device : Option TargetDevice)
  | config (config : Option TargetConfig)
  | delivered (count : Nat)

/-- A callback for the answers to commands or for vendor-specific transfers. -/
structure Hook (τ : Type) where
  /-- The name under which the hook reports. -/
  label : String
  /-- Whether the hook does not report the answers it sees. -/
  quiet : Bool := false
  /-- Which answers are kept together with their requests. -/
  keep : CommandResponse → Bool := fun _ ↦ false
  /-- The calls the hook makes when it runs. -/
  followUp : List (Call (Hook τ) τ) := []
  deriving Inhabited

/-- Something a hook or a listener reported. -/
inductive Notice where
  | arrival (arrival : Arrival)
  | response (label : String) (response : CommandResponse)
  | vendor (label : String) (payload : Bytes)
  | followUp (label : String) (outcomes : List Outcome)

end I3cHost
