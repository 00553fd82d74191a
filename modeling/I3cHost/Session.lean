import I3cHost.Engine.Delivery

/-!
# Sessions

A session drives one device. It is opened over a transport and told which targets are known
beforehand; then the application makes calls, while the event thread delivers what the device
sends, until the session is closed or the device is lost.
-/

namespace I3cHost

/-- How a session is to be opened. -/
structure SessionOptions where
  /-- Targets known before the bus is initialized. -/
  knownTargets : List TargetDevice := []
  /-- The settings of commands. -/
  settings : TransferSettings := {}
  /-- The number of packets in a buffer for the bulk endpoint. -/
  bulkInPackets : Nat := 16
  policy : InitPolicy := {}

namespace Session

variable {τ : Type} [Transport τ]

/-- Opens a session over a transport. -/
def ofTransport (transport : τ) (options : SessionOptions) : HostResult (Engine τ) := do
  let table ← options.knownTargets.foldlM (·.insert ·) ({} : TargetTable)
  return {
    transport, table
    settings := options.settings
    bringUp := { policy := options.policy }
    pipes := { bulkInPackets := options.bulkInPackets } }

/-- Makes a call on the application's thread. -/
def call (request : Call (Hook τ) τ) : EngineM τ Outcome :=
  Engine.perform Turn.application request

end Session

end I3cHost
