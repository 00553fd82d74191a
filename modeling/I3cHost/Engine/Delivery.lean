import I3cHost.Engine.Notifications
import I3cHost.Engine.Responses

/-!
# Delivering completions

The transport hands out completions one by one, and each is dealt with before the next. What is
delivered for an endpoint that is not polled is lost.

Completions are dealt with by the event thread, on the occasions on which the application's thread
waits for it. Only those that the transport hands out while polling is being started are dealt
with by the application's thread itself; what is done in answer to one of those may wait for the
event thread in turn.
-/

namespace I3cHost

namespace Engine

variable {τ : Type} [Transport τ]

/-- Deals with a completion. The turn is that of the thread which does. -/
def complete (turn : Turn τ) : Completion → EngineM τ Unit
  | .control continuation result => handleControl continuation result
  | .bulkIn result => do
      if (← get).pipes.bulkInAttached then
        handleBulkIn turn result
  | .interrupt result => do
      if (← get).pipes.interruptAttached then
        handleInterrupt turn result

/-- The state after the next completion of an occasion has been handed out, and that
completion. -/
def takeCompletion (moment : Moment) (engine : Engine τ) : Option Completion × Engine τ :=
  match Transport.next? moment engine.transport with
  | some (completion, transport) => (some completion, { engine with transport })
  | none => (none, engine)

/-- Deals with completions until there are no more, or as many as allowed have been dealt with.
Returns their number. -/
def drain (turn : Turn τ) (moment : Moment) : Nat → EngineM τ Nat
  | 0 => return 0
  | allowed + 1 => do
      match ← modifyGet (takeCompletion moment) with
      | none => return 0
      | some completion =>
          complete turn completion
          let others ← drain turn moment allowed
          return others + 1

/-- The number of completions that are delivered on one occasion at most. -/
def maxDeliveries : Nat := 0x100000000

/-- Deals with the completions of an occasion and returns their number. -/
def deliver (turn : Turn τ) (moment : Moment) : EngineM τ Nat :=
  drain turn moment maxDeliveries

end Engine

namespace Turn

variable {τ : Type} [Transport τ]

/-- Lets happen only what the transport hands out while polling is being started. -/
def direct : Turn τ
  | .polling => Engine.deliver busy .polling
  | _ => pure 0

/-- Waits for the event thread to deal with the completions of an occasion, if it is running. -/
def waiting : Turn τ :=
  fun moment ↦ do
    if (← get).pipes.eventThread then
      Engine.deliver busy moment
    else
      return 0

/-- What the application's thread lets happen while it deals with a completion itself. Polling is
started by initialization only, so every request that is made meanwhile is made during
initialization. -/
def answering : Turn τ
  | .request => waiting .initRequest
  | moment => waiting moment

/-- What the application's thread lets happen. -/
def application : Turn τ
  | .polling => Engine.deliver answering .polling
  | moment => waiting moment

end Turn

end I3cHost
