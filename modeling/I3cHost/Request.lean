import I3cHost.Bulk.Response
import I3cHost.Error

/-!
# Requests in flight

A submitted command is tracked until its answer arrives. The callback then decides whether the
request is forgotten or kept together with its answer until somebody takes it. Identifiers are
sixteen bits wide and wrap around, so a request is found by its identifier among those that still
wait. What a callback does besides deciding is not the tracker's business: finding the request
(`takePending`) and settling it (`settle`) are separate steps.
-/

namespace I3cHost

/-- A submitted command that waits for its answer, or was kept together with it. -/
structure TrackedRequest (κ : Type) where
  id : UInt16
  dependent : Bool
  callback : κ
  response : Option CommandResponse := none

/-- A tracked request as shown to others, without its callback. -/
structure RequestRecord where
  id : UInt16
  dependent : Bool
  response : Option CommandResponse
  deriving DecidableEq

/-- The requests in flight and the ones kept. -/
structure Tracker (κ : Type) where
  /-- The identifier of the next command to be submitted. -/
  nextId : UInt16 := 0
  requests : Array (TrackedRequest κ) := #[]
  /-- Whether answers can arrive. -/
  receiving : Bool := false

namespace RequestRecord

/-- The parts of a record by name. -/
def describe (record : RequestRecord) : String :=
  Text.labelled "RegularRequest" [("request_id", toString record.id.toNat),
    ("dependent_on_previous", Text.truth record.dependent),
    ("response", Text.optional (record.response.map CommandResponse.describe))]

end RequestRecord

namespace TrackedRequest

variable {κ : Type}

/-- Whether the request still waits for its answer. -/
def isPending (request : TrackedRequest κ) : Bool :=
  request.response.isNone

/-- The request without its callback. -/
def record (request : TrackedRequest κ) : RequestRecord :=
  ⟨request.id, request.dependent, request.response⟩

end TrackedRequest

namespace Tracker

variable {κ : Type}

/-- Refuses to send anything while no answer could arrive. -/
def ensureReceiving (tracker : Tracker κ) : HostResult Unit :=
  if tracker.receiving then .ok () else .error (.state .responsesNotReceived)

/-- Tracks requests behind those tracked already. -/
def track (tracker : Tracker κ) (requests : Array (TrackedRequest κ)) : Tracker κ :=
  { tracker with requests := tracker.requests ++ requests }

/-- Uses up identifiers. -/
def advance (tracker : Tracker κ) (count : Nat) : Tracker κ :=
  { tracker with nextId := tracker.nextId + UInt16.ofNat count }

/-- Whether an identifier is one of a number of consecutive ones. -/
def inBatch (first : UInt16) (count : Nat) (id : UInt16) : Bool :=
  (id - first).toNat < count

/-- Takes back the requests that wait under one of a number of consecutive identifiers. -/
def withdraw (tracker : Tracker κ) (first : UInt16) (count : Nat) :
    Array (TrackedRequest κ) × Tracker κ :=
  let belongs (request : TrackedRequest κ) : Bool :=
    request.isPending && inBatch first count request.id
  (tracker.requests.filter belongs,
    { tracker with requests := tracker.requests.filter fun request ↦ !belongs request })

/-- Takes the first request that waits under an identifier. -/
def takePending (tracker : Tracker κ) (id : UInt16) : Option (TrackedRequest κ × Tracker κ) := do
  let index ← tracker.requests.findIdx? fun request ↦ request.id == id && request.isPending
  let request ← tracker.requests[index]?
  return (request, { tracker with requests := tracker.requests.eraseIdxIfInBounds index })

/-- Takes all requests that wait. -/
def takeAllPending (tracker : Tracker κ) : Array (TrackedRequest κ) × Tracker κ :=
  (tracker.requests.filter (·.isPending),
    { tracker with requests := tracker.requests.filter (!·.isPending) })

/-- Puts an answered request behind all others, together with its answer, if it is to be kept. -/
def settle (tracker : Tracker κ) (request : TrackedRequest κ) (response : CommandResponse)
    (keep : Bool) : Tracker κ :=
  if keep then
    { tracker with requests := tracker.requests.push { request with response } }
  else
    tracker

/-- Forgets the first request kept under an identifier and returns its answer. -/
def takeRetained (tracker : Tracker κ) (id : UInt16) : Option (CommandResponse × Tracker κ) := do
  let index ← tracker.requests.findIdx? fun request ↦ request.id == id && !request.isPending
  let response ← (← tracker.requests[index]?).response
  return (response, { tracker with requests := tracker.requests.eraseIdxIfInBounds index })

/-- The answer held by the first request with an identifier. -/
def retained (tracker : Tracker κ) (id : UInt16) : Option CommandResponse := do
  (← tracker.requests.find? fun request ↦ request.id == id).response

/-- The number of requests that wait. -/
def pendingCount (tracker : Tracker κ) : Nat :=
  tracker.requests.countP (·.isPending)

/-- The number of requests that wait or are kept. -/
def trackedCount (tracker : Tracker κ) : Nat :=
  tracker.requests.size

/-- The tracked requests in tracking order. -/
def records (tracker : Tracker κ) : List RequestRecord :=
  tracker.requests.toList.map (·.record)

end Tracker

end I3cHost
