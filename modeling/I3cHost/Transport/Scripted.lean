import I3cHost.Transport.Basic

/-!
# A transport that follows a script

Every kind of call has a list of prepared replies. A call uses up the first reply of its list,
but the last one stays for ever; without a reply a call behaves in a default way. Completions wait
in a queue until the event thread asks for them. They are also delivered while a request made
during initialization is under way, and, where a reply says so, during a transfer to the bulk
endpoint.
-/

namespace I3cHost

/-- The prepared reply to a control request. Which parts matter depends on the kind of call. -/
structure ControlReply where
  /-- The data returned by a request for data. -/
  data : Option Bytes := none
  /-- The error with which the request ends. -/
  error : Option TransportError := none
  /-- The error with which a request for later data is refused at once. -/
  refusal : Option TransportError := none
  /-- Whether a request for later data never completes. -/
  silent : Bool := false
  /-- What happens when the request carries data to the device. -/
  events : List Completion := []

/-- The data with which a request for data ends, cut to what was asked for. A reply without data
or error stalls. -/
def ControlReply.result (reply : ControlReply) (maxLength : Nat) : TransportResult Bytes :=
  match reply.data, reply.error with
  | some data, _ => .ok (data.take maxLength)
  | none, some error => .error error
  | none, none => .error .stall

/-- The prepared reply to a transfer to the bulk endpoint. -/
structure BulkOutReply where
  /-- Completions that the transfer causes. -/
  events : List Completion := []
  /-- Completions that are delivered before the call returns. -/
  early : List Completion := []
  error : Option TransportError := none
  /-- The number of bytes accepted; all of them when missing. -/
  written : Option Nat := none

/-- The prepared reply to the start of polling. -/
structure PollingReply where
  /-- Completions that are delivered before the call returns. -/
  during : List Completion := []
  error : Option TransportError := none

/-- A transport that follows a script. -/
structure ScriptedTransport where
  packetSize : Nat := 512
  control : ClassRequest → List ControlReply := fun _ ↦ []
  bulkOut : List BulkOutReply := []
  startBulkIn : List PollingReply := []
  startInterruptIn : List PollingReply := []
  /-- Completions that wait for the event thread. -/
  queue : List Completion := []
  /-- Completions that are delivered before polling has been started. -/
  direct : List Completion := []
  /-- Whether the latest transfer to the bulk endpoint delivers the queue before it returns. -/
  early : Bool := false

namespace ScriptedTransport

/-- The reply to the next call of a kind, and the replies that remain. -/
def nextReply {α : Type} [Inhabited α] : List α → α × List α
  | [] => (default, [])
  | [reply] => (reply, [reply])
  | reply :: replies => (reply, replies)

instance : Inhabited ControlReply := ⟨{}⟩

instance : Inhabited BulkOutReply := ⟨{}⟩

instance : Inhabited PollingReply := ⟨{}⟩

/-- Puts completions at the end of the queue. -/
def push (completions : List Completion) (transport : ScriptedTransport) : ScriptedTransport :=
  { transport with queue := transport.queue ++ completions }

/-- Replaces the replies to a control request. -/
def setControl (request : ClassRequest) (replies : List ControlReply)
    (transport : ScriptedTransport) : ScriptedTransport :=
  { transport with
    control := fun other ↦ if other = request then replies else transport.control other }

/-- Uses up the reply to a control request. -/
def controlReply (request : ClassRequest) : StateM ScriptedTransport ControlReply := do
  let (reply, replies) := nextReply ((← get).control request)
  modify (setControl request replies)
  return reply

/-- Success, unless there is an error. -/
def outcome {α : Type} (value : α) : Option TransportError → TransportResult α
  | none => .ok value
  | some error => .error error

instance : Transport ScriptedTransport where
  maxPacketSize transport := transport.packetSize
  controlIn request _ maxLength := do
    return (← controlReply request).result maxLength
  submitControlIn request _ maxLength continuation := do
    let reply ← controlReply request
    match reply.refusal with
    | some error => return .error error
    | none =>
        if !reply.silent then
          modify (push [.control continuation (reply.result maxLength)])
        return .ok ()
  controlOut request _ _ := do
    let reply ← controlReply request
    modify (push reply.events)
    return outcome () reply.error
  bulkOut data := do
    let (reply, replies) := nextReply (← get).bulkOut
    modify fun transport ↦
      { transport.push (reply.events ++ reply.early) with
        bulkOut := replies, early := !reply.early.isEmpty }
    return outcome (reply.written.getD data.length) reply.error
  startBulkIn _ := do
    let (reply, replies) := nextReply (← get).startBulkIn
    modify fun transport ↦ { transport with startBulkIn := replies, direct := reply.during }
    return outcome () reply.error
  startInterruptIn := do
    let (reply, replies) := nextReply (← get).startInterruptIn
    modify fun transport ↦ { transport with startInterruptIn := replies, direct := reply.during }
    return outcome () reply.error
  next? moment transport :=
    let ofQueue : Option (Completion × ScriptedTransport) :=
      match transport.queue with
      | [] => none
      | completion :: rest => some (completion, { transport with queue := rest })
    match moment with
    | .waiting => ofQueue
    | .initRequest => ofQueue
    | .request => none
    | .bufferQuery => none
    | .bulkOut => if transport.early then ofQueue else none
    | .polling =>
        match transport.direct with
        | [] => none
        | completion :: rest => some (completion, { transport with direct := rest })

end ScriptedTransport

end I3cHost
