import I3cHost.Proofs.BringUp.Arrivals
import I3cHost.Proofs.Target.Acceptance

/-!
# What notifications do

The event thread reacts to records from the interrupt endpoint and to the data of the requests that
it makes in answer to them. Each record does what it says and nothing more: it makes one request, or
posts one event, or does nothing. The table changes only with data that is accepted. What a list of
completions does altogether, in whatever order they come, is therefore read off the list
(`after_completions`).
-/

namespace I3cHost

/-- The meaning of a record from the interrupt endpoint, if it has one. -/
def NotificationKind.read? (data : Bytes) : Option NotificationKind :=
  (Message.decode data : CodecResult Notification).toOption.bind (·.kind.toOption)

/-- The request that is made in answer to a notification, if any, and what is done with its data. -/
def NotificationKind.fetch? : NotificationKind → Option (ClassRequest × Continuation)
  | .addressChange .hotJoinSucceeded => some (.getTargetDeviceTable, .hotJoinListing)
  | .addressChange .allSucceeded => some (.getAddressChangeResult, .addressChanges)
  | .addressChange .someFailed => some (.getAddressChangeResult, .addressChanges)
  | _ => none

/-- The outcome of initializing the bus that a notification reports, if any. -/
def NotificationKind.status? : NotificationKind → Option BusInitCode
  | .busInitialization code => some code
  | _ => none

namespace Completion

/-- Whether a completion is a notification, or of a request that is made in answer to one. -/
def isNotice : Completion → Bool
  | .interrupt _ => true
  | .control .hotJoinListing _ => true
  | .control .addressChanges _ => true
  | _ => false

/-- The notification that a completion brings, if any. -/
def notification? : Completion → Option NotificationKind
  | .interrupt (.ok data) => NotificationKind.read? data
  | _ => none

/-- The request that is made in answer to a completion, if any. -/
def request? (completion : Completion) : Option TransportCall :=
  (completion.notification?.bind NotificationKind.fetch?).map
    fun (request, _) ↦ .submitControlIn request 0 maxControlInLength

/-- The event that is posted in answer to a completion, if any. -/
def event? (completion : Completion) : Option InitEvent :=
  (completion.notification?.bind NotificationKind.status?).map .busInitStatus

/-- What a completion makes of the table, if it is successful and its data is accepted. -/
def update? (table : TargetTable) : Completion → Option TargetTable
  | .control .hotJoinListing (.ok buffer) =>
      match table.mergeListing buffer with
      | (.ok _, merged) => some merged
      | (.error _, _) => none
  | .control .addressChanges (.ok buffer) =>
      match table.applyAddressChanges buffer with
      | (.ok _, moved) => some moved
      | (.error _, _) => none
  | _ => none

/-- What is known of the targets and what has been reported after a completion: the same as before,
unless the completion makes something of the table. Then arrivals are reported as well. -/
def tell (known : TargetTable × Array Notice) (completion : Completion) :
    TargetTable × Array Notice :=
  match completion.update? known.1 with
  | some table => ({ table with arrivals := #[] }, known.2 ++ table.arrivals.map Notice.arrival)
  | none => known

end Completion

namespace Engine

variable {τ : Type} {engine : Engine τ}

/-- The state after completions have been dealt with. -/
def informed (transport : τ) (completions : List Completion) (engine : Engine τ) : Engine τ :=
  { engine with
    transport
    trace := engine.trace ++ (completions.filterMap Completion.request?).toArray
    bringUp :=
      { engine.bringUp with
        posted := engine.bringUp.posted ++ completions.filterMap Completion.event? }
    table := (completions.foldl Completion.tell (engine.table, engine.journal)).1
    journal := (completions.foldl Completion.tell (engine.table, engine.journal)).2 }

/-- Completions are dealt with one after the other. -/
theorem informed_cons (transport next : τ) (completion : Completion)
    (completions : List Completion) : engine.informed next (completion :: completions) =
      (engine.informed transport [completion]).informed next completions := by
  have hcons {α : Type} (part? : Completion → Option α) :
      (completion :: completions).filterMap part? =
        [completion].filterMap part? ++ completions.filterMap part? :=
    List.filterMap_append (l := [completion])
  simp only [informed, hcons, List.foldl_cons, List.foldl_nil, List.append_assoc,
    Array.append_assoc, List.append_toArray]

/-- Without completions nothing changes. -/
theorem informed_nil (engine : Engine τ) : engine.informed engine.transport [] = engine := by
  simp only [informed, List.filterMap_nil, List.foldl_nil, List.append_nil, Array.append_empty]

/-- What a completion of the interrupt endpoint does depends on the notification that it brings. -/
theorem informed_interrupt {result : TransportResult Bytes} {kind? : Option NotificationKind}
    (h : (Completion.interrupt result).notification? = kind?) (transport : τ) (engine : Engine τ) :
    engine.informed transport [.interrupt result] = { engine with
      transport
      trace := engine.trace ++ ((kind?.bind NotificationKind.fetch?).map fun (request, _) ↦
        TransportCall.submitControlIn request 0 maxControlInLength).toList.toArray
      bringUp :=
        { engine.bringUp with
          posted := engine.bringUp.posted ++
            ((kind?.bind NotificationKind.status?).map InitEvent.busInitStatus).toList } } := by
  have hsingle {α : Type} (part? : Completion → Option α) (completion : Completion) :
      [completion].filterMap part? = (part? completion).toList := by
    cases hpart : part? completion with
    | none => rw [List.filterMap_cons_none hpart]; rfl
    | some part => rw [List.filterMap_cons_some hpart]; rfl
  simp only [informed, hsingle, Completion.request?, Completion.event?, h]
  rfl

/-- A completion that neither makes a request nor posts an event only tells of targets. -/
theorem informed_control (continuation : Continuation) (result : TransportResult Bytes)
    (engine : Engine τ) : engine.informed engine.transport [.control continuation result] =
      { engine with
        table := ((Completion.control continuation result).tell (engine.table, engine.journal)).1
        journal :=
          ((Completion.control continuation result).tell (engine.table, engine.journal)).2 } := by
  have hrequest : [Completion.control continuation result].filterMap Completion.request? = [] :=
    List.filterMap_cons_none rfl
  have hevent : [Completion.control continuation result].filterMap Completion.event? = [] :=
    List.filterMap_cons_none rfl
  simp only [informed, hrequest, hevent, List.append_nil, Array.append_empty]
  rfl

/-- Notifications are dealt with, and requests can be made in answer to them. -/
structure Alert (live : τ → Prop) (engine : Engine τ) : Prop where
  live : live engine.transport
  attached : engine.pipes.interruptAttached = true
  linked : engine.pipes.linked = true
  listening : engine.bringUp.listening = true
  /-- All that was announced has been reported. -/
  flushed : engine.table.arrivals = #[]

variable {live : τ → Prop}

/-- What the table announces is reported at once. -/
theorem Completion.flushed_tell {known : TargetTable × Array Notice}
    (h : known.1.arrivals = #[]) (completion : Completion) :
    (completion.tell known).1.arrivals = #[] := by
  unfold Completion.tell
  split
  · rfl
  · exact h

/-- A session that deals with notifications still does after any of them. -/
theorem Alert.informed (h : Alert live engine) {transport : τ} (hlive : live transport)
    (completion : Completion) : Alert live (engine.informed transport [completion]) :=
  ⟨hlive, h.attached, h.linked, h.listening, Completion.flushed_tell h.flushed completion⟩

/-- The outcome of an operation on the table, with the arrivals that it announced, if it leaves the
table as it was when it is refused. -/
theorem Alert.withTable (h : Alert live engine) (completion : Completion)
    {outcome : HostResult Nat × TargetTable}
    (hupdate : completion.update? engine.table =
      match outcome with
      | (.ok _, next) => some next
      | (.error _, _) => none)
    (hrefused : (∃ count next, outcome = (.ok count, next)) ∨
      ∃ error, outcome = (.error error, engine.table)) :
    engine.withTable outcome.2 = { engine with
      table := (completion.tell (engine.table, engine.journal)).1
      journal := (completion.tell (engine.table, engine.journal)).2 } := by
  rcases hrefused with ⟨count, next, rfl⟩ | ⟨error, rfl⟩
  · rw [Completion.tell, hupdate]
    rfl
  · have hflushed : ({ engine.table with arrivals := #[] } : TargetTable) = engine.table := by
      rw [← h.flushed]
    rw [Completion.tell, hupdate, Engine.withTable, hflushed, h.flushed]
    simp

variable [Transport τ]

/-- Every request that is made in answer to a notification is accepted. -/
def Heeding (live : τ → Prop) : Prop :=
  ∀ kind request continuation, NotificationKind.fetch? kind = some (request, continuation) →
    ∀ transport, live transport → ∃ next, live next ∧
      (Transport.submitControlIn request 0 maxControlInLength continuation).run transport =
        (.ok (), next)

/-- While requests are accepted one is made, and nothing else happens. -/
theorem exec_fetch (h : Alert live engine) (hheeding : Heeding live) {kind : NotificationKind}
    {request : ClassRequest} {continuation : Continuation}
    (hfetch : kind.fetch? = some (request, continuation)) : ∃ transport, live transport ∧
      (fetch Turn.busy request continuation).exec engine = (.ok (), { engine with
        transport
        trace := engine.trace.push (.submitControlIn request 0 maxControlInLength) }) := by
  obtain ⟨next, hlive, hsubmit⟩ := hheeding kind request continuation hfetch _ h.live
  refine ⟨next, hlive, ?_⟩
  unfold fetch
  rw [EngineOp.exec_bind, EngineOp.exec_get]
  dsimp only
  rw [if_pos h.linked, EngineOp.exec_submitControlIn, call, hsubmit]
  rfl

/-- What is done for a record is decided by its meaning alone. -/
theorem exec_handleNotification_eq (turn : Turn τ) (data : Bytes) (engine : Engine τ) :
    ((handleNotification turn data).exec engine).2 =
      match NotificationKind.read? data with
      | none => engine
      | some (.busInitialization code) => (post (.busInitStatus code) engine).2
      | some (.addressChange code) =>
          match (NotificationKind.addressChange code).fetch? with
          | none => engine
          | some (request, continuation) => ((fetch turn request continuation).exec engine).2 := by
  unfold handleNotification NotificationKind.read?
  rw [EngineOp.exec_bind, EngineOp.exec_ofResult]
  cases (Message.decode data : CodecResult Notification) with
  | error error => rfl
  | ok notification =>
      show (EngineOp.exec (do
        let kind ← ofResult (.ofCodec notification.kind)
        _) engine).2 = match notification.kind.toOption with
          | none => engine
          | some (.busInitialization code) => (post (.busInitStatus code) engine).2
          | some (.addressChange code) =>
              match (NotificationKind.addressChange code).fetch? with
              | none => engine
              | some (request, continuation) => ((fetch turn request continuation).exec engine).2
      rw [EngineOp.exec_bind, EngineOp.exec_ofResult]
      cases notification.kind with
      | error error => rfl
      | ok kind =>
          cases kind with
          | busInitialization code => rfl
          | addressChange code => cases code <;> rfl

/-- A completion of the interrupt endpoint makes its request, or posts its event, or does
nothing. -/
theorem exec_handleInterrupt (h : Alert live engine) (hheeding : Heeding live)
    (result : TransportResult Bytes) : ∃ transport, live transport ∧
      ((handleInterrupt Turn.busy result).exec engine).2 =
        engine.informed transport [.interrupt result] := by
  cases result with
  | error error =>
      refine ⟨engine.transport, h.live, ?_⟩
      have hnotification : (Completion.interrupt (.error error)).notification? = none := rfl
      rw [informed_interrupt hnotification]
      simp [handleInterrupt]
  | ok data =>
      show ∃ transport, live transport ∧ ((handleNotification Turn.busy data).exec engine).2 = _
      rw [exec_handleNotification_eq]
      have hnotification : (Completion.interrupt (.ok data)).notification? =
          NotificationKind.read? data := rfl
      cases hread : NotificationKind.read? data with
      | none =>
          refine ⟨engine.transport, h.live, ?_⟩
          rw [informed_interrupt (hnotification.trans hread)]
          simp
      | some kind =>
          cases hfetch : kind.fetch? with
          | some fetched =>
              obtain ⟨request, continuation⟩ := fetched
              obtain ⟨next, hnext, hfetched⟩ := exec_fetch h hheeding hfetch
              refine ⟨next, hnext, ?_⟩
              rw [informed_interrupt (hnotification.trans hread)]
              cases kind with
              | busInitialization code => cases hfetch
              | addressChange code =>
                  simp only [hfetch, hfetched]
                  simp [hfetch, NotificationKind.status?]
          | none =>
              refine ⟨engine.transport, h.live, ?_⟩
              rw [informed_interrupt (hnotification.trans hread)]
              cases kind with
              | busInitialization code =>
                  dsimp only
                  rw [post, if_pos h.listening]
                  simp [hfetch, NotificationKind.status?, onBringUp]
              | addressChange code => simp [hfetch, NotificationKind.status?]

omit [Transport τ] in
/-- A completion of a request that was made in answer to a notification changes the table if its
data is accepted, and does nothing otherwise. -/
theorem exec_handleControl (h : Alert live engine) {continuation : Continuation}
    (hcontinuation : continuation = .hotJoinListing ∨ continuation = .addressChanges)
    (result : TransportResult Bytes) : ((handleControl continuation result).exec engine).2 =
      engine.informed engine.transport [.control continuation result] := by
  rw [informed_control]
  rcases hcontinuation with rfl | rfl
  · cases result with
    | error error => rfl
    | ok buffer =>
        exact h.withTable (.control .hotJoinListing (.ok buffer)) rfl
          (engine.table.mergeListing_accepted_or_refused buffer)
  · cases result with
    | error error => rfl
    | ok buffer =>
        exact h.withTable (.control .addressChanges (.ok buffer)) rfl
          (engine.table.applyAddressChanges_accepted_or_refused buffer)

/-- Every completion that is a notification, or of a request that was made in answer to one. -/
theorem exec_complete_notice (h : Alert live engine) (hheeding : Heeding live)
    {completion : Completion} (hnotice : completion.isNotice = true) : ∃ transport,
      live transport ∧ ((complete Turn.busy completion).exec engine).2 =
        engine.informed transport [completion] := by
  cases completion with
  | bulkIn result => cases hnotice
  | interrupt result =>
      unfold complete
      rw [EngineM.exec_bind, EngineM.exec_get]
      dsimp only
      rw [if_pos h.attached]
      exact exec_handleInterrupt h hheeding result
  | control continuation result =>
      refine ⟨engine.transport, h.live, exec_handleControl h ?_ result⟩
      cases continuation with
      | hotJoinListing => exact .inl rfl
      | addressChanges => exact .inr rfl
      | _ => cases hnotice

/-- Many completions. -/
theorem exec_completions (h : Alert live engine) (hheeding : Heeding live)
    {completions : List Completion} (hnotices : ∀ completion ∈ completions,
      completion.isNotice = true) : ∃ transport, live transport ∧
      engine.after (completions.map .completion) = engine.informed transport completions := by
  induction completions generalizing engine with
  | nil => exact ⟨engine.transport, h.live, (informed_nil engine).symm⟩
  | cons completion completions ih =>
      obtain ⟨hnotice, hnotices⟩ := List.forall_mem_cons.1 hnotices
      obtain ⟨transport, hlive, hcomplete⟩ := exec_complete_notice h hheeding hnotice
      obtain ⟨last, hlast, hafter⟩ := ih (h.informed hlive completion) hnotices
      refine ⟨last, hlast, ?_⟩
      rw [informed_cons transport, ← hafter, ← hcomplete]
      rfl

/-- All that was announced has been reported, and somebody processes posted events. -/
structure Attentive (engine : Engine τ) : Prop where
  flushed : engine.table.arrivals = #[]
  listening : engine.bringUp.listening = true

omit [Transport τ] in
/-- Posting an event leaves somebody to process it. -/
theorem Attentive.post (h : Attentive engine) (event : InitEvent) :
    Attentive (Engine.post event engine).2 := by
  unfold Engine.post
  split <;> exact ⟨h.flushed, h.listening⟩

omit [Transport τ] in
/-- What happens beside initialization leaves nothing unreported. -/
theorem stable_attentive : Stable (Attentive : Engine τ → Prop) := by
  intro before after hchange h
  cases hchange with
  | post event => exact h.post event
  | table operation => exact ⟨rfl, h.listening⟩
  | _ => exact ⟨h.flushed, h.listening⟩

omit [Transport τ] in
/-- Initialization leaves nothing unreported, and posted events processed. -/
theorem permanent_attentive : Permanent (Attentive : Engine τ → Prop) where
  durable :=
    { stable := stable_attentive
      step := fun before after hstep h ↦ by
        cases hstep with
        | mergeCapability buffer => exact ⟨rfl, h.listening⟩
        | _ => exact ⟨h.flushed, h.listening⟩ }
  post event engine h := h.post event
  role _ _ h := ⟨h.flushed, h.listening⟩
  events _ _ h := ⟨h.flushed, h.listening⟩
  progress _ _ _ h := ⟨h.flushed, h.listening⟩

omit [Transport τ] in
/-- What becomes of answers has nothing to do with what the table announces. -/
theorem beside_attentive : Beside (Attentive : Engine τ → Prop) where
  stable := stable_attentive
  tracker _ _ _ h := ⟨h.flushed, h.listening⟩
  vendorHook _ _ h := ⟨h.flushed, h.listening⟩
  heard _ _ _ h := ⟨h.flushed, h.listening⟩

omit [Transport τ] in
/-- A session that was opened has nothing to report, and processes posted events. -/
theorem attentive_ofTransport {transport : τ} {options : SessionOptions} {session : Engine τ}
    (h : Session.ofTransport transport options = .ok session) : Attentive session := by
  refine ⟨(silent_ofTransport h).2, ?_⟩
  obtain ⟨table, rfl⟩ := exists_of_ofTransport h
  rfl

/-- In every history of a session, while notifications are handed to it, its transport is there, and
the transport accepts the requests that are made in answer to notifications: whatever completions of
the interrupt endpoint there are, and of those requests, in whatever order and with whatever
results, each notification of a hot join makes one request for the listing of targets, and each of
moved targets one for the moves, in this order, and nothing else makes a request. The outcomes of
initializing the bus are posted in the order in which they come, and nothing else is. The table
changes, and arrivals are reported, only with data of a request that is accepted. Everything else
stays as it was. -/
theorem after_completions {transport : τ} {options : SessionOptions} {session : Engine τ}
    (h : Session.ofTransport transport options = .ok session) {events : List (Event τ)}
    (hattached : (session.after events).pipes.interruptAttached = true)
    (hlinked : (session.after events).pipes.linked = true) {live : τ → Prop}
    (hlive : live (session.after events).transport) (hheeding : Heeding live)
    {completions : List Completion}
    (hnotices : ∀ completion ∈ completions, completion.isNotice = true) :
    let engine := session.after events
    ∃ transport, live transport ∧ engine.after (completions.map .completion) = { engine with
      transport
      trace := engine.trace ++ (completions.filterMap Completion.request?).toArray
      bringUp :=
        { engine.bringUp with
          posted := engine.bringUp.posted ++ completions.filterMap Completion.event? }
      table := (completions.foldl Completion.tell (engine.table, engine.journal)).1
      journal := (completions.foldl Completion.tell (engine.table, engine.journal)).2 } := by
  intro engine
  have hattentive : Attentive engine :=
    permanent_after permanent_attentive beside_attentive
      (fun _ _ _ h ↦ ⟨h.flushed, h.listening⟩) (fun _ _ h ↦ ⟨h.flushed, h.listening⟩)
      (attentive_ofTransport h) events
  exact exec_completions ⟨hlive, hattached, hlinked, hattentive.listening, hattentive.flushed⟩
    hheeding hnotices

/-- A scripted transport accepts all requests that are made in answer to notifications. -/
def Reliable (transport : ScriptedTransport) : Prop :=
  ∀ request ∈ [ClassRequest.getTargetDeviceTable, .getAddressChangeResult],
    ∀ reply ∈ transport.control request, reply.refusal.isNone = true

/-- A scripted transport that never refuses these requests accepts them for ever. -/
theorem heeding_reliable : Heeding Reliable := by
  intro kind request continuation hfetch transport hlive
  have hrequest : request ∈ [ClassRequest.getTargetDeviceTable, .getAddressChangeResult] := by
    cases kind with
    | busInitialization code => cases hfetch
    | addressChange code => cases code <;> cases hfetch <;> simp
  obtain ⟨hreply, hothers⟩ : (ScriptedTransport.nextReply (transport.control request)).1.refusal =
      none ∧ ∀ reply ∈ (ScriptedTransport.nextReply (transport.control request)).2,
        reply.refusal.isNone = true := by
    have hreplies := hlive request hrequest
    generalize transport.control request = replies at hreplies ⊢
    rcases replies with _ | ⟨reply, _ | ⟨other, others⟩⟩
    · exact ⟨rfl, List.forall_mem_nil _⟩
    · exact ⟨Option.isNone_iff_eq_none.1 (hreplies reply (.head _)), hreplies⟩
    · obtain ⟨hreply, hothers⟩ := List.forall_mem_cons.1 hreplies
      exact ⟨Option.isNone_iff_eq_none.1 hreply, hothers⟩
  have hleft : Reliable (transport.setControl request
      (ScriptedTransport.nextReply (transport.control request)).2) := by
    intro other hother reply hmem
    by_cases hsame : other = request
    · exact hothers reply (by simpa [ScriptedTransport.setControl, hsame] using hmem)
    · exact hlive other hother reply (by simpa [ScriptedTransport.setControl, hsame] using hmem)
  have hused : (ScriptedTransport.controlReply request).run transport =
      ((ScriptedTransport.nextReply (transport.control request)).1,
        transport.setControl request
          (ScriptedTransport.nextReply (transport.control request)).2) := rfl
  dsimp only [Transport.submitControlIn]
  rw [StateT.run_bind, hused]
  dsimp only [bind]
  rw [hreply]
  -- The data may be delivered later or not at all.
  cases (ScriptedTransport.nextReply (transport.control request)).1.silent with
  | true => exact ⟨_, hleft, rfl⟩
  | false => exact ⟨_, by exact hleft, rfl⟩

/-- Completions of which one is a hot join and one the outcome of initializing the bus; the others
are malformed, failed, or both of no concern. -/
def hotJoin : List Completion :=
  [.interrupt (.ok (Record.toBytes (Notification.ofAddressChange .hotJoinSucceeded))),
    .interrupt (.ok [7]), .interrupt (.error .stall), .control .addressChanges (.error .stall),
    .interrupt (.ok (Record.toBytes (Notification.ofBusInit .deviceDiscoveryFailed)))]

/-- One request is made, and one event posted. -/
theorem after_hotJoin :
    let engine := lostBus.after [.call .bringUp]
    Session.ofTransport lostBus.transport {} = .ok lostBus ∧
      engine.pipes.interruptAttached = true ∧ engine.pipes.linked = true ∧
      Reliable engine.transport ∧ (∀ completion ∈ hotJoin, completion.isNotice = true) ∧
      (engine.after (hotJoin.map .completion)).trace =
        engine.trace ++ #[.submitControlIn .getTargetDeviceTable 0 maxControlInLength] ∧
      (engine.after (hotJoin.map .completion)).bringUp.posted =
        engine.bringUp.posted ++ [.busInitStatus .deviceDiscoveryFailed] := by
  intro engine
  have hopened : Session.ofTransport lostBus.transport {} = .ok lostBus := rfl
  have hattached : engine.pipes.interruptAttached = true := by decide +kernel
  have hlinked : engine.pipes.linked = true := by decide +kernel
  have hreliable : Reliable engine.transport := by
    show ∀ request ∈ [ClassRequest.getTargetDeviceTable, .getAddressChangeResult],
      ∀ reply ∈ engine.transport.control request, reply.refusal.isNone = true
    decide +kernel
  have hnotices : ∀ completion ∈ hotJoin, completion.isNotice = true := by
    simp [hotJoin, Completion.isNotice]
  have hrequests : hotJoin.filterMap Completion.request? =
      [.submitControlIn .getTargetDeviceTable 0 maxControlInLength] := by decide +kernel
  have hevents : hotJoin.filterMap Completion.event? = [.busInitStatus .deviceDiscoveryFailed] := by
    decide +kernel
  -- The rest holds of any session; on this one the checker would run it to compare terms.
  subst engine
  generalize lostBus = session at hopened hattached hlinked hreliable ⊢
  obtain ⟨transport, -, hafter⟩ :=
    after_completions hopened hattached hlinked hreliable heeding_reliable hnotices
  refine ⟨hopened, hattached, hlinked, hreliable, hnotices, ?_, ?_⟩
  · rw [hafter, hrequests]
  · rw [hafter, hevents]

end Engine

end I3cHost
