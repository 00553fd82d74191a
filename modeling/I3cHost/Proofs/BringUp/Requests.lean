import I3cHost.Proofs.BringUp.Actions
import I3cHost.Proofs.Engine.Hooks

/-!
# The requests of initialization

Initialization makes requests, and between them it lets other things happen and notes how far it has
come (`Interlude`). What else happens may make requests as well, but no hook that leaves
initialization alone makes one that only initialization makes (`Interlude.initiated`). Each
operation that initialization is made of succeeds only if it has made its request.
-/

namespace I3cHost.Engine

variable {τ : Type} {before between after engine : Engine τ} {record : TransportCall}

/-- Calls on the transport have been made since a state, of which those that only initialization
makes are the given ones. -/
def Initiated (before : Engine τ) (calls : List TransportCall) (after : Engine τ) : Prop :=
  ∃ made, after.trace.toList = before.trace.toList ++ made ∧ made.filter (·.initiates) = calls

/-- As long as nothing has happened no call has been made. -/
theorem Initiated.refl (engine : Engine τ) : Initiated engine [] engine :=
  ⟨[], (List.append_nil _).symm, List.filter_nil⟩

/-- The calls of two stretches of time are made one after the other. -/
theorem Initiated.trans {first later : List TransportCall} (h : Initiated before first between)
    (hafter : Initiated between later after) : Initiated before (first ++ later) after := by
  obtain ⟨made, hmade, rfl⟩ := h
  obtain ⟨others, hothers, rfl⟩ := hafter
  exact ⟨made ++ others, by rw [hothers, hmade, List.append_assoc], List.filter_append _ _⟩

/-- A stretch of time without calls that only initialization makes adds none. -/
theorem Initiated.then_nothing {calls : List TransportCall} (h : Initiated before calls between)
    (hafter : Initiated between [] after) : Initiated before calls after := by
  have hall := h.trans hafter
  rwa [List.append_nil] at hall

/-- A call counts if it is one that only initialization makes, whatever the transport does. -/
theorem initiated_push (transport : τ) (record : TransportCall) (engine : Engine τ) :
    Initiated engine ([record].filter (·.initiates))
      { engine with transport, trace := engine.trace.push record } :=
  ⟨[record], Array.toList_push, rfl⟩

/-- Something that initialization notes without making a request. -/
inductive Notes : Engine τ → Engine τ → Prop
  /-- How far it has come. -/
  | progress (engine : Engine τ) (change : BringUp → BringUp) :
      Notes engine (engine.onBringUp change)
  /-- Whether arrivals are announced. -/
  | announce (engine : Engine τ) (eventsEnabled : Bool) :
      Notes engine { engine with table := { engine.table with eventsEnabled } }
  /-- Whether the device manages the bus. -/
  | role (engine : Engine τ) (change : DeviceState → DeviceState) :
      Notes engine (onDeviceState change engine)
  | capability (engine : Engine τ) (report : CapabilityReport) :
      Notes engine (engine.withCapability report)
  /-- The targets that a capability report lists. -/
  | targets (engine : Engine τ) (buffer : Bytes) :
      Notes engine (engine.withTable (engine.table.mergeCapability buffer).2)
  | interruptStarted (engine : Engine τ) :
      Notes engine (engine.onPipes fun pipes ↦ { pipes with interruptStarted := true })
  | config (engine : Engine τ) (address : UInt8) (config : TargetConfig)
      (maxIbiPayload : UInt32) :
      Notes engine (engine.withTable
        ((TableOperation.updateConfig address config maxIbiPayload).apply engine.table))

/-- Whatever is noted, the ledger and the trace stay as they are. -/
theorem Notes.same (h : Notes before after) :
    after.ledger = before.ledger ∧ after.trace = before.trace := by
  cases h <;> exact ⟨rfl, rfl⟩

/-- What happens between two requests of initialization: it lets other things happen, and notes
something. -/
inductive Interlude (turn : Turn τ) (before : Engine τ) : Engine τ → Prop
  | rest : Interlude turn before before
  | wait {between : Engine τ} (h : Interlude turn before between) (moment : Moment) :
      Interlude turn before ((turn moment).exec between).2
  | note {between after : Engine τ} (h : Interlude turn before between)
      (hnotes : Notes between after) : Interlude turn before after

/-- Two interludes with no request in between are one. -/
theorem Interlude.trans {turn : Turn τ} (h : Interlude turn before between)
    (hafter : Interlude turn between after) : Interlude turn before after := by
  induction hafter with
  | rest => exact h
  | wait _ moment ih => exact ih.wait moment
  | note _ hnotes ih => exact ih.note hnotes

/-- What happens beside submissions and initialization makes no call that only initialization
makes. -/
theorem beside_initiated {calls : List TransportCall} :
    Beside fun engine : Engine τ ↦ Initiated before calls engine where
  stable between after hchange h := by
    cases hchange with
    | call transport record htransfer hinitiates =>
        have hcalled := initiated_push transport record between
        rw [List.filter_cons_of_neg (Bool.not_eq_true _ ▸ hinitiates)] at hcalled
        exact h.then_nothing hcalled
    | post event =>
        unfold post
        split <;> exact h
    | _ => exact h
  tracker _ _ _ h := h
  vendorHook _ _ h := h
  heard _ _ _ h := h

/-- A call on the transport is recorded once, whatever its result. -/
theorem initiated_call {α : Type} (record : TransportCall)
    (operation : StateM τ (TransportResult α)) (engine : Engine τ) :
    Initiated engine ([record].filter (·.initiates)) (call record operation engine).2 :=
  initiated_push _ record engine

variable [Transport τ]

/-- Whatever happens between two requests, if no hook initializes the device: none does afterwards,
and no call has been made that only initialization makes. -/
theorem Interlude.initiated (h : Interlude Turn.application before after)
    (hhooks : HooksIn Hook.SparesBringUp [] before) :
    HooksIn Hook.SparesBringUp [] after ∧ Initiated before [] after := by
  induction h with
  | rest => exact ⟨hhooks, .refl _⟩
  | wait _ moment ih =>
      refine sparing_application (Q := Initiated before []) beside_initiated (fun _ _ _ h ↦ h)
        (fun bytes engine h ↦ ?_) [] moment _ ih
      exact h.trans (initiated_call (.bulkOut bytes) (Transport.bulkOut bytes) engine)
  | note _ hnotes ih =>
      obtain ⟨hledger, htrace⟩ := hnotes.same
      obtain ⟨hspared, made, hmade, hinitiates⟩ := ih
      exact ⟨ofLedger_hooksIn _ _ hledger hspared, made, htrace ▸ hmade, hinitiates⟩

/-- A request of initialization that the transport accepts. -/
inductive Asks : Engine τ → TransportCall → Engine τ → Prop
  | submit {before after : Engine τ} (request : ClassRequest) (continuation : Continuation)
      (h : before.call (.submitControlIn request 0 maxControlInLength)
        (Transport.submitControlIn request 0 maxControlInLength continuation) = (.ok (), after)) :
      Asks before (.submitControlIn request 0 maxControlInLength) after
  | send {before after : Engine τ} (request : ClassRequest) (value : UInt16) (data : Bytes)
      (h : before.call (.controlOut request value data) (Transport.controlOut request value data) =
        (.ok (), after)) :
      Asks before (.controlOut request value data) after
  | pollAnswers {before after : Engine τ} (h : before.pollAnswers = (.ok (), after)) :
      Asks before (.startBulkIn before.bulkInSize) after
  | pollNotifications {before after : Engine τ} (h : before.pollNotifications = (.ok (), after)) :
      Asks before .startInterruptIn after

/-- An accepted request is recorded once, and leaves queue, tracker and hooks alone. -/
theorem Asks.initiated (h : Asks before record after) : after.ledger = before.ledger ∧
    Initiated before ([record].filter (·.initiates)) after := by
  have hcalled {α : Type} {result : TransportResult α} {record : TransportCall}
      {operation : StateM τ (TransportResult α)} {prepared : Engine τ}
      (hledger : prepared.ledger = before.ledger) (htrace : prepared.trace = before.trace)
      (h : prepared.call record operation = (result, after)) : after.ledger = before.ledger ∧
        Initiated before ([record].filter (·.initiates)) after := by
    obtain rfl : (prepared.call record operation).2 = after := congrArg Prod.snd h
    obtain ⟨made, hmade, hinitiates⟩ := initiated_call record operation prepared
    exact ⟨hledger, made, htrace ▸ hmade, hinitiates⟩
  cases h with
  | submit request continuation h => exact hcalled rfl rfl h
  | send request value data h => exact hcalled rfl rfl h
  | pollAnswers h => exact hcalled (by rfl) (by rfl) h
  | pollNotifications h => exact hcalled (by rfl) (by rfl) h

/-- A request that is made right away, and what happens until the next one. -/
def Issues (turn : Turn τ) (before : Engine τ) (record : TransportCall) (after : Engine τ) : Prop :=
  ∃ asked, Asks before record asked ∧ Interlude turn asked after

/-- A request that is made right away unless it is not needed, and what happens until the next
one. -/
def IssuesUnless (turn : Turn τ) (needless : Bool) (before : Engine τ) (record : TransportCall)
    (after : Engine τ) : Prop :=
  if needless then Interlude turn before after else Issues turn before record after

section Turn

variable {turn : Turn τ} {needless : Bool}

/-- What happens after a request lasts until the next one. -/
theorem Issues.trans (h : Issues turn before record between)
    (hafter : Interlude turn between after) : Issues turn before record after := by
  obtain ⟨asked, hasks, hinterlude⟩ := h
  exact ⟨asked, hasks, hinterlude.trans hafter⟩

/-- What happens after a request lasts until the next one, also if the request was not needed. -/
theorem IssuesUnless.trans (h : IssuesUnless turn needless before record between)
    (hafter : Interlude turn between after) : IssuesUnless turn needless before record after := by
  cases needless with
  | true => exact Interlude.trans h hafter
  | false => exact Issues.trans h hafter

end Turn

/-- If no hook initializes the device, an accepted request is the only call that counts, and no hook
does afterwards. -/
theorem Issues.initiated (h : Issues Turn.application before record after)
    (hhooks : HooksIn Hook.SparesBringUp [] before) : HooksIn Hook.SparesBringUp [] after ∧
      Initiated before ([record].filter (·.initiates)) after := by
  obtain ⟨asked, hasks, hinterlude⟩ := h
  obtain ⟨hledger, hasked⟩ := hasks.initiated
  obtain ⟨hafter, hnothing⟩ := hinterlude.initiated (ofLedger_hooksIn _ _ hledger hhooks)
  exact ⟨hafter, hasked.then_nothing hnothing⟩

/-- If no hook initializes the device, the only call that counts is the request, unless it was not
needed. -/
theorem IssuesUnless.initiated {needless : Bool}
    (h : IssuesUnless Turn.application needless before record after)
    (hhooks : HooksIn Hook.SparesBringUp [] before) : HooksIn Hook.SparesBringUp [] after ∧
      Initiated before (if needless then [] else [record].filter (·.initiates)) after := by
  cases needless with
  | true => exact Interlude.initiated h hhooks
  | false => exact Issues.initiated h hhooks

section Operations

variable {turn : Turn τ}

/-- Success is reported only where the transport has succeeded. -/
theorem mapError_eq_ok {result : TransportResult Unit}
    (h : result.mapError HostError.transport = .ok ()) : result = .ok () := by
  cases result with
  | error error => cases h
  | ok value => rfl

/-- A request for data whose answer comes later succeeds only if it has been made. -/
theorem issues_of_submitControlIn {request : ClassRequest} {continuation : Continuation}
    (h : (submitControlIn turn request continuation).exec engine = (.ok (), after)) :
    Issues turn engine (.submitControlIn request 0 maxControlInLength) after := by
  rw [EngineOp.exec_submitControlIn] at h
  rcases hcall : engine.call (.submitControlIn request 0 maxControlInLength)
    (Transport.submitControlIn request 0 maxControlInLength continuation)
    with ⟨error | ⟨⟩, called⟩
  · rw [hcall] at h
    cases h
  · rw [hcall] at h
    cases h
    exact ⟨called, .submit request continuation hcall, .wait .rest _⟩

/-- Sending data to the device succeeds only if that was asked of the transport. -/
theorem issues_of_controlOut {moment : Moment} {request : ClassRequest} {value : UInt16}
    {data : Bytes} (h : (controlOut turn moment request value data).exec engine = (.ok (), after)) :
    Issues turn engine (.controlOut request value data) after := by
  rw [EngineOp.exec_controlOut] at h
  obtain ⟨hresult, rfl⟩ := Prod.mk.inj h
  exact ⟨_, .send request value data (Prod.ext (mapError_eq_ok hresult) rfl), .wait .rest _⟩

/-- Polling for answers succeeds only if it was started, or answers were received already. -/
theorem issues_of_startBulkIn (h : (startBulkIn turn).exec engine = (.ok (), after)) :
    IssuesUnless turn engine.tracker.receiving engine (.startBulkIn engine.bulkInSize) after := by
  rw [exec_startBulkIn] at h
  unfold IssuesUnless
  split
  next hreceiving =>
    rw [if_pos hreceiving] at h
    cases h
    exact .rest
  next hreceiving =>
    rw [if_neg hreceiving] at h
    rcases hpoll : engine.pollAnswers with ⟨error | ⟨⟩, called⟩
    · rw [hpoll] at h
      cases h
    · rw [hpoll] at h
      cases h
      exact ⟨called, .pollAnswers hpoll, .wait .rest _⟩

/-- Polling for notifications succeeds only if it was started, now or earlier in the session. -/
theorem issues_of_startInterruptIn (h : (startInterruptIn turn).exec engine = (.ok (), after)) :
    IssuesUnless turn engine.pipes.interruptStarted engine .startInterruptIn after := by
  rw [exec_startInterruptIn] at h
  unfold IssuesUnless
  split
  next hstarted =>
    rw [if_pos hstarted] at h
    cases h
    exact .rest
  next hstarted =>
    rw [if_neg hstarted] at h
    rcases hpoll : engine.pollNotifications with ⟨error | ⟨⟩, called⟩
    · rw [hpoll] at h
      cases h
    · rw [hpoll] at h
      cases h
      exact ⟨called, .pollNotifications hpoll, .note (.wait .rest _) (.interruptStarted _)⟩

/-- Initializing the bus succeeds only with its request, which says whether the table has static
data. -/
theorem issues_of_initializeBus (h : (initializeBus turn).exec engine = (.ok (), after)) :
    Issues turn engine
      (.controlOut .initializeI3cBus (if engine.table.hasStatic then 1 else 0) []) after := by
  rw [exec_initializeBus] at h
  split at h
  · exact issues_of_controlOut h
  · cases h

omit [Transport τ] in
/-- Taking a capability report over makes no request, and afterwards the report is known. -/
theorem interlude_of_applyCapability {buffer : Bytes}
    (h : (applyCapability buffer).exec engine = (.ok (), after)) :
    Interlude turn engine after ∧ after.device.capability.isSome = true := by
  rw [exec_applyCapability] at h
  split at h
  · cases h
  next report _ =>
    split at h
    · cases h
      exact ⟨.note .rest (.capability engine report), rfl⟩
    · obtain ⟨-, rfl⟩ := Prod.mk.inj h
      exact ⟨.note (.note .rest (.capability engine report)) (.targets _ buffer), rfl⟩

omit [Transport τ] in
/-- Merging a listing succeeds only if the table takes it over, and changes nothing besides. -/
theorem merged_of_mergeListing {buffer : Bytes}
    (h : (mergeListing buffer).exec engine = (.ok (), after)) :
    ∃ added table, engine.table.mergeListing buffer = (.ok added, table) ∧
      after = engine.withTable table := by
  rw [exec_mergeListing] at h
  obtain ⟨hresult, rfl⟩ := Prod.mk.inj h
  rcases hmerge : engine.table.mergeListing buffer with ⟨error | added, table⟩
  · rw [hmerge] at hresult
    cases hresult
  · exact ⟨added, table, rfl, rfl⟩

omit [Transport τ] in
/-- Recording the configuration of devices makes no request. -/
theorem interlude_recordConfig (addresses : List UInt8) (config : TargetConfig)
    (maxIbiPayload : UInt32) (h : Interlude turn before engine) :
    Interlude turn before ((addresses.forM fun address ↦
      recordConfig address config maxIbiPayload).exec engine).2 := by
  induction addresses generalizing engine with
  | nil => exact h
  | cons address addresses ih =>
      show Interlude turn before ((do
        recordConfig address config maxIbiPayload
        addresses.forM fun address ↦ recordConfig address config maxIbiPayload :
          EngineOp τ Unit).exec engine).2
      rw [EngineOp.exec_bind, exec_recordConfig]
      have hnoted := h.note (.config engine address config maxIbiPayload)
      cases engine.table.updateConfig address config maxIbiPayload with
      | error error => exact hnoted
      | ok table => exact ih hnoted

/-- Configuring the targets succeeds only with the request, unless there is no target. -/
theorem issues_of_configureTargets (h : (configureTargets turn).exec engine = (.ok (), after)) :
    ∃ buffer, IssuesUnless turn engine.table.addresses.isEmpty engine
      (.controlOut .setTargetDeviceConfig 0 buffer) after := by
  rw [exec_configureTargets] at h
  unfold IssuesUnless
  split at h
  · cases h
  · dsimp only at h
    split
    next hempty =>
      rw [if_pos hempty] at h
      cases h
      exact ⟨[], .rest⟩
    next hempty =>
      rw [if_neg hempty] at h
      split at h
      · cases h
      next buffer _ =>
        obtain ⟨⟨⟩, told, htold, hrecord⟩ := EngineOp.exec_bind_eq_ok h
        refine ⟨buffer, (issues_of_controlOut htold).trans ?_⟩
        rw [show after = _ from (congrArg Prod.snd hrecord).symm]
        exact interlude_recordConfig _ _ _ .rest

end Operations

end I3cHost.Engine
