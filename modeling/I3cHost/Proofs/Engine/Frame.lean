import I3cHost.Engine.Calls
import I3cHost.Engine.Notifications
import I3cHost.Proofs.Engine.Preservation
import I3cHost.Proofs.Target.Integrity

/-!
# What initialization and the calls about targets leave alone

Only submissions and answers touch the queue, the tracked requests, the hook for vendor-specific
transfers and what callbacks have heard, and only submissions write to the bulk endpoint. What
happens beside them is a small number of changes, some of which only initialization makes
(`Interference`, `InitStep`). A property that survives these changes survives all that they are
made of, whatever the calling thread lets happen meanwhile, provided that this preserves the
property too.

A property is `Stable` if it survives what is not initialization, `Durable` if it also survives what
initialization does, and `Permanent` if it does not depend on how far initialization has come
either. Properties of the account are permanent. Only initialization decides whether the device
manages the bus, and only by three of its actions, so properties that depend on this as well
(`OfView`) are durable.
-/

namespace I3cHost

/-- The answer that a notice reports, under the name of the callback that heard it. -/
def Notice.answer? : Notice → Option (String × CommandResponse)
  | .response label answer => some (label, answer)
  | _ => none

/-- The outcome of an operation that returns nothing. -/
def Outcome.ofResult : HostResult Unit → Outcome
  | .ok () => .done
  | .error error => .failed error

/-- The outcome of a submission. -/
def Outcome.ofSubmission : HostResult (List UInt16) → Outcome
  | .ok ids => .submitted ids
  | .error error => .failed error

/-- What a call on the transport writes to the bulk endpoint. -/
def TransportCall.transfer? : TransportCall → Option Bytes
  | .bulkOut data => some data
  | _ => none

/-- What an action decides about whether the device manages the bus, if it decides anything. -/
def InitAction.role? : InitAction → Option Bool
  | .stayInStandby => some false
  | .busInitialized => some true
  | .busInitFailed _ => some false
  | _ => none

/-- The arrival of a target that a notice reports. -/
def Notice.arrival? : Notice → Option Arrival
  | .arrival told => some told
  | _ => none

/-- Whether a call on the transport is one that only initialization makes. -/
def TransportCall.initiates : TransportCall → Bool
  | .submitControlIn .getI3cCapability _ _ => true
  | .controlOut .initializeI3cBus _ _ => true
  | .startBulkIn _ => true
  | .startInterruptIn => true
  | _ => false

/-- Whether an event is one that completions can post. -/
def InitEvent.isReported : InitEvent → Bool
  | .capabilityReceived _ => true
  | .busInitStatus _ => true
  | .tableReceived _ => true
  | .fail (.transport _) => true
  | _ => false

/-- Whether an operation on the table is made beside initialization. -/
def TableOperation.isUpdate : TableOperation → Bool
  | .updateConfig _ _ _ => true
  | .mergeListing _ => true
  | .applyAddressChanges _ => true
  | _ => false

/-- What initialization decides, and what it depends on. -/
structure Standing where
  /-- Whether the device manages the bus. -/
  active : Bool
  /-- How far initialization has come. -/
  state : InitState
  /-- What the application has replaced. -/
  policy : InitPolicy
  /-- Whether anybody processes posted events. -/
  listening : Bool

/-- Whether a call leaves alone what submissions and answers are about, but for the start of
polling. -/
def Call.sparesAccount {κ τ : Type} : Call κ τ → Bool
  | .enqueue _ _ => false
  | .clear => false
  | .submit _ => false
  | .takeRetained _ => false
  | .onVendor _ => false
  | _ => true

namespace Engine

variable {τ : Type} {P : Engine τ → Prop}

/-- The part of the state that submissions and answers are about. -/
def ledger (engine : Engine τ) :
    CommandQueue (Hook τ) × UInt16 × Array (TrackedRequest (Hook τ)) × Option (Hook τ) :=
  (engine.queue, engine.tracker.nextId, engine.tracker.requests, engine.vendorHook)

/-- A property that only depends on what submissions and answers are about. -/
def OfLedger (P : Engine τ → Prop) : Prop :=
  ∀ before after, after.ledger = before.ledger → P before → P after

/-- What callbacks have heard, oldest first: the name of the callback, and the answer. -/
def answers (engine : Engine τ) : List (String × CommandResponse) :=
  engine.journal.toList.filterMap Notice.answer?

/-- The part of the state that submissions and answers are about, with the mark that answers are
received and what callbacks have heard. -/
def account (engine : Engine τ) : (CommandQueue (Hook τ) × UInt16 ×
    Array (TrackedRequest (Hook τ)) × Option (Hook τ)) × Bool × List (String × CommandResponse) :=
  (engine.ledger, engine.tracker.receiving, engine.answers)

/-- A property that only depends on the account. -/
def OfAccount (P : Engine τ → Prop) : Prop :=
  ∀ before after, after.account = before.account → P before → P after

/-- The transfers that were made to the bulk endpoint, oldest first. -/
def transfers (engine : Engine τ) : List Bytes :=
  engine.trace.toList.filterMap TransportCall.transfer?

/-- The account, together with the transfers that were made. -/
def dealings (engine : Engine τ) : ((CommandQueue (Hook τ) × UInt16 ×
    Array (TrackedRequest (Hook τ)) × Option (Hook τ)) × Bool ×
    List (String × CommandResponse)) × List Bytes :=
  (engine.account, engine.transfers)

/-- The standing of the device. -/
def standing (engine : Engine τ) : Standing where
  active := engine.device.state.activeController
  state := engine.bringUp.state
  policy := engine.bringUp.policy
  listening := engine.bringUp.listening

/-- A property that only depends on the account and on the transfers that were made. -/
def OfDealings (P : Engine τ → Prop) : Prop :=
  ∀ before after, after.dealings = before.dealings → P before → P after

/-- A property that only depends on the account, on the transfers that were made and on the standing
of the device. -/
def OfView (P : Engine τ → Prop) : Prop :=
  ∀ before after, after.dealings = before.dealings → after.standing = before.standing →
    P before → P after

/-- What does not depend on the transfers that were made may as well be told about them. -/
theorem OfAccount.ofDealings (hP : OfAccount P) : OfDealings P :=
  fun before after h ↦ hP before after (congrArg Prod.fst h)

/-- What does not depend on the standing of the device may as well be told about it. -/
theorem OfDealings.ofView (hP : OfDealings P) : OfView P :=
  fun before after h _ ↦ hP before after h

/-- A property of the account depends neither on transfers nor on the standing of the device. -/
theorem OfAccount.ofView (hP : OfAccount P) : OfView P :=
  hP.ofDealings.ofView

/-- What does not depend on what callbacks have heard may as well be told about it. -/
theorem OfLedger.ofAccount (hP : OfLedger P) : OfAccount P :=
  fun before after h ↦ hP before after (congrArg Prod.fst h)

/-- The state with another table. What the table announced has been reported. -/
def withTable (table : TargetTable) (engine : Engine τ) : Engine τ :=
  { engine with
    table := { table with arrivals := #[] }
    journal := engine.journal ++ table.arrivals.map Notice.arrival }

/-- Reporting anything but an answer. -/
theorem account_report {notice : Notice} (h : notice.answer? = none) (engine : Engine τ) :
    (report notice engine).account = engine.account := by
  have hanswers : (report notice engine).answers = engine.answers := by
    simp only [answers, report, Array.toList_push, List.filterMap_append, List.filterMap_cons, h,
      List.filterMap_nil, List.append_nil]
  exact congrArg (fun answers ↦ (engine.ledger, engine.tracker.receiving, answers)) hanswers

/-- An answer that a callback hears is the latest one. -/
theorem answers_report (label : String) (response : CommandResponse) (engine : Engine τ) :
    (report (.response label response) engine).answers = engine.answers ++ [(label, response)] := by
  simp [answers, report, Notice.answer?]

/-- What a table announces is not an answer. -/
theorem account_withTable (table : TargetTable) (engine : Engine τ) :
    (engine.withTable table).account = engine.account := by
  have harrivals (arrivals : List Arrival) :
      (arrivals.map Notice.arrival).filterMap Notice.answer? = [] := by
    rw [List.filterMap_map]
    exact List.filterMap_eq_nil_iff.2 fun _ _ ↦ rfl
  have hanswers : (engine.withTable table).answers = engine.answers := by
    simp only [answers, withTable, Array.toList_append, Array.toList_map, List.filterMap_append,
      harrivals, List.append_nil]
  exact congrArg (fun answers ↦ (engine.ledger, engine.tracker.receiving, answers)) hanswers

/-- Of the calls on the transport only transfers to the bulk endpoint are counted. -/
theorem transfers_push (transport : τ) (record : TransportCall) (engine : Engine τ) :
    ({ engine with transport, trace := engine.trace.push record } : Engine τ).transfers =
      engine.transfers ++ record.transfer?.toList := by
  show (engine.trace.push record).toList.filterMap _ = _
  rw [Array.toList_push, List.filterMap_append]
  cases htransfer : record.transfer? with
  | none => rw [List.filterMap_cons_none htransfer]; rfl
  | some bytes => rw [List.filterMap_cons_some htransfer]; rfl

/-- A call counts as a transfer if it writes to the bulk endpoint, whatever comes of it. -/
theorem transfers_call [Transport τ] {α : Type} (record : TransportCall)
    (operation : StateM τ (TransportResult α)) (engine : Engine τ) :
    (call record operation engine).2.transfers = engine.transfers ++ record.transfer?.toList :=
  transfers_push _ record engine

/-- A call on the transport that makes no transfer is of no account. -/
theorem dealings_push {record : TransportCall} (h : record.transfer? = none) (transport : τ)
    (engine : Engine τ) :
    ({ engine with transport, trace := engine.trace.push record } : Engine τ).dealings =
      engine.dealings := by
  have htransfers := transfers_push transport record engine
  rw [h, Option.toList_none, List.append_nil] at htransfers
  exact congrArg (engine.account, ·) htransfers

/-- No feature of the device is that it manages the bus. -/
theorem standing_setFeature (feature : Feature) (enabled : Bool) (engine : Engine τ) :
    (onDeviceState (·.setFeature feature enabled) engine).standing = engine.standing := by
  cases feature <;> rfl

/-- A change that is made beside initialization, submissions and answers. -/
inductive Interference : Engine τ → Engine τ → Prop
  | transport (engine : Engine τ) (transport : τ) : Interference engine { engine with transport }
  | call (engine : Engine τ) (transport : τ) (record : TransportCall)
      (htransfer : record.transfer? = none) (hinitiates : record.initiates = false) :
      Interference engine { engine with transport, trace := engine.trace.push record }
  | post (engine : Engine τ) (event : InitEvent) (hreported : event.isReported = true) :
      Interference engine (Engine.post event engine).2
  | table (engine : Engine τ) (operation : TableOperation) (hupdate : operation.isUpdate = true) :
      Interference engine (engine.withTable (operation.apply engine.table))
  | report (engine : Engine τ) (notice : Notice) (hanswer : notice.answer? = none)
      (harrival : notice.arrival? = none) : Interference engine (Engine.report notice engine)
  | feature (engine : Engine τ) (feature : Feature) (enabled : Bool) :
      Interference engine (onDeviceState (·.setFeature feature enabled) engine)
  | listener (engine : Engine τ) (listener : Option String) :
      Interference engine { engine with table := { engine.table with listener } }
  | settings (engine : Engine τ) (settings : TransferSettings) :
      Interference engine { engine with settings }
  | close (engine : Engine τ) : Interference engine (Engine.close engine)

/-- A change that initialization makes, apart from how far it has come, what it posts to itself and
what it decides. -/
inductive InitStep : Engine τ → Engine τ → Prop
  | call (engine : Engine τ) (transport : τ) (record : TransportCall)
      (htransfer : record.transfer? = none) :
      InitStep engine { engine with transport, trace := engine.trace.push record }
  | capability (engine : Engine τ) (capability : DeviceCapability) :
      InitStep engine { engine with device := { engine.device with capability := some capability } }
  | mergeCapability (engine : Engine τ) (buffer : Bytes) :
      InitStep engine (engine.withTable (engine.table.mergeCapability buffer).2)
  | failure (engine : Engine τ) (failure : Option HostError) :
      InitStep engine (engine.onBringUp fun bringUp ↦ { bringUp with failure })
  | pipes (engine : Engine τ) (pipes : Pipes) : InitStep engine { engine with pipes }

/-- A property survives what happens beside initialization, submissions and answers. -/
def Stable (P : Engine τ → Prop) : Prop :=
  ∀ before after, Interference before after → P before → P after

/-- A property also survives what initialization does, apart from how far it has come, what it posts
to itself and what it decides. -/
structure Durable (P : Engine τ → Prop) : Prop where
  stable : Stable P
  step : ∀ before after, InitStep before after → P before → P after

/-- A property survives all that initialization does but for the start of polling. -/
structure Permanent (P : Engine τ → Prop) : Prop where
  durable : Durable P
  /-- What initialization posts to itself is of no account. -/
  post : ∀ event engine, P engine → P (Engine.post event engine).2
  /-- Whether the device manages the bus is of no account. -/
  role : ∀ change engine, P engine → P (onDeviceState change engine)
  /-- Whether arrivals are announced is of no account. -/
  events : ∀ eventsEnabled engine, P engine →
    P { engine with table := { engine.table with eventsEnabled } }
  /-- How far initialization has come is of no account. -/
  progress : ∀ state posted engine, P engine →
    P (engine.onBringUp fun bringUp ↦ { bringUp with state, posted })

/-- What survives initialization survives what happens beside it. -/
theorem Permanent.stable (hP : Permanent P) : Stable P :=
  hP.durable.stable

/-- Two properties that survive what happens beside initialization do so together. -/
theorem Stable.and {Q : Engine τ → Prop} (hP : Stable P) (hQ : Stable Q) :
    Stable fun engine ↦ P engine ∧ Q engine :=
  fun _ _ hchange h ↦ ⟨hP _ _ hchange h.1, hQ _ _ hchange h.2⟩

/-- Two properties that survive what initialization does as well do so together. -/
theorem Durable.and {Q : Engine τ → Prop} (hP : Durable P) (hQ : Durable Q) :
    Durable fun engine ↦ P engine ∧ Q engine :=
  ⟨hP.stable.and hQ.stable, fun _ _ hstep h ↦ ⟨hP.step _ _ hstep h.1, hQ.step _ _ hstep h.2⟩⟩

/-- No change beside submissions and answers touches the account or makes transfers. -/
theorem Interference.dealings {before after : Engine τ} (h : Interference before after) :
    after.dealings = before.dealings := by
  cases h with
  | transport => rfl
  | call transport record htransfer => exact dealings_push htransfer _ _
  | post event =>
      unfold Engine.post
      split <;> rfl
  | table operation => exact congrArg (·, before.transfers) (account_withTable _ before)
  | report notice hanswer => exact congrArg (·, before.transfers) (account_report hanswer before)
  | feature => rfl
  | listener => rfl
  | settings => rfl
  | close => rfl

/-- No change beside initialization touches what initialization decides. -/
theorem Interference.standing {before after : Engine τ} (h : Interference before after) :
    after.standing = before.standing := by
  cases h with
  | post event =>
      unfold Engine.post
      split <;> rfl
  | feature feature enabled => exact standing_setFeature feature enabled before
  | _ => rfl

/-- No step of initialization touches the account or makes transfers. -/
theorem InitStep.dealings {before after : Engine τ} (h : InitStep before after) :
    after.dealings = before.dealings := by
  cases h with
  | call transport record htransfer => exact dealings_push htransfer _ _
  | capability => rfl
  | mergeCapability buffer => exact congrArg (·, before.transfers) (account_withTable _ before)
  | failure => rfl
  | pipes => rfl

/-- No step of initialization but its decisions touches the standing of the device. -/
theorem InitStep.standing {before after : Engine τ} (h : InitStep before after) :
    after.standing = before.standing := by
  cases h <;> rfl

/-- Whatever is posted. -/
theorem OfView.post (hP : OfView P) (event : InitEvent) (engine : Engine τ) (h : P engine) :
    P (Engine.post event engine).2 := by
  unfold Engine.post
  split
  · exact hP engine _ rfl rfl h
  · exact h

/-- A property of account, transfers and standing survives what leaves these alone. -/
theorem OfView.durable (hP : OfView P) : Durable P where
  stable _ _ hchange := hP _ _ hchange.dealings hchange.standing
  step _ _ hstep := hP _ _ hstep.dealings hstep.standing

/-- A property of account and transfers survives initialization, decisions included. -/
theorem OfDealings.permanent (hP : OfDealings P) : Permanent P where
  durable := hP.ofView.durable
  post := hP.ofView.post
  role _ _ := hP _ _ rfl
  events _ _ := hP _ _ rfl
  progress _ _ _ := hP _ _ rfl

/-- A property of the account survives initialization. -/
theorem OfAccount.permanent (hP : OfAccount P) : Permanent P :=
  hP.ofDealings.permanent

/-- A property of queue, tracked requests and the hook for vendor transfers survives
initialization. -/
theorem OfLedger.permanent (hP : OfLedger P) : Permanent P :=
  hP.ofAccount.permanent

end Engine

end I3cHost
