import I3cHost.Engine.BringUp
import I3cHost.Proofs.Engine.Stability

/-!
# What initialization preserves

Every action of initialization carries out an operation and posts what came of it
(`performStandard_eq`). A durable property survives the operations that neither decide whether the
device manages the bus nor enable the events of the table (`Durable.operation`). A permanent one
survives whole runs (`Permanent.runBringUp`).
-/

namespace I3cHost

/-- The operation that an action carries out. -/
def InitAction.operation {τ : Type} [Transport τ] (turn : Turn τ) : InitAction → EngineOp τ Unit
  | .start => do
      (Engine.setFailure none : EngineM τ Unit)
      Engine.submitControlIn turn .getI3cCapability .capabilityReport
  | .takeCapability buffer => do
      Engine.applyCapability buffer
      Engine.startBulkIn turn
  | .initializeBus => do
      Engine.startInterruptIn turn
      Engine.initializeBus turn
  | .stayInStandby => (Engine.setActiveController false : EngineM τ Unit)
  | .busInitialized => do
      modify (Engine.onDeviceState fun state ↦
        { state with activeController := true, i3cBus := true })
      Engine.submitControlIn turn .getTargetDeviceTable .targetListing
  | .busInitFailed code => do
      (Engine.setActiveController false : EngineM τ Unit)
      (Engine.setFailure (some (.state (.busInitializationFailed code))) : EngineM τ Unit)
  | .takeListing buffer => do
      Engine.mergeListing buffer
      Engine.configureTargets turn
  | .configApplied => Engine.submitControlIn turn .getTargetDeviceTable .targetListing
  | .refreshListing buffer => Engine.mergeListing buffer
  | .ready => modify fun engine ↦
      { engine with table := { engine.table with eventsEnabled := true } }
  | .failure error => (Engine.setFailure (some error) : EngineM τ Unit)

/-- What an action posts if its operation succeeds. -/
def InitAction.success : InitAction → Option InitEvent
  | .takeCapability _ => some .pipelineStarted
  | .takeListing _ => some .configApplied
  | .refreshListing _ => some .tableMerged
  | _ => none

namespace Engine

variable {τ : Type} {P : Engine τ → Prop}

/-- An action carries its operation out and posts what came of it. -/
theorem performStandard_eq [Transport τ] (turn : Turn τ) (action : InitAction) :
    performStandard turn action = postOutcome (action.operation turn) action.success := by
  cases action <;> rfl

/-- What came of an operation is posted, if the property survives that. -/
theorem postOutcome_preserves (hpost : ∀ event engine, P engine → P (post event engine).2)
    {operation : EngineOp τ Unit} (h : operation.Preserves P) (success : Option InitEvent) :
    EngineM.Preserves P (postOutcome operation success) := by
  refine .bind h fun result ↦ ?_
  rcases result with error | ⟨⟩
  · exact .modifyGet (hpost _)
  · cases success with
    | none => exact .pure _
    | some event => exact .modifyGet (hpost _)

section Polling

variable [Transport τ] {turn : Turn τ} (hturn : ∀ moment, EngineM.Preserves P (turn moment))

include hturn

/-- Starting to poll for answers asks the transport, and changes nothing but pipes and the mark that
answers are received. -/
theorem startBulkIn_preserves
    (hcall : ∀ size engine, P engine →
      P (call (.startBulkIn size) (Transport.startBulkIn size) engine).2)
    (hpipes : ∀ engine change, P engine → P (engine.onPipes change))
    (hreceiving : ∀ engine receiving, P engine →
      P (engine.onTracker fun tracker ↦ { tracker with receiving })) :
    EngineOp.Preserves P (startBulkIn turn) := by
  refine .bind .get fun engine ↦ ?_
  split
  · exact .pure _
  · refine .bind (.modify fun _ ↦ hreceiving _ _) fun _ ↦ .bind (.modify fun _ ↦ hpipes _ _) fun _ ↦
      .bind (.modifyGet (hcall _)) fun result ↦ .bind (.liftM (hturn _)) fun _ ↦ ?_
    cases result with
    | ok value => exact .pure _
    | error error => exact .bind (.modify fun _ ↦ hreceiving _ _) fun _ ↦ .throw _

/-- Starting to poll for notifications asks the transport, and changes nothing but pipes. -/
theorem startInterruptIn_preserves
    (hcall : ∀ engine, P engine → P (call .startInterruptIn Transport.startInterruptIn engine).2)
    (hpipes : ∀ engine change, P engine → P (engine.onPipes change)) :
    EngineOp.Preserves P (startInterruptIn turn) := by
  refine .bind .get fun engine ↦ ?_
  split
  · exact .pure _
  · exact .bind (.modify fun _ ↦ hpipes _ _) fun _ ↦ .bind (.modifyGet hcall) fun _ ↦
      .bind (.liftM (hturn _)) fun _ ↦ .bind (.ofResult _) fun _ ↦ .modify fun _ ↦ hpipes _ _

end Polling

namespace Durable

section

variable (hP : Durable P)

include hP

/-- Any call on the transport but a transfer to the bulk endpoint. -/
theorem call [Transport τ] {α : Type} {record : TransportCall} (h : record.transfer? = none)
    (operation : StateM τ (TransportResult α)) (engine : Engine τ) (hengine : P engine) :
    P (Engine.call record operation engine).2 :=
  hP.step _ _ (.call engine _ record h) hengine

/-- Noting why a run fails, or that it has not failed. -/
theorem setFailure (failure : Option HostError) :
    EngineM.Preserves P (Engine.setFailure failure) :=
  .modify fun engine ↦ hP.step _ _ (.failure engine failure)

/-- Taking a capability report over, even if it is refused half-way. -/
theorem applyCapability (buffer : Bytes) :
    EngineOp.Preserves P (Engine.applyCapability buffer) := by
  refine .bind (.ofResult _) fun report ↦
    .bind (.modify fun engine ↦ hP.step _ _ (.capability engine _)) fun _ ↦ ?_
  split
  · exact .pure _
  · exact .bind (.modifyGet fun engine ↦ hP.step _ _ (.mergeCapability engine buffer))
      fun _ ↦ .bind (.ofResult _) fun _ ↦ .pure _

end

section Turn

variable [Transport τ] {turn : Turn τ} (hP : Durable P)
  (hturn : ∀ moment, EngineM.Preserves P (turn moment))

include hP hturn

/-- The start of polling for answers, if the mark that answers are received is of no account. -/
theorem startBulkIn (hreceiving : ∀ engine receiving, P engine →
      P (engine.onTracker fun tracker ↦ { tracker with receiving })) :
    EngineOp.Preserves P (Engine.startBulkIn turn) :=
  startBulkIn_preserves hturn (fun _ ↦ hP.call rfl _) (fun engine _ ↦ hP.step _ _ (.pipes engine _))
    hreceiving

/-- Starting to poll for notifications. -/
theorem startInterruptIn : EngineOp.Preserves P (Engine.startInterruptIn turn) :=
  startInterruptIn_preserves hturn (hP.call rfl _) fun engine _ ↦ hP.step _ _ (.pipes engine _)

/-- Having the bus initialized. -/
theorem initializeBus : EngineOp.Preserves P (Engine.initializeBus turn) :=
  .bind .get fun _ ↦ .bind (.ofResult _) fun _ ↦ controlOut_preserves hturn (hP.call rfl _) _

/-- Configuring all targets as the device calls for. -/
theorem configureTargets : EngineOp.Preserves P (Engine.configureTargets turn) := by
  refine .bind .get fun engine ↦ ?_
  split
  next => exact .throw _
  next capability _ =>
    dsimp only
    split
    · exact .pure _
    · exact .bind (.ofResult _) fun _ ↦ .bind (controlOut_preserves hturn (hP.call rfl _) _)
        fun _ ↦ .forM fun address _ ↦ hP.stable.recordConfig address _ _

/-- The operation of any action, if the property survives what the action decides and the end of
the silence of the table, should it come to that. -/
theorem operation (hpolling : EngineOp.Preserves P (Engine.startBulkIn turn)) {action : InitAction}
    (hrole : ∀ active, action.role? = some active →
      ∀ change engine, P engine → P (onDeviceState change engine))
    (hready : action = .ready → ∀ engine, P engine →
      P { engine with table := { engine.table with eventsEnabled := true } }) :
    EngineOp.Preserves P (action.operation turn) := by
  have hsubmit {request : ClassRequest} {continuation : Continuation} :
      EngineOp.Preserves P (submitControlIn turn request continuation) :=
    submitControlIn_preserves hturn (hP.call rfl _)
  cases action with
  | start => exact .bind (.liftM (hP.setFailure _)) fun _ ↦ hsubmit
  | takeCapability buffer => exact .bind (hP.applyCapability buffer) fun _ ↦ hpolling
  | initializeBus => exact .bind (hP.startInterruptIn hturn) fun _ ↦ hP.initializeBus hturn
  | stayInStandby => exact .liftM (.modify (hrole _ rfl _))
  | busInitialized => exact .bind (.modify (hrole _ rfl _)) fun _ ↦ hsubmit
  | busInitFailed code =>
      exact .bind (.liftM (.modify (hrole _ rfl _))) fun _ ↦ .liftM (hP.setFailure _)
  | takeListing buffer =>
      exact .bind (hP.stable.mergeListing buffer) fun _ ↦ hP.configureTargets hturn
  | configApplied => exact hsubmit
  | refreshListing buffer => exact hP.stable.mergeListing buffer
  | ready => exact .modify (hready rfl)
  | failure error => exact .liftM (hP.setFailure _)

/-- Whatever initialization does in reaction to an event, if the property also survives what is
posted. -/
theorem performStandard (hpost : ∀ event engine, P engine → P (Engine.post event engine).2)
    (hpolling : EngineOp.Preserves P (Engine.startBulkIn turn))
    {action : InitAction} (hrole : ∀ active, action.role? = some active →
      ∀ change engine, P engine → P (onDeviceState change engine))
    (hready : action = .ready → ∀ engine, P engine →
      P { engine with table := { engine.table with eventsEnabled := true } }) :
    EngineM.Preserves P (Engine.performStandard turn action) :=
  performStandard_eq turn action ▸
    postOutcome_preserves hpost (hP.operation hturn hpolling hrole hready) _

end Turn

end Durable

/-! A property survives whole runs if it survives each action in the states from which a transition
with this action starts. -/

section Runs

variable [Transport τ] {turn : Turn τ}
  (haction : ∀ {engine event transition}, transition ∈ transitions engine.bringUp.state event →
    P engine → P ((performStandard turn transition.action).exec engine).2)
  (hprogress : ∀ state posted engine, P engine →
    P (engine.onBringUp fun bringUp ↦ { bringUp with state, posted }))

include haction hprogress

/-- Taking the first transition whose guard allows it, if that is one of the table of
transitions. -/
theorem takeTransition_preserves {engine : Engine τ} (h : P engine) {event : InitEvent}
    {candidates : List Transition}
    (hcandidates : ∀ transition ∈ candidates,
      transition ∈ transitions engine.bringUp.state event) :
    P ((takeTransition turn candidates).exec engine).2 := by
  induction candidates with
  | nil => exact h
  | cons transition others ih =>
      obtain ⟨htransition, hothers⟩ := List.forall_mem_cons.1 hcandidates
      have hperformed : P ((performAction turn transition.action).exec engine).2 := by
        rw [performAction, EngineM.exec_bind, EngineM.exec_get]
        dsimp only
        split
        · exact haction htransition h
        · exact h
        · exact h
      rw [takeTransition, EngineM.exec_bind, EngineM.exec_get]
      dsimp only
      split
      · exact h
      · exact ih hothers
      · rw [EngineM.exec_bind]
        split
        · exact hprogress _ _ _ hperformed
        · exact hperformed

/-- Dealing with a posted event, whether it is accepted or not. -/
theorem process_preserves (event : InitEvent) : EngineM.Preserves P (process turn event) := by
  intro engine h
  rw [process, EngineM.exec_bind, EngineM.exec_get]
  dsimp only
  split
  · exact h
  · exact takeTransition_preserves haction hprogress h fun _ ↦ id

/-- Dealing with posted events up to the first one that is accepted. -/
theorem processUntilAccepted_preserves (events : List InitEvent) :
    EngineM.Preserves P (processUntilAccepted turn events) := by
  induction events with
  | nil => exact .pure _
  | cons event others ih =>
      refine .bind (.modify fun _ ↦ hprogress _ _ _) fun _ ↦
        .bind (process_preserves haction hprogress event) fun result ↦ ?_
      split
      · exact .pure _
      · exact ih

/-- Any number of steps of a run. -/
theorem advance_preserves (steps : Nat) : EngineOp.Preserves P (advance turn steps) := by
  induction steps with
  | zero => exact .throw _
  | succ steps ih =>
      refine .bind .get fun engine ↦ ?_
      dsimp only
      split
      · exact .pure _
      · exact .pure _
      · exact .throw _
      · refine .bind (.liftM (processUntilAccepted_preserves haction hprogress _))
          fun accepted ↦ ?_
        split
        · exact ih
        · exact .bind (.liftM (process_preserves haction hprogress _)) fun _ ↦ ih

/-- A run of initialization, if the property also survives that arrivals are no longer announced. -/
theorem runBringUp_preserves (hsilent : ∀ engine, P engine →
      P { engine with table := { engine.table with eventsEnabled := false } }) :
    EngineOp.Preserves P (runBringUp turn) := by
  refine .bind (.modify fun _ ↦ hprogress _ _ _) fun _ ↦ .bind (.modify hsilent) fun _ ↦
    .bind (.liftM (process_preserves haction hprogress _)) fun result ↦ ?_
  split
  · exact .throw _
  · exact advance_preserves haction hprogress _

end Runs

namespace Permanent

variable [Transport τ] {turn : Turn τ} (hP : Permanent P)
  (hturn : ∀ moment, EngineM.Preserves P (turn moment))
  (hpolling : EngineOp.Preserves P (Engine.startBulkIn turn))

include hP hturn hpolling

/-- A run of initialization. -/
theorem runBringUp : EngineOp.Preserves P (Engine.runBringUp turn) :=
  runBringUp_preserves
    (fun _ ↦ hP.durable.performStandard hturn hP.post hpolling (fun _ _ ↦ hP.role)
      (fun _ ↦ hP.events true) _)
    hP.progress (hP.events false)

end Permanent

namespace OfAccount

variable [Transport τ] {turn : Turn τ} (hP : OfAccount P)
  (hturn : ∀ moment, EngineM.Preserves P (turn moment)) {call : Call (Hook τ) τ}

include hP hturn

/-- Carrying out any call, provided that the property survives those that do not leave the account
alone. -/
theorem perform_cases {engine : Engine τ} (h : P engine)
    (polling : call = .bringUp → EngineOp.Preserves P (Engine.startBulkIn turn))
    (enqueue : ∀ command copies, call = .enqueue command copies →
      P (enqueueCopies command copies engine).2)
    (clear : call = .clear → P { engine with queue := {} })
    (submit : ∀ dependent, call = .submit dependent →
      P ((Engine.submit turn dependent).exec engine).2)
    (takeRetained : ∀ id, call = .takeRetained id → P (Engine.takeRetained id engine).2)
    (onVendor : ∀ callback, call = .onVendor callback →
      P { engine with vendorHook := callback }) :
    P ((Engine.perform turn call).exec engine).2 :=
  hP.permanent.stable.perform_cases hturn h
    (fun hbringUp ↦ hP.permanent.runBringUp hturn (polling hbringUp))
    (fun _ _ ↦ hP.permanent.stable.submitVendor hturn _ fun _ _ _ ↦ hP _ _ rfl)
    enqueue clear submit takeRetained onVendor

end OfAccount

end Engine

end I3cHost
