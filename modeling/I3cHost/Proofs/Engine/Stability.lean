import I3cHost.Proofs.Command.Queue
import I3cHost.Proofs.Engine.Frame

/-!
# What calls preserve

A stable property survives every call of an application that is neither about initialization nor
about submissions and answers, and every reaction to a notification (`Stable.perform`,
`Stable.handleInterrupt`, `Stable.handleControl`). The calls that are left are the cases of
`Stable.perform_cases`.
-/

namespace I3cHost

namespace Engine

variable {τ : Type} {P : Engine τ → Prop}

/-- What came of an operation is its outcome, and nothing else happens. -/
theorem exec_settled (operation : EngineOp τ Unit) (engine : Engine τ) :
    (settled operation).exec engine =
      (.ofResult (operation.exec engine).1, (operation.exec engine).2) := by
  unfold settled
  rw [EngineM.exec_bind]
  rcases hresult : EngineM.exec operation.run engine with ⟨error | ⟨⟩, after⟩
  · rw [EngineOp.exec, hresult]
    rfl
  · rw [EngineOp.exec, hresult]
    rfl

/-- Turning a result into an outcome changes nothing more. -/
theorem settled_preserves {operation : EngineOp τ Unit} (h : operation.Preserves P) :
    EngineM.Preserves P (settled operation) := by
  refine .bind h fun result ↦ ?_
  rcases result with error | ⟨⟩
  · exact .pure _
  · exact .pure _

/-- A request about a feature that does not exist changes nothing. -/
theorem onFeature_preserves {selector : UInt16} {operation : Feature → EngineOp τ Unit}
    (h : ∀ feature, (operation feature).Preserves P) :
    EngineM.Preserves P (onFeature selector operation) := by
  unfold onFeature
  split
  · exact settled_preserves (h _)
  · exact .pure _

/-- Recording a configuration is an operation on the table. -/
theorem exec_recordConfig (address : UInt8) (config : TargetConfig) (maxIbiPayload : UInt32)
    (engine : Engine τ) :
    (recordConfig address config maxIbiPayload).exec engine =
      ((engine.table.updateConfig address config maxIbiPayload).map fun _ ↦ (),
        engine.withTable ((TableOperation.updateConfig address config maxIbiPayload).apply
          engine.table)) := by
  show _ = (_, engine.withTable
    ((engine.table.updateConfig address config maxIbiPayload).toOption.getD engine.table))
  unfold recordConfig
  rw [EngineOp.exec_bind, EngineOp.exec_modifyGet, onTable]
  cases engine.table.updateConfig address config maxIbiPayload <;> rfl

section Requests

variable [Transport τ] {turn : Turn τ} (hturn : ∀ moment, EngineM.Preserves P (turn moment))

include hturn

/-- A request for data changes what the call on the transport changes, and what happens
meanwhile. -/
theorem controlIn_preserves {request : ClassRequest} {value : UInt16} {maxLength : Nat}
    (hcall : ∀ engine, P engine → P (call (.controlIn request value maxLength)
      (Transport.controlIn request value maxLength) engine).2) (moment : Moment) :
    EngineOp.Preserves P (controlIn turn moment request value maxLength) :=
  .bind (.modifyGet hcall) fun _ ↦ .bind (.liftM (hturn _)) fun _ ↦ .ofResult _

/-- A request that carries data changes what the call on the transport changes, and what happens
meanwhile. -/
theorem controlOut_preserves {request : ClassRequest} {value : UInt16} {data : Bytes}
    (hcall : ∀ engine, P engine → P (call (.controlOut request value data)
      (Transport.controlOut request value data) engine).2) (moment : Moment) :
    EngineOp.Preserves P (controlOut turn moment request value data) :=
  .bind (.modifyGet hcall) fun _ ↦ .bind (.liftM (hturn _)) fun _ ↦ .ofResult _

/-- Asking for later data changes what the call on the transport changes, and what happens after
it. -/
theorem submitControlIn_preserves {request : ClassRequest} {continuation : Continuation}
    (hcall : ∀ engine, P engine → P (call (.submitControlIn request 0 maxControlInLength)
      (Transport.submitControlIn request 0 maxControlInLength continuation) engine).2) :
    EngineOp.Preserves P (submitControlIn turn request continuation) :=
  .bind (.modifyGet hcall) fun _ ↦ .bind (.ofResult _) fun _ ↦
    .bind (.liftM (hturn _)) fun _ ↦ .pure _

end Requests

namespace Stable

section

variable (hP : Stable P)

include hP

/-- Events that completions post. -/
theorem post {event : InitEvent} (h : event.isReported = true) :
    EngineM.Preserves P (modifyGet (Engine.post event)) :=
  .modifyGet fun engine ↦ hP _ _ (.post engine event h)

/-- Reporting anything but an answer or an arrival. -/
theorem report {notice : Notice} (hanswer : notice.answer? = none)
    (harrival : notice.arrival? = none) (engine : Engine τ) (h : P engine) :
    P (Engine.report notice engine) :=
  hP _ _ (.report engine notice hanswer harrival) h

/-- Any call on the transport that is not a transfer to the bulk endpoint, and is not left to
initialization. -/
theorem call [Transport τ] {α : Type} {record : TransportCall} (htransfer : record.transfer? = none)
    (hinitiates : record.initiates = false) (operation : StateM τ (TransportResult α))
    (engine : Engine τ) (h : P engine) : P (Engine.call record operation engine).2 :=
  hP _ _ (.call engine _ record htransfer hinitiates) h

/-- Recording a configuration is an operation on the table, even if it is refused. -/
theorem recordConfig (address : UInt8) (config : TargetConfig) (maxIbiPayload : UInt32) :
    EngineOp.Preserves P (Engine.recordConfig address config maxIbiPayload) := by
  intro engine h
  show P ((Engine.recordConfig address config maxIbiPayload).exec engine).2
  rw [exec_recordConfig]
  exact hP _ _ (.table engine (.updateConfig address config maxIbiPayload) rfl) h

/-- A listing that arrives is merged into the table, even if it is refused. -/
theorem mergeListing (buffer : Bytes) :
    EngineOp.Preserves P (Engine.mergeListing buffer) :=
  .bind (.modifyGet fun engine ↦ hP _ _ (.table engine (.mergeListing buffer) rfl))
    fun _ ↦ .bind (.ofResult _) fun _ ↦ .pure _

/-- The answer to a request for later data, whatever it was asked for. -/
theorem handleControl (continuation : Continuation) (result : TransportResult Bytes) :
    EngineM.Preserves P (Engine.handleControl continuation result) := by
  unfold Engine.handleControl
  split
  next => exact .bind (hP.post rfl) fun _ ↦ .pure _
  next => exact .bind (hP.post rfl) fun _ ↦ .pure _
  next => exact .bind (hP.post rfl) fun _ ↦ .pure _
  next => exact .bind (hP.post rfl) fun _ ↦ .pure _
  next data =>
    exact .bind (.modifyGet fun engine ↦ hP _ _ (.table engine (.mergeListing data) rfl))
      fun _ ↦ .pure _
  next data =>
    exact .bind (.modifyGet fun engine ↦ hP _ _ (.table engine (.applyAddressChanges data) rfl))
      fun _ ↦ .pure _
  next => exact .pure _
  next => exact .pure _

end

section Turn

variable [Transport τ] {turn : Turn τ} (hP : Stable P)
  (hturn : ∀ moment, EngineM.Preserves P (turn moment))

include hP hturn

/-- Asking the device for room. -/
theorem ensureRoom (required : Nat) : EngineOp.Preserves P (Engine.ensureRoom turn required) := by
  have havailable : EngineOp.Preserves P (Engine.bufferAvailable turn) :=
    .bind (controlIn_preserves hturn (hP.call rfl rfl _) _) fun _ ↦
      .bind (.ofResult _) fun _ ↦ .pure _
  refine .bind havailable fun available ↦ ?_
  split
  · exact .throw _
  · exact .pure _

/-- A vendor-specific request, if the transfer itself preserves the property. -/
theorem submitVendor (payload : Bytes) (hsend : ∀ bytes engine,
      Message.toBytes (BulkRequest.vendorSpecific payload) = .ok bytes → P engine →
        P (Engine.call (.bulkOut bytes) (Transport.bulkOut bytes) engine).2) :
    EngineOp.Preserves P (Engine.submitVendor turn payload) := by
  have hwrite (bytes : Bytes)
      (hbytes : Message.toBytes (BulkRequest.vendorSpecific payload) = .ok bytes) :
      EngineOp.Preserves P (Engine.writeRequest turn bytes) := by
    have hbulkOut : EngineOp.Preserves P (Engine.bulkOut turn bytes) :=
      .bind (.modifyGet fun engine ↦ hsend bytes engine hbytes) fun _ ↦
        .bind (.liftM (hturn _)) fun _ ↦ .ofResult _
    refine .bind hbulkOut fun written ↦ ?_
    split
    · exact .throw _
    · exact .pure _
  exact .bind .get fun _ ↦ .bind (.ofResult _) fun _ ↦ .ofResult_bind fun bytes hresult ↦
    .bind (hP.ensureRoom hturn _) fun _ ↦ hwrite bytes (HostResult.ofCodec_eq_ok_iff.1 hresult)

/-- Telling the device a configuration, and recording it. -/
theorem configureDevice (address : UInt8) (config : TargetConfig) (maxIbiPayload : UInt32) :
    EngineOp.Preserves P (Engine.configureDevice turn address config maxIbiPayload) :=
  .bind (.ofResult _) fun _ ↦ .bind (controlOut_preserves hturn (hP.call rfl rfl _) _)
    fun _ ↦ hP.recordConfig _ _ _

/-- Configuring a target that may be unknown. -/
theorem setDeviceConfig (address : UInt8) (config : TargetConfig) :
    EngineOp.Preserves P (Engine.setDeviceConfig turn address config) :=
  .bind .get fun _ ↦ .bind (.ofResult _) fun _ ↦ hP.configureDevice hturn _ _ _

/-- Limiting the interrupt payload of a target that may be unknown. -/
theorem setDeviceMaxIbi (address : UInt8) (maxIbiPayload : UInt32) :
    EngineOp.Preserves P (Engine.setDeviceMaxIbi turn address maxIbiPayload) :=
  .bind .get fun _ ↦ .bind (.ofResult _) fun _ ↦ hP.configureDevice hturn _ _ _

/-- Asking for another address of a target. -/
theorem changeAddress (current new : UInt8) :
    EngineOp.Preserves P (Engine.changeAddress turn current new) :=
  .bind .get fun _ ↦ .bind (.ofResult _) fun _ ↦ .bind (.ofResult _) fun _ ↦
    controlOut_preserves hturn (hP.call rfl rfl _) _

/-- Switching a feature on or off. It is noted only if the device has accepted it. -/
theorem switchFeature (feature : Feature) (enabled : Bool) :
    EngineOp.Preserves P (Engine.switchFeature turn feature enabled) := by
  have hinitiates (request : ClassRequest) (h : request ≠ .initializeI3cBus) (value data) :
      (TransportCall.controlOut request value data).initiates = false := by
    cases request <;> first | rfl | exact absurd rfl h
  exact .bind .get fun _ ↦ .bind (.ofResult _) fun _ ↦
    .bind (controlOut_preserves hturn
      (hP.call rfl (hinitiates _ (by cases enabled <;> decide) _ _) _) _) fun _ ↦
    .modify fun engine ↦ hP _ _ (.feature engine feature enabled)

/-- Switching a feature off, unless the device has to keep it on. -/
theorem disable (feature : Feature) :
    EngineOp.Preserves P (Engine.disable turn feature) := by
  unfold Engine.disable
  split
  · exact .bind (.throw _) fun _ ↦ hP.switchFeature hturn _ _
  · exact hP.switchFeature hturn _ _

/-- A notification, whatever it asks for, even if it is malformed. -/
theorem handleNotification (data : Bytes) :
    EngineOp.Preserves P (Engine.handleNotification turn data) := by
  have hfetch {request continuation} (hinitiates :
      (TransportCall.submitControlIn request 0 maxControlInLength).initiates = false) :
      EngineOp.Preserves P (Engine.fetch turn request continuation) := by
    refine .bind .get fun engine ↦ ?_
    split
    · exact submitControlIn_preserves hturn (hP.call rfl hinitiates _)
    · exact .throw _
  refine .bind (.ofResult _) fun _ ↦ .bind (.ofResult _) fun kind ↦ ?_
  split
  · exact .bind (.liftM (hP.post rfl)) fun _ ↦ .pure _
  · exact .pure _
  · exact hfetch rfl
  · exact hfetch rfl
  · exact hfetch rfl

/-- A transfer from the interrupt endpoint, or the end of its stream. -/
theorem handleInterrupt (result : TransportResult Bytes) :
    EngineM.Preserves P (Engine.handleInterrupt turn result) := by
  cases result with
  | ok data => exact .bind (hP.handleNotification hturn data) fun _ ↦ .pure _
  | error error => exact .pure _

/-- Carrying out a call that leaves the account alone, provided that the property survives
initialization and vendor-specific requests. -/
theorem perform {call : Call (Hook τ) τ}
    (bringUp : call = .bringUp → EngineOp.Preserves P (runBringUp turn))
    (submitVendor : ∀ payload, call = .submitVendor payload →
      EngineOp.Preserves P (Engine.submitVendor turn payload))
    (hcall : call.sparesAccount = true) : EngineM.Preserves P (Engine.perform turn call) := by
  cases call with
  | bringUp => exact settled_preserves (bringUp rfl)
  | enqueue => cases hcall
  | clear => cases hcall
  | submit => cases hcall
  | submitVendor payload => exact settled_preserves (submitVendor payload rfl)
  | takeRetained => cases hcall
  | retained => exact .bind .get fun _ ↦ .pure _
  | requests => exact .bind .get fun _ ↦ .pure _
  | onVendor => cases hcall
  | onHotJoin listener =>
      exact .bind (.modify fun engine ↦ hP _ _ (.listener engine listener)) fun _ ↦ .pure _
  | info => exact .bind .get fun _ ↦ .pure _
  | settings => exact .bind .get fun _ ↦ .pure _
  | setSettings settings =>
      exact .bind (.modify fun engine ↦ hP _ _ (.settings engine settings)) fun _ ↦ .pure _
  | devices => exact .bind .get fun _ ↦ .pure _
  | device => exact .bind .get fun _ ↦ .pure _
  | deviceConfig => exact .bind .get fun _ ↦ .pure _
  | setDeviceConfig => exact settled_preserves (hP.setDeviceConfig hturn _ _)
  | setDeviceMaxIbi => exact settled_preserves (hP.setDeviceMaxIbi hturn _ _)
  | changeAddress => exact settled_preserves (hP.changeAddress hturn _ _)
  | enable => exact onFeature_preserves fun _ ↦ hP.switchFeature hturn _ _
  | disable => exact onFeature_preserves fun _ ↦ hP.disable hturn _
  | exitHdr => exact settled_preserves (hP.switchFeature hturn _ _)
  | controlBulk =>
      exact settled_preserves (controlOut_preserves hturn (hP.call rfl rfl _) _)
  | pump => exact .bind (hturn _) fun _ ↦ .pure _
  | close => exact .bind (.modify fun engine ↦ hP _ _ (.close engine)) fun _ ↦ .pure _
  | failWait error =>
      refine .bind (.modify fun engine hengine ↦ ?_) fun _ ↦ .pure _
      unfold failWait
      split
      · exact hP _ _ (.close engine) hengine
      · exact hengine
  | adjust change =>
      exact .bind (.modify fun engine ↦ hP _ _ (.transport engine _)) fun _ ↦ .pure _

end Turn

end Stable

/-- Copies of a command are queued behind the others, all of them or none. -/
theorem enqueueCopies_cases (command : Command (Hook τ)) (copies : Nat) (engine : Engine τ) :
    (∃ fault, engine.queue.fault? { command with settings := engine.settings } = some fault ∧
      enqueueCopies command copies engine = (.failed (.validation fault), engine)) ∨
    (0 < copies → engine.queue.fault? { command with settings := engine.settings } = none) ∧
      enqueueCopies command copies engine = (.done, { engine with
        queue := ⟨engine.queue.commands ++
          Array.replicate copies { command with settings := engine.settings }⟩ }) := by
  induction copies generalizing engine with
  | zero => exact .inr ⟨nofun, by simp [enqueueCopies]⟩
  | succ copies ih =>
      cases hfault : engine.queue.fault? { command with settings := engine.settings } with
      | some fault => exact .inl ⟨fault, rfl, by simp [enqueueCopies, enqueue, hfault]⟩
      | none =>
          have hagain := CommandQueue.fault?_append hfault
          obtain ⟨fault, hrefused, -⟩ | ⟨-, heq⟩ := ih { engine with
            queue := engine.queue.append { command with settings := engine.settings } }
          · cases hagain.symm.trans hrefused
          · refine .inr ⟨fun _ ↦ rfl, ?_⟩
            simp only [enqueueCopies, enqueue, hfault]
            rw [heq, CommandQueue.append, Array.push_eq_append, Array.append_assoc,
              ← Array.replicate_succ']

/-- Queueing a command several times appends as many copies as were accepted, and changes nothing
else. -/
theorem enqueueCopies_eq (command : Command (Hook τ)) (copies : Nat) (engine : Engine τ) :
    ∃ accepted ≤ copies, (enqueueCopies command copies engine).2 =
        { engine with queue := ⟨engine.queue.commands ++
          Array.replicate accepted { command with settings := engine.settings }⟩ } ∧
      ((∀ queue : CommandQueue (Hook τ), queue.fault?
        { command with settings := engine.settings } = none) → accepted = copies) := by
  obtain ⟨fault, hfault, heq⟩ | ⟨-, heq⟩ := enqueueCopies_cases command copies engine
  · exact ⟨0, Nat.zero_le _, by simp [heq], fun hnone ↦ absurd (hfault.symm.trans (hnone _)) nofun⟩
  · exact ⟨copies, Nat.le_refl _, by rw [heq], fun _ ↦ rfl⟩

/-- A call that submits the queued commands does nothing else. -/
theorem exec_perform_submit_eq [Transport τ] (turn : Turn τ) (dependent : Bool)
    (engine : Engine τ) : (perform turn (.submit dependent)).exec engine =
      (.ofSubmission ((submit turn dependent).exec engine).1,
        ((submit turn dependent).exec engine).2) := by
  unfold perform
  rw [EngineM.exec_bind]
  rcases hresult : EngineM.exec (submit turn dependent).run engine with ⟨error | ids, after⟩
  · rw [EngineOp.exec, hresult]
    rfl
  · rw [EngineOp.exec, hresult]
    rfl

/-- What becomes of the outcome of a submission leaves the state alone. -/
theorem exec_perform_submit [Transport τ] (turn : Turn τ) (dependent : Bool) (engine : Engine τ) :
    ((perform turn (.submit dependent)).exec engine).2 =
      ((submit turn dependent).exec engine).2 :=
  congrArg Prod.snd (exec_perform_submit_eq turn dependent engine)

/-- Carrying out any call, provided that the property survives those that do not leave the account
alone, initialization and vendor-specific requests. -/
theorem Stable.perform_cases [Transport τ] {turn : Turn τ} (hP : Stable P)
    (hturn : ∀ moment, EngineM.Preserves P (turn moment)) {call : Call (Hook τ) τ}
    {engine : Engine τ} (h : P engine)
    (bringUp : call = .bringUp → EngineOp.Preserves P (runBringUp turn))
    (submitVendor : ∀ payload, call = .submitVendor payload →
      EngineOp.Preserves P (Engine.submitVendor turn payload))
    (enqueue : ∀ command copies, call = .enqueue command copies →
      P (enqueueCopies command copies engine).2)
    (clear : call = .clear → P { engine with queue := {} })
    (submit : ∀ dependent, call = .submit dependent →
      P ((Engine.submit turn dependent).exec engine).2)
    (takeRetained : ∀ id, call = .takeRetained id → P (Engine.takeRetained id engine).2)
    (onVendor : ∀ callback, call = .onVendor callback →
      P { engine with vendorHook := callback }) :
    P ((Engine.perform turn call).exec engine).2 := by
  by_cases hspares : call.sparesAccount = true
  · exact hP.perform hturn bringUp submitVendor hspares engine h
  · cases call with
    | enqueue command copies => exact enqueue command copies rfl
    | clear => exact clear rfl
    | submit dependent =>
        rw [exec_perform_submit]
        exact submit dependent rfl
    | takeRetained id => exact takeRetained id rfl
    | onVendor callback => exact onVendor callback rfl
    | _ => exact absurd rfl hspares

end Engine

end I3cHost
