import I3cHost.Proofs.Engine.Permanence
import I3cHost.Proofs.Target.Configuration

/-!
# What the actions of initialization do

One equation for each operation that the actions are made of: which calls on the transport it makes
in which state, where something else can happen meanwhile, and what it leaves behind. An action
posts an event if its operation succeeds, or else the failure. What else happens matters only in
states that an action reaches (`exec_performStandard_congr`).
-/

namespace I3cHost

/-- Whether a target can be given an address, should it need one: if it speaks I3C, it has a static
address or is known by its identifier. -/
def TargetDevice.isIdentifiable (device : TargetDevice) : Bool :=
  device.type != .i3c || device.capability.staticAddress != 0 || device.validPid

namespace TargetTable

/-- Whether some I3C target has a static address. -/
def hasStatic (table : TargetTable) : Bool :=
  table.devices.any fun device ↦ device.type == .i3c && device.capability.staticAddress != 0

/-- Whether all targets can be given an address. -/
def isIdentifiable (table : TargetTable) : Bool :=
  table.devices.all (·.isIdentifiable)

/-- The census counts targets with static addresses if there are any, and fails only if some target
cannot be given an address. -/
theorem identify_cases (table : TargetTable) :
    (table.isIdentifiable = true ∧
        ∃ census, table.identify = .ok census ∧ (census.staticCount > 0 ↔ table.hasStatic = true)) ∨
      table.isIdentifiable = false ∧
        table.identify = .error (.validation .unidentifiableDevice) := by
  have hidentifiable : ((table.devices.filter (·.type == .i3c)).partition
      (·.capability.staticAddress != 0)).2.all (·.validPid) = table.isIdentifiable := by
    rw [List.partition_eq_filter_filter, List.all_filter, List.all_filter, isIdentifiable]
    congr 1
    funext device
    unfold TargetDevice.isIdentifiable
    cases device.type <;> cases device.validPid <;> simp [bne]
  have hstatic : ((table.devices.filter (·.type == .i3c)).partition
      (·.capability.staticAddress != 0)).1.length > 0 ↔ table.hasStatic = true := by
    rw [List.partition_eq_filter_filter, gt_iff_lt, List.length_pos_iff_exists_mem, hasStatic,
      List.any_eq_true]
    simp only [List.mem_filter, Bool.and_eq_true, and_assoc]
  unfold identify
  dsimp only
  rw [hidentifiable]
  cases table.isIdentifiable with
  | true => exact .inl ⟨rfl, _, rfl, hstatic⟩
  | false => exact .inr ⟨rfl, rfl⟩

end TargetTable

namespace Engine

variable {τ : Type} {engine : Engine τ}

/-- What came of an operation is posted, unless there is nothing to post. -/
theorem exec_postOutcome (operation : EngineOp τ Unit) (success : Option InitEvent)
    (engine : Engine τ) :
    (postOutcome operation success).exec engine =
      match operation.exec engine, success with
      | (.ok (), after), none => (true, after)
      | (.ok (), after), some event => post event after
      | (.error error, after), _ => post (.fail error) after := by
  unfold postOutcome
  rw [EngineM.exec_bind]
  show _ = match EngineM.exec operation.run engine, success with
    | (.ok (), after), none => (true, after)
    | (.ok (), after), some event => post event after
    | (.error error, after), _ => post (.fail error) after
  rcases EngineM.exec operation.run engine with ⟨error | ⟨⟩, after⟩
  · rfl
  · cases success <;> rfl

/-- The state in which the capability of the device is known. -/
def withCapability (report : CapabilityReport) (engine : Engine τ) : Engine τ :=
  { engine with device := { engine.device with capability := some (.ofReport report) } }

/-- A report is taken over if it can be read; if it lists targets they are merged. -/
theorem exec_applyCapability (buffer : Bytes) (engine : Engine τ) :
    (applyCapability buffer).exec engine =
      match CapabilityReport.decode buffer with
      | .error error => (.error (.ofCodec error), engine)
      | .ok report =>
          if report.targets.isEmpty then
            (.ok (), engine.withCapability report)
          else
            ((engine.table.mergeCapability buffer).1.map fun _ ↦ (),
              (engine.withCapability report).withTable
                (engine.table.mergeCapability buffer).2) := by
  unfold applyCapability
  rw [EngineOp.exec_bind, EngineOp.exec_ofResult]
  cases CapabilityReport.decode buffer with
  | error error => rfl
  | ok report =>
      show (do
        unless report.targets.isEmpty do
          let added ← modifyGet (onTable fun table ↦ table.mergeCapability buffer)
          let _ ← ofResult added : EngineOp τ Unit).exec (engine.withCapability report) =
        if report.targets.isEmpty then
          (.ok (), engine.withCapability report)
        else
          ((engine.table.mergeCapability buffer).1.map fun _ ↦ (),
            (engine.withCapability report).withTable (engine.table.mergeCapability buffer).2)
      by_cases hempty : report.targets.isEmpty = true
      · rw [if_pos hempty, if_pos hempty]
        rfl
      · rw [if_neg hempty, if_neg hempty, EngineOp.exec_bind, EngineOp.exec_modifyGet, onTable]
        show (do let _ ← ofResult (engine.table.mergeCapability buffer).1 : EngineOp τ Unit).exec
          ((engine.withCapability report).withTable (engine.table.mergeCapability buffer).2) = _
        rw [EngineOp.exec_bind, EngineOp.exec_ofResult]
        cases (engine.table.mergeCapability buffer).1 <;> rfl

/-- A listing is merged, which is an operation on the table. -/
theorem exec_mergeListing (buffer : Bytes) (engine : Engine τ) :
    (mergeListing buffer).exec engine =
      ((engine.table.mergeListing buffer).1.map fun _ ↦ (),
        engine.withTable (engine.table.mergeListing buffer).2) := by
  unfold mergeListing
  rw [EngineOp.exec_bind, EngineOp.exec_modifyGet, onTable]
  show (do let _ ← ofResult (engine.table.mergeListing buffer).1 : EngineOp τ Unit).exec
    (engine.withTable (engine.table.mergeListing buffer).2) = _
  rw [EngineOp.exec_bind, EngineOp.exec_ofResult]
  cases (engine.table.mergeListing buffer).1 <;> rfl

/-- The configuration of an address in use is recorded before those of other addresses. -/
theorem exec_recordConfig_then (h : TargetTable.Integrity engine.table.devices) {address : UInt8}
    (hused : address ∈ engine.table.addresses) (others : List UInt8) (config : TargetConfig)
    (maxIbiPayload : UInt32) :
    ((address :: others).forM fun address ↦
        recordConfig address config maxIbiPayload : EngineOp τ Unit).exec engine =
      (others.forM fun address ↦ recordConfig address config maxIbiPayload : EngineOp τ Unit).exec
        (engine.withTable (engine.table.configuredAt [address] config maxIbiPayload)) := by
  have hupdate := TargetTable.updateConfig_eq_ok_of_mem h hused config maxIbiPayload
  show (do
    recordConfig address config maxIbiPayload
    others.forM fun address ↦ recordConfig address config maxIbiPayload :
      EngineOp τ Unit).exec engine = _
  rw [EngineOp.exec_bind, exec_recordConfig, TableOperation.apply, hupdate]
  rfl

/-- Recording the configurations of addresses in use, one after the other, configures the targets
at all of them. -/
theorem exec_recordConfigs (h : TargetTable.Integrity engine.table.devices) {address : UInt8}
    {others : List UInt8}
    (hused : ∀ used ∈ address :: others, used ∈ engine.table.addresses) (config : TargetConfig)
    (maxIbiPayload : UInt32) :
    ((address :: others).forM fun address ↦
        recordConfig address config maxIbiPayload : EngineOp τ Unit).exec engine =
      (.ok (), engine.withTable
        (engine.table.configuredAt (address :: others) config maxIbiPayload)) := by
  induction others generalizing engine address with
  | nil => exact exec_recordConfig_then h (hused address List.mem_cons_self) [] _ _
  | cons next others ih =>
      obtain ⟨haddress, hothers⟩ := List.forall_mem_cons.1 hused
      let first := engine.table.configuredAt [address] config maxIbiPayload
      have hfirst : first.addresses = engine.table.addresses :=
        TargetTable.addresses_configuredAt _ _ _
      have hrest := @ih (engine.withTable first) (h.configuredAt _ _ _) next
        fun used hmem ↦ hfirst ▸ hothers used hmem
      rw [exec_recordConfig_then h haddress, hrest, ← TargetTable.configuredAt_cons address]
      simp [first, withTable, TargetTable.configuredAt]

variable [Transport τ]

/-- The size of the buffers in which transfers from the bulk endpoint are received. -/
def bulkInSize (engine : Engine τ) : Nat :=
  Transport.maxPacketSize engine.transport * engine.pipes.bulkInPackets

/-- The state right after polling for answers has been started, before anything else happens, and
whether it could be started. -/
def pollAnswers (engine : Engine τ) : TransportResult Unit × Engine τ :=
  ((engine.onTracker fun tracker ↦ { tracker with receiving := true }).onPipes
    fun pipes ↦ { pipes with bulkInAttached := true }).call (.startBulkIn engine.bulkInSize)
      (Transport.startBulkIn engine.bulkInSize)

/-- The state right after polling for notifications has been started, before anything else happens,
and whether it could be started. -/
def pollNotifications (engine : Engine τ) : TransportResult Unit × Engine τ :=
  (engine.onPipes fun pipes ↦ { pipes with interruptAttached := true }).call .startInterruptIn
    Transport.startInterruptIn

/-- Polling for answers is started unless answers are being received. -/
theorem exec_startBulkIn (turn : Turn τ) (engine : Engine τ) :
    (startBulkIn turn).exec engine =
      if engine.tracker.receiving then
        (.ok (), engine)
      else
        match engine.pollAnswers with
        | (.ok (), called) => (.ok (), ((turn .polling).exec called).2)
        | (.error error, called) =>
            (.error (.transport error), ((turn .polling).exec called).2.onTracker
              fun tracker ↦ { tracker with receiving := false }) := by
  unfold startBulkIn
  rw [EngineOp.exec_bind, EngineOp.exec_get]
  dsimp only
  split
  · rfl
  · rw [EngineOp.exec_bind, EngineOp.exec_modify]
    dsimp only
    rw [EngineOp.exec_bind, EngineOp.exec_modify]
    dsimp only
    rw [EngineOp.exec_bind, EngineOp.exec_modifyGet]
    unfold pollAnswers bulkInSize
    dsimp only
    rcases call (.startBulkIn _) _ _ with ⟨error | ⟨⟩, called⟩ <;> rfl

/-- Polling for notifications is started unless this succeeded before. -/
theorem exec_startInterruptIn (turn : Turn τ) (engine : Engine τ) :
    (startInterruptIn turn).exec engine =
      if engine.pipes.interruptStarted then
        (.ok (), engine)
      else
        match engine.pollNotifications with
        | (.ok (), called) =>
            (.ok (), ((turn .polling).exec called).2.onPipes
              fun pipes ↦ { pipes with interruptStarted := true })
        | (.error error, called) =>
            (.error (.transport error), ((turn .polling).exec called).2) := by
  unfold startInterruptIn
  rw [EngineOp.exec_bind, EngineOp.exec_get]
  dsimp only
  split
  · rfl
  · show (do
      let result ← modifyGet (call .startInterruptIn Transport.startInterruptIn)
      let _ ← (turn .polling : EngineM τ _)
      ofTransfer result
      modify (onPipes fun pipes ↦ { pipes with interruptStarted := true }) :
        EngineOp τ Unit).exec _ = _
    rw [EngineOp.exec_bind, EngineOp.exec_modifyGet]
    unfold pollNotifications
    dsimp only
    rcases call .startInterruptIn _ _ with ⟨error | ⟨⟩, called⟩ <;> rfl

/-- The bus is initialized if every I3C target can be given an address, with static addresses first
if some target has one. -/
theorem exec_initializeBus (turn : Turn τ) (engine : Engine τ) :
    (initializeBus turn).exec engine =
      if engine.table.isIdentifiable then
        (controlOut turn .initRequest .initializeI3cBus
          (if engine.table.hasStatic then 1 else 0) []).exec engine
      else
        (.error (.validation .unidentifiableDevice), engine) := by
  unfold initializeBus
  rw [EngineOp.exec_bind, EngineOp.exec_get]
  dsimp only
  rw [EngineOp.exec_bind, EngineOp.exec_ofResult]
  rcases engine.table.identify_cases with
    ⟨hidentifiable, census, hcensus, hstatic⟩ | ⟨hunidentifiable, herror⟩
  · rw [hcensus, if_pos hidentifiable]
    dsimp only
    by_cases h : census.staticCount > 0
    · rw [if_pos h, if_pos (hstatic.1 h)]
      rfl
    · rw [if_neg h, if_neg fun hhas ↦ h (hstatic.2 hhas)]
      rfl
  · rw [herror, hunidentifiable]
    rfl

/-- The targets that have an address are configured with one request, and then recorded as
configured. -/
theorem exec_configureTargets (turn : Turn τ) (engine : Engine τ) :
    (configureTargets turn).exec engine =
      match engine.device.capability with
      | none => (.error (.state .capabilitiesUnknown), engine)
      | some capability =>
          let config := configFor capability
          let payload := capability.maxIbiPayload
          if engine.table.addresses.isEmpty then
            (.ok (), engine)
          else
            match engine.table.configChange config payload with
            | .error error => (.error error, engine)
            | .ok buffer =>
                (do
                  controlOut turn .initRequest .setTargetDeviceConfig 0 buffer
                  engine.table.addresses.forM fun address ↦
                    recordConfig address config payload : EngineOp τ Unit).exec engine := by
  unfold configureTargets
  rw [EngineOp.exec_bind, EngineOp.exec_get]
  dsimp only
  cases engine.device.capability with
  | none => rfl
  | some capability =>
      dsimp only
      split
      · rfl
      · rw [EngineOp.exec_bind, EngineOp.exec_ofResult]
        cases engine.table.configChange _ _ <;> rfl

section Alike

variable {P : Engine τ → Prop} {turn other : Turn τ} (hP : Durable P)
  (hturn : ∀ moment, EngineM.Preserves P (turn moment))
  (hother : ∀ moment engine, P engine → (other moment).exec engine = (turn moment).exec engine)

include hP hturn hother

/-- A request that carries data. -/
theorem controlOut_alike (moment : Moment) (request : ClassRequest) (value : UInt16)
    (data : Bytes) :
    EngineOp.Alike P (controlOut other moment request value data)
      (controlOut turn moment request value data) :=
  .bind (.refl _) (.modifyGet (hP.call rfl _)) fun _ ↦
    .bind (.liftM (hother _)) (.liftM (hturn _)) fun _ ↦ .refl _

/-- Asking for later data. -/
theorem submitControlIn_alike (request : ClassRequest) (continuation : Continuation) :
    EngineOp.Alike P (submitControlIn other request continuation)
      (submitControlIn turn request continuation) :=
  .bind (.refl _) (.modifyGet (hP.call rfl _)) fun _ ↦ .bind (.refl _) (.ofResult _) fun _ ↦
    .bind (.liftM (hother _)) (.liftM (hturn _)) fun _ ↦ .refl _

/-- Starting to poll for notifications. -/
theorem startInterruptIn_alike :
    EngineOp.Alike P (startInterruptIn other) (startInterruptIn turn) := by
  refine .bind (.refl _) .get fun engine ↦ ?_
  split
  · exact .refl _
  · exact .bind (.refl _) (.modify fun engine ↦ hP.step _ _ (.pipes engine _)) fun _ ↦
      .bind (.refl _) (.modifyGet (hP.call rfl _)) fun _ ↦
      .bind (.liftM (hother _)) (.liftM (hturn _)) fun _ ↦ .refl _

/-- Having the bus initialized. -/
theorem initializeBus_alike : EngineOp.Alike P (initializeBus other) (initializeBus turn) :=
  .bind (.refl _) .get fun _ ↦ .bind (.refl _) (.ofResult _) fun _ ↦
    controlOut_alike hP hturn hother _ _ _ _

/-- Configuring all targets. -/
theorem configureTargets_alike :
    EngineOp.Alike P (configureTargets other) (configureTargets turn) := by
  refine .bind (.refl _) .get fun engine ↦ ?_
  split
  next => exact .refl _
  next capability _ =>
    dsimp only
    split
    · exact .refl _
    · exact .bind (.refl _) (.ofResult _) fun _ ↦
        .bind (controlOut_alike hP hturn hother _ _ _ _)
          (controlOut_preserves hturn (hP.call rfl _) _) fun _ ↦ .refl _

variable (hreceiving : ∀ engine receiving, P engine →
  P (engine.onTracker fun tracker ↦ { tracker with receiving }))

include hreceiving

/-- Starting to poll for answers. -/
theorem startBulkIn_alike : EngineOp.Alike P (startBulkIn other) (startBulkIn turn) := by
  refine .bind (.refl _) .get fun engine ↦ ?_
  split
  · exact .refl _
  · exact .bind (.refl _) (.modify fun _ ↦ hreceiving _ _) fun _ ↦
      .bind (.refl _) (.modify fun engine ↦ hP.step _ _ (.pipes engine _)) fun _ ↦
      .bind (.refl _) (.modifyGet (hP.call rfl _)) fun _ ↦
      .bind (.liftM (hother _)) (.liftM (hturn _)) fun _ ↦ .refl _

/-- Every action of a run does the same in two turns that let the same happen. -/
theorem operation_alike (action : InitAction)
    (hrole : ∀ change engine, P engine → P (onDeviceState change engine)) :
    EngineOp.Alike P (action.operation other) (action.operation turn) := by
  have hsubmit (request continuation) := submitControlIn_alike hP hturn hother request continuation
  cases action with
  | start => exact .bind (.refl _) (.liftM (hP.setFailure none)) fun _ ↦ hsubmit _ _
  | takeCapability buffer =>
      exact .bind (.refl _) (hP.applyCapability buffer) fun _ ↦
        startBulkIn_alike hP hturn hother hreceiving
  | initializeBus =>
      exact .bind (startInterruptIn_alike hP hturn hother) (hP.startInterruptIn hturn) fun _ ↦
        initializeBus_alike hP hturn hother
  | busInitialized => exact .bind (.refl _) (.modify (hrole _)) fun _ ↦ hsubmit _ _
  | takeListing buffer =>
      exact .bind (.refl _) (hP.stable.mergeListing buffer) fun _ ↦
        configureTargets_alike hP hturn hother
  | configApplied => exact hsubmit _ _
  | _ => exact .refl _

/-- What else could happen in states that an action does not reach is of no account. -/
theorem exec_performStandard_congr {action : InitAction}
    (hrole : ∀ change engine, P engine → P (onDeviceState change engine)) (h : P engine) :
    (performStandard other action).exec engine = (performStandard turn action).exec engine := by
  have hsame := operation_alike hP hturn hother hreceiving action hrole engine h
  rw [performStandard_eq, performStandard_eq, exec_postOutcome, exec_postOutcome, hsame]

end Alike

end Engine

end I3cHost
