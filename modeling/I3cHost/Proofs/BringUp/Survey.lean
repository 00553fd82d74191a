import I3cHost.Proofs.BringUp.Arrivals
import I3cHost.Proofs.BringUp.Staging
import I3cHost.Proofs.Target.Acceptance

/-!
# What initialization learns

What initialization learns of the device and its targets is determined by the events that it
accepts, as long as nothing else changes the table: each action makes of it what its survey says,
and if it fails then either the survey does, or the transport failed (`Follows`). So a run has
surveyed the events that it has accepted, or it has failed for such a reason (`staging_surveyed`).
-/

namespace I3cHost

/-- What is known of a device and its targets. -/
structure Inventory where
  capability : Option DeviceCapability
  table : TargetTable

namespace Inventory

/-- What is known once a capability report has been taken over. -/
def withReport (buffer : Bytes) (inventory : Inventory) : HostResult Inventory := do
  let report ← HostResult.ofCodec (CapabilityReport.decode buffer)
  let _ ← (inventory.table.mergeCapability buffer).1
  return ⟨some (.ofReport report), (inventory.table.mergeCapability buffer).2⟩

/-- What is known once a listing has been merged. -/
def withListing (buffer : Bytes) (inventory : Inventory) : HostResult Inventory := do
  let _ ← (inventory.table.mergeListing buffer).1
  return { inventory with table := (inventory.table.mergeListing buffer).2 }

/-- What is known once all targets have been configured as the device calls for. -/
def withConfig (inventory : Inventory) : HostResult Inventory :=
  match inventory.capability with
  | none => .error (.state .capabilitiesUnknown)
  | some capability =>
      .ok { inventory with
        table := inventory.table.configured (Engine.configFor capability) capability.maxIbiPayload }

/-- What is known when all targets are about to be given addresses. -/
def identified (inventory : Inventory) : HostResult Inventory :=
  if inventory.table.isIdentifiable then .ok inventory
  else .error (.validation .unidentifiableDevice)

/-- What is known stays the same, but arrivals are announced from then on. -/
def announcing (inventory : Inventory) : Inventory :=
  { inventory with table := { inventory.table with eventsEnabled := true } }

/-- What a run works with: a table that initialization and reports have made, which keeps its
arrivals to itself. -/
structure Sound (inventory : Inventory) : Prop where
  integrity : TargetTable.Integrity inventory.table.devices
  disabled : inventory.table.eventsEnabled = false
  flushed : inventory.table.arrivals = #[]

variable {inventory next : Inventory} {buffer : Bytes}

/-- A report is taken over exactly if it is well formed and the table accepts the targets it
lists. -/
theorem withReport_eq_ok_iff : inventory.withReport buffer = .ok next ↔
    ∃ report added table, CapabilityReport.decode buffer = .ok report ∧
      inventory.table.mergeCapability buffer = (.ok added, table) ∧
      next = ⟨some (.ofReport report), table⟩ := by
  unfold withReport
  cases CapabilityReport.decode buffer with
  | error error => simp [bind, Except.bind]
  | ok report =>
      rcases inventory.table.mergeCapability buffer with ⟨error | added, table⟩
      · simp [bind, Except.bind]
      · simp [bind, Except.bind, pure, Except.pure, eq_comm]

/-- A listing is taken over exactly if the table accepts it. -/
theorem withListing_eq_ok_iff : inventory.withListing buffer = .ok next ↔
    ∃ added table, inventory.table.mergeListing buffer = (.ok added, table) ∧
      next = { inventory with table } := by
  unfold withListing
  rcases inventory.table.mergeListing buffer with ⟨error | added, table⟩
  · simp [bind, Except.bind]
  · simp [bind, Except.bind, pure, Except.pure, eq_comm]

/-- The targets can be configured exactly if the capability of the device is known. -/
theorem withConfig_eq_ok_iff : inventory.withConfig = .ok next ↔
    ∃ capability, inventory.capability = some capability ∧ next = { inventory with
      table := inventory.table.configured (Engine.configFor capability)
        capability.maxIbiPayload } := by
  unfold withConfig
  cases inventory.capability with
  | none => simp
  | some capability => simp [eq_comm]

/-- Addresses can be given exactly if every target can be identified. -/
theorem identified_eq_ok_iff : inventory.identified = .ok next ↔
    inventory.table.isIdentifiable = true ∧ next = inventory := by
  unfold identified
  split
  next hidentifiable => simp [hidentifiable, eq_comm]
  next hidentifiable => simp [hidentifiable]

/-- No report ends the silence of the table. -/
theorem Sound.apply (h : inventory.Sound) {operation : TableOperation}
    (hoperation : ∀ enabled, operation ≠ .enableEvents enabled)
    (capability : Option DeviceCapability) :
    Sound ⟨capability, operation.apply inventory.table⟩ := by
  have hsame := TargetTable.sameEvents_apply hoperation inventory.table
  exact ⟨h.integrity.apply operation, hsame.enabled.trans h.disabled,
    (hsame.silent h.disabled).trans h.flushed⟩

/-- A report keeps the table sound, and its arrivals to itself. -/
theorem Sound.withReport (h : inventory.Sound) (hnext : inventory.withReport buffer = .ok next) :
    next.Sound := by
  obtain ⟨report, added, table, -, hmerge, rfl⟩ := withReport_eq_ok_iff.1 hnext
  have htable : Sound ⟨some (.ofReport report),
      (TableOperation.mergeCapability buffer).apply inventory.table⟩ := h.apply (by nofun) _
  rwa [TableOperation.apply, hmerge] at htable

/-- A listing keeps the table sound, and its arrivals to itself. -/
theorem Sound.withListing (h : inventory.Sound) (hnext : inventory.withListing buffer = .ok next) :
    next.Sound := by
  obtain ⟨added, table, hmerge, rfl⟩ := withListing_eq_ok_iff.1 hnext
  have htable : Sound ⟨inventory.capability,
      (TableOperation.mergeListing buffer).apply inventory.table⟩ := h.apply (by nofun) _
  rwa [TableOperation.apply, hmerge] at htable

/-- Configuring the targets keeps the table sound, and its arrivals to itself. -/
theorem Sound.withConfig (h : inventory.Sound) (hnext : inventory.withConfig = .ok next) :
    next.Sound := by
  obtain ⟨capability, -, rfl⟩ := withConfig_eq_ok_iff.1 hnext
  exact ⟨h.integrity.configured _ _, h.disabled, h.flushed⟩

end Inventory

/-- What is known after an action, or why the action fails. -/
def InitAction.survey (inventory : Inventory) : InitAction → HostResult Inventory
  | .takeCapability buffer => inventory.withReport buffer
  | .initializeBus => inventory.identified
  | .takeListing buffer => inventory.withListing buffer >>= Inventory.withConfig
  | .refreshListing buffer => inventory.withListing buffer
  | .ready => .ok inventory.announcing
  | _ => .ok inventory

/-- A listing is taken over during a run exactly if it can be merged and the capability is known. -/
theorem InitAction.survey_takeListing_eq_ok_iff {inventory next : Inventory} {buffer : Bytes} :
    (takeListing buffer).survey inventory = .ok next ↔ ∃ added table capability,
      inventory.table.mergeListing buffer = (.ok added, table) ∧
      inventory.capability = some capability ∧ next = { inventory with
        table := table.configured (Engine.configFor capability) capability.maxIbiPayload } := by
  show inventory.withListing buffer >>= Inventory.withConfig = .ok next ↔ _
  rw [bind_eq_ok_iff]
  constructor
  · rintro ⟨merged, hmerged, hconfigured⟩
    obtain ⟨added, table, hmerge, rfl⟩ := Inventory.withListing_eq_ok_iff.1 hmerged
    obtain ⟨capability, hcapability, rfl⟩ := Inventory.withConfig_eq_ok_iff.1 hconfigured
    exact ⟨added, table, capability, hmerge, hcapability, rfl⟩
  · rintro ⟨added, table, capability, hmerge, hcapability, rfl⟩
    exact ⟨_, Inventory.withListing_eq_ok_iff.2 ⟨added, table, hmerge, rfl⟩,
      Inventory.withConfig_eq_ok_iff.2 ⟨capability, hcapability, rfl⟩⟩

/-- Only the last action of a run ends the silence of the table. -/
theorem Inventory.Sound.survey {inventory next : Inventory} (h : inventory.Sound)
    {action : InitAction} (haction : action ≠ .ready) (hnext : action.survey inventory = .ok next) :
    next.Sound := by
  cases action with
  | takeCapability buffer => exact h.withReport hnext
  | initializeBus =>
      obtain ⟨-, rfl⟩ := Inventory.identified_eq_ok_iff.1 hnext
      exact h
  | takeListing buffer =>
      obtain ⟨merged, hmerged, hconfigured⟩ := bind_eq_ok_iff.1 hnext
      exact (h.withListing hmerged).withConfig hconfigured
  | refreshListing buffer => exact h.withListing hnext
  | ready => exact absurd rfl haction
  | _ => exact Except.ok.inj hnext ▸ h

/-- What is known once a run has accepted events and come to a state. -/
inductive Surveyed (start : Inventory) : List InitEvent → InitState → Inventory → Prop
  | asked : Surveyed start [] .capabilityRequested start
  | next {device : DeviceInfo} {accepted : List InitEvent} {state target : InitState}
      {event : InitEvent} {guard : Option (InitGuard × Bool)} {action : InitAction}
      {known next : Inventory} (h : Surveyed start accepted state known)
      (hdevice : device.capability = known.capability)
      (hleads : Leads device state event { guard, action, target })
      (hsurvey : action.survey known = .ok next) :
      Surveyed start (accepted ++ [event]) target next

/-- The reasons for which an action of a run fails: the transport fails, or its survey does. -/
inductive Refused (start : Inventory) : List InitEvent → HostError → Prop
  | transport (accepted : List InitEvent) (fault : TransportError) :
      Refused start accepted (.transport fault)
  | survey {device : DeviceInfo} {accepted : List InitEvent} {state target : InitState}
      {event : InitEvent} {guard : Option (InitGuard × Bool)} {action : InitAction}
      {known : Inventory} {error : HostError} (h : Surveyed start accepted state known)
      (hdevice : device.capability = known.capability)
      (hleads : Leads device state event { guard, action, target })
      (hsurvey : action.survey known = .error error) (later : List InitEvent) :
      Refused start (accepted ++ event :: later) error

/-- As long as a run goes on its table is sound, and keeps its arrivals to itself. -/
theorem Surveyed.sound {start known : Inventory} (hstart : start.Sound)
    {accepted : List InitEvent} {state : InitState} (h : Surveyed start accepted state known)
    (hstate : state ≠ .ready) : known.Sound := by
  induction h with
  | asked => exact hstart
  | next h hdevice hleads hsurvey ih =>
      refine (ih ?_).survey ?_ hsurvey
      · rintro rfl
        cases hleads
      · rintro rfl
        cases hleads
        exact hstate rfl

/-- What happens meanwhile, except that nothing changes the table. -/
def Turn.sparingTable {τ : Type} (turn : Turn τ) : Turn τ := fun moment ↦ do
  let table := (← get).table
  let count ← turn moment
  modify fun engine ↦ { engine with table }
  return count

namespace Engine

variable {τ : Type}

/-- What a session knows of its device and the targets. -/
def inventory (engine : Engine τ) : Inventory :=
  ⟨engine.device.capability, engine.table⟩

/-- No hook initializes the device, and this is known. -/
def Steady (inventory : Inventory) : Engine τ → Prop :=
  HooksInWith Hook.SparesBringUp (·.inventory = inventory) []

/-- What else happens during a run changes nothing of what is known. -/
structure Reserved (turn : Turn τ) : Prop where
  considerate : Considerate turn
  steady : ∀ inventory moment, EngineM.Preserves (Steady inventory) (turn moment)

/-- An operation changes nothing of what is known, and fails only if the transport does. -/
structure Neutral (operation : EngineOp τ Unit) : Prop where
  steady : ∀ inventory, EngineOp.Preserves (Steady inventory) operation
  fault : ∀ {engine after : Engine τ} {error}, operation.exec engine = (.error error, after) →
    ∃ fault, error = .transport fault

/-- An operation makes of what is known what a survey says. If it fails, either the survey does, or
the transport failed. -/
structure Follows (survey : Inventory → HostResult Inventory) (operation : EngineOp τ Unit) :
    Prop where
  sound : ∀ {inventory next}, inventory.Sound → survey inventory = .ok next → next.Sound
  succeeds : ∀ {inventory} {engine after : Engine τ}, inventory.Sound → Steady inventory engine →
    operation.exec engine = (.ok (), after) →
      ∃ next, survey inventory = .ok next ∧ Steady next after
  fails : ∀ {inventory} {engine after : Engine τ} {error}, inventory.Sound →
    Steady inventory engine → operation.exec engine = (.error error, after) →
      survey inventory = .error error ∨ ∃ fault, error = .transport fault

/-- One neutral operation after another is neutral. -/
theorem Neutral.bind {operation next : EngineOp τ Unit} (h : Neutral operation)
    (hnext : Neutral next) : Neutral (do operation; next) where
  steady inventory := .bind (h.steady inventory) fun _ ↦ hnext.steady inventory
  fault hexec := by
    rcases EngineOp.exec_bind_eq_error hexec with hfirst | ⟨⟨⟩, between, -, hlater⟩
    · exact h.fault hfirst
    · exact hnext.fault hlater

/-- After a neutral operation the same is known as before. -/
theorem Neutral.follows {operation : EngineOp τ Unit} (h : Neutral operation) :
    Follows Except.ok operation where
  sound hinventory hnext := Except.ok.inj hnext ▸ hinventory
  succeeds _ hengine hexec := ⟨_, rfl, (h.steady _).after hengine hexec⟩
  fails _ _ hexec := .inr (h.fault hexec)

/-- One operation after another follows one survey after the other. -/
theorem Follows.bind {first later : Inventory → HostResult Inventory}
    {operation next : EngineOp τ Unit} (h : Follows first operation) (hnext : Follows later next) :
    Follows (fun inventory ↦ first inventory >>= later) (do operation; next) where
  sound hinventory hsurvey := by
    obtain ⟨known, hknown, hrest⟩ := bind_eq_ok_iff.1 hsurvey
    exact hnext.sound (h.sound hinventory hknown) hrest
  succeeds hinventory hengine hexec := by
    obtain ⟨⟨⟩, between, hfirst, hlater⟩ := EngineOp.exec_bind_eq_ok hexec
    obtain ⟨known, hknown, hbetween⟩ := h.succeeds hinventory hengine hfirst
    rw [hknown]
    exact hnext.succeeds (h.sound hinventory hknown) hbetween hlater
  fails hinventory hengine hexec := by
    rcases EngineOp.exec_bind_eq_error hexec with hfirst | ⟨⟨⟩, between, hfirst, hlater⟩
    · refine (h.fails hinventory hengine hfirst).imp_left fun hrefused ↦ ?_
      rw [hrefused]
      rfl
    · obtain ⟨known, hknown, hbetween⟩ := h.succeeds hinventory hengine hfirst
      rw [hknown]
      exact hnext.fails (h.sound hinventory hknown) hbetween hlater

/-- What is neutral does not matter for a survey. -/
theorem Follows.then_neutral {survey : Inventory → HostResult Inventory}
    {operation next : EngineOp τ Unit} (h : Follows survey operation) (hnext : Neutral next) :
    Follows survey (do operation; next) := by
  have hboth := h.bind hnext.follows
  rwa [show (fun inventory ↦ survey inventory >>= Except.ok) = survey from
    funext fun inventory ↦ bind_pure (survey inventory)] at hboth

/-- An operation that makes no requests, in terms of its result. -/
theorem follows_of_result {survey : Inventory → HostResult Inventory} {operation : EngineOp τ Unit}
    (hsound : ∀ {inventory next}, inventory.Sound → survey inventory = .ok next → next.Sound)
    (hresult : ∀ engine,
      (operation.exec engine).1 = (survey engine.inventory).map fun _ ↦ ())
    (hsteady : ∀ {engine : Engine τ} {next}, engine.inventory.Sound →
      HooksIn Hook.SparesBringUp [] engine → survey engine.inventory = .ok next →
        Steady next (operation.exec engine).2) : Follows survey operation where
  sound := hsound
  succeeds {inventory engine after} hinventory hengine hexec := by
    obtain ⟨hhooks, rfl⟩ := hengine
    have hmap := hresult engine
    cases hnext : survey engine.inventory with
    | error error =>
        rw [hexec, hnext] at hmap
        cases hmap
    | ok next =>
        have hafter := hsteady hinventory hhooks hnext
        rw [hexec] at hafter
        exact ⟨next, rfl, hafter⟩
  fails {inventory engine after error} _ hengine hexec := by
    obtain ⟨-, rfl⟩ := hengine
    have hmap := hresult engine
    rw [hexec] at hmap
    cases hnext : survey engine.inventory with
    | error refused =>
        rw [hnext] at hmap
        exact .inl (congrArg Except.error (Except.error.inj hmap).symm)
    | ok next =>
        rw [hnext] at hmap
        cases hmap

section Merging

variable {inventory : Inventory} {engine : Engine τ}

/-- With nothing announced another table is simply taken over. -/
theorem Steady.withTable (h : Steady inventory engine) {table : TargetTable}
    (hflushed : table.arrivals = #[]) :
    Steady { inventory with table } (engine.withTable table) := by
  refine ⟨h.1.withTable table, ?_⟩
  obtain ⟨devices, enabled, listener, arrivals⟩ := table
  obtain rfl : arrivals = #[] := hflushed
  rw [← h.2]
  rfl

/-- Merging a report without targets leaves the table as it is. -/
theorem mergeCapability_of_isEmpty {table : TargetTable} {buffer : Bytes}
    {report : CapabilityReport} (hdecode : CapabilityReport.decode buffer = .ok report)
    (hempty : report.targets.isEmpty = true) : table.mergeCapability buffer = (.ok 0, table) := by
  rw [TargetTable.mergeCapability, hdecode]
  dsimp only
  rw [List.isEmpty_iff.1 hempty]
  rfl

/-- Taking a capability report over adds what it says to what is known. -/
theorem follows_applyCapability (buffer : Bytes) :
    Follows (Inventory.withReport buffer) (applyCapability buffer : EngineOp τ Unit) := by
  refine follows_of_result Inventory.Sound.withReport (fun engine ↦ ?_) ?_
  · rw [exec_applyCapability, Inventory.withReport]
    cases hdecode : CapabilityReport.decode buffer with
    | error error => rfl
    | ok report =>
        by_cases hempty : report.targets.isEmpty = true
        · simp only [if_pos hempty, inventory, mergeCapability_of_isEmpty hdecode hempty]
          rfl
        · simp only [if_neg hempty, inventory]
          cases (engine.table.mergeCapability buffer).1 <;> rfl
  · intro engine next hsound hhooks hnext
    have hflushed := (hsound.withReport hnext).flushed
    obtain ⟨report, added, table, hdecode, hmerge, rfl⟩ := Inventory.withReport_eq_ok_iff.1 hnext
    have hcapable : Steady ⟨some (.ofReport report), engine.table⟩ (engine.withCapability report) :=
      ⟨ofLedger_hooksIn engine _ rfl hhooks, rfl⟩
    have hmerge : engine.table.mergeCapability buffer = (.ok added, table) := hmerge
    rw [exec_applyCapability, hdecode]
    dsimp only
    by_cases hempty : report.targets.isEmpty = true
    · rw [mergeCapability_of_isEmpty hdecode hempty] at hmerge
      cases hmerge
      rw [if_pos hempty]
      exact hcapable
    · rw [if_neg hempty, hmerge]
      exact hcapable.withTable hflushed

/-- Merging a listing adds what it says to what is known. -/
theorem follows_mergeListing (buffer : Bytes) :
    Follows (Inventory.withListing buffer) (mergeListing buffer : EngineOp τ Unit) := by
  refine follows_of_result Inventory.Sound.withListing (fun engine ↦ ?_) ?_
  · rw [exec_mergeListing, Inventory.withListing, inventory]
    cases (engine.table.mergeListing buffer).1 <;> rfl
  · intro engine next hsound hhooks hnext
    have hflushed := (hsound.withListing hnext).flushed
    obtain ⟨added, table, hmerge, rfl⟩ := Inventory.withListing_eq_ok_iff.1 hnext
    have hmerge : engine.table.mergeListing buffer = (.ok added, table) := hmerge
    have hengine : Steady engine.inventory engine := ⟨hhooks, rfl⟩
    rw [exec_mergeListing, hmerge]
    exact hengine.withTable hflushed

/-- What is known once the configurations of some of the addresses have been recorded. -/
theorem steady_recordConfigs (addresses : List UInt8) (config : TargetConfig)
    (maxIbiPayload : UInt32) (hsound : inventory.Sound) (hengine : Steady inventory engine)
    (haddresses : ∀ address ∈ addresses, address ∈ inventory.table.addresses) :
    ∃ after, (addresses.forM fun address ↦
        recordConfig address config maxIbiPayload : EngineOp τ Unit).exec engine =
          (.ok (), after) ∧
      Steady { inventory with
        table := inventory.table.configuredAt addresses config maxIbiPayload } after := by
  cases addresses with
  | nil => exact ⟨engine, rfl, by rwa [TargetTable.configuredAt_nil]⟩
  | cons address others =>
      obtain ⟨-, rfl⟩ := id hengine
      exact ⟨_, exec_recordConfigs hsound.integrity haddresses config maxIbiPayload,
        hengine.withTable hsound.flushed⟩

end Merging

section Turn

variable [Transport τ] {turn : Turn τ} (hturn : Reserved turn)

include hturn

/-- A request for later data is only refused by the transport. -/
theorem neutral_submitControlIn (request : ClassRequest) (continuation : Continuation) :
    Neutral (submitControlIn turn request continuation) where
  steady inventory := submitControlIn_preserves (hturn.steady inventory) fun engine h ↦
    ⟨ofLedger_hooksIn engine _ rfl h.1, h.2⟩
  fault {engine after error} hexec := by
    rw [EngineOp.exec_submitControlIn] at hexec
    split at hexec
    · cases hexec
    next fault _ _ =>
      cases hexec
      exact ⟨fault, rfl⟩

/-- A request that carries data is only refused by the transport. -/
theorem neutral_controlOut (moment : Moment) (request : ClassRequest) (value : UInt16)
    (data : Bytes) : Neutral (controlOut turn moment request value data) where
  steady inventory := controlOut_preserves (hturn.steady inventory) (fun engine h ↦
    ⟨ofLedger_hooksIn engine _ rfl h.1, h.2⟩) moment
  fault {engine after error} hexec := by
    rw [EngineOp.exec_controlOut] at hexec
    rcases hcall : engine.call (.controlOut request value data)
      (Transport.controlOut request value data) with ⟨fault | ⟨⟩, called⟩
    · rw [hcall] at hexec
      exact ⟨fault, (Except.error.inj (Prod.mk.inj hexec).1).symm⟩
    · rw [hcall] at hexec
      cases hexec

/-- Polling for answers is only refused by the transport. -/
theorem neutral_startBulkIn : Neutral (startBulkIn turn) where
  steady inventory := startBulkIn_preserves (hturn.steady inventory)
    (fun _ engine h ↦ ⟨ofLedger_hooksIn engine _ rfl h.1, h.2⟩)
    (fun engine _ h ↦ ⟨ofLedger_hooksIn engine _ rfl h.1, h.2⟩)
    fun engine _ h ↦ ⟨ofLedger_hooksIn engine _ rfl h.1, h.2⟩
  fault {engine after error} hexec := by
    rw [exec_startBulkIn] at hexec
    split at hexec
    · cases hexec
    · split at hexec
      · cases hexec
      next fault _ _ =>
        cases hexec
        exact ⟨fault, rfl⟩

/-- Polling for notifications is only refused by the transport. -/
theorem neutral_startInterruptIn : Neutral (startInterruptIn turn) where
  steady inventory := startInterruptIn_preserves (hturn.steady inventory)
    (fun engine h ↦ ⟨ofLedger_hooksIn engine _ rfl h.1, h.2⟩)
    fun engine _ h ↦ ⟨ofLedger_hooksIn engine _ rfl h.1, h.2⟩
  fault {engine after error} hexec := by
    rw [exec_startInterruptIn] at hexec
    split at hexec
    · cases hexec
    · split at hexec
      · cases hexec
      next fault _ _ =>
        cases hexec
        exact ⟨fault, rfl⟩

/-- The bus is initialized unless a target cannot be identified or the transport refuses. -/
theorem follows_initializeBus : Follows Inventory.identified (initializeBus turn) where
  sound hinventory hnext := by
    obtain ⟨-, rfl⟩ := Inventory.identified_eq_ok_iff.1 hnext
    exact hinventory
  succeeds {inventory engine after} _ hengine hexec := by
    obtain ⟨-, rfl⟩ := id hengine
    rw [exec_initializeBus] at hexec
    split at hexec
    next hidentifiable =>
      exact ⟨_, Inventory.identified_eq_ok_iff.2 ⟨hidentifiable, rfl⟩,
        ((neutral_controlOut hturn _ _ _ _).steady _).after hengine hexec⟩
    next => cases hexec
  fails {inventory engine after error} _ hengine hexec := by
    obtain ⟨-, rfl⟩ := id hengine
    rw [exec_initializeBus] at hexec
    split at hexec
    next => exact .inr ((neutral_controlOut hturn _ _ _ _).fault hexec)
    next hunidentifiable =>
      cases hexec
      exact .inl (if_neg hunidentifiable)

/-- Configuring the targets fails only if the capability is unknown or the transport refuses. -/
theorem follows_configureTargets : Follows Inventory.withConfig (configureTargets turn) where
  sound := Inventory.Sound.withConfig
  succeeds {inventory engine after} hinventory hengine hexec := by
    obtain ⟨-, rfl⟩ := id hengine
    rw [exec_configureTargets] at hexec
    cases hcapability : engine.device.capability with
    | none =>
        rw [hcapability] at hexec
        cases hexec
    | some capability =>
        rw [hcapability] at hexec
        dsimp only at hexec
        refine ⟨_, Inventory.withConfig_eq_ok_iff.2 ⟨capability, hcapability, rfl⟩, ?_⟩
        rw [← TargetTable.configuredAt_addresses]
        show Steady { engine.inventory with
          table := engine.table.configuredAt engine.table.addresses _ _ } after
        split at hexec
        next hempty =>
          cases hexec
          rwa [List.isEmpty_iff.1 hempty, TargetTable.configuredAt_nil]
        next =>
          split at hexec
          · cases hexec
          next buffer _ =>
            obtain ⟨⟨⟩, told, htold, hrecord⟩ := EngineOp.exec_bind_eq_ok hexec
            have hsteady := ((neutral_controlOut hturn _ _ _ _).steady _).after hengine htold
            obtain ⟨recorded, hrecorded, hafter⟩ := steady_recordConfigs engine.table.addresses
              (configFor capability) capability.maxIbiPayload hinventory hsteady fun _ ↦ id
            obtain ⟨-, rfl⟩ := Prod.mk.inj (hrecorded.symm.trans hrecord)
            exact hafter
  fails {inventory engine after error} hinventory hengine hexec := by
    obtain ⟨-, rfl⟩ := id hengine
    rw [exec_configureTargets] at hexec
    cases hcapability : engine.device.capability with
    | none =>
        rw [hcapability] at hexec
        cases hexec
        exact .inl (by rw [Inventory.withConfig, inventory, hcapability])
    | some capability =>
        obtain ⟨buffer, hbuffer⟩ := TargetTable.configChange_accepted hinventory.integrity
          (configFor capability) capability.maxIbiPayload
        have hbuffer : engine.table.configChange _ _ = .ok buffer := hbuffer
        rw [hcapability] at hexec
        dsimp only at hexec
        rw [hbuffer] at hexec
        split at hexec
        · cases hexec
        · rcases EngineOp.exec_bind_eq_error hexec with htold | ⟨⟨⟩, told, htold, hrecord⟩
          · exact .inr ((neutral_controlOut hturn _ _ _ _).fault htold)
          · have hsteady := ((neutral_controlOut hturn _ _ _ _).steady _).after hengine htold
            obtain ⟨recorded, hrecorded, -⟩ := steady_recordConfigs engine.table.addresses
              (configFor capability) capability.maxIbiPayload hinventory hsteady fun _ ↦ id
            rw [hrecorded] at hrecord
            cases hrecord

/-- Every action of a run but the last does to what is known what its survey says. -/
theorem follows_operation {action : InitAction} (haction : action ≠ .ready) :
    Follows (fun inventory ↦ action.survey inventory) (action.operation turn) := by
  have hfailure (failure : Option HostError) :
      Neutral (liftM (setFailure failure : EngineM τ Unit) : EngineOp τ Unit) :=
    ⟨fun _ engine h ↦ ⟨ofLedger_hooksIn engine _ rfl h.1, h.2⟩, nofun⟩
  have hrole (change : DeviceState → DeviceState) :
      Neutral (modify (onDeviceState change) : EngineOp τ Unit) :=
    ⟨fun _ engine h ↦ ⟨ofLedger_hooksIn engine _ rfl h.1, h.2⟩, nofun⟩
  have hsubmit {request : ClassRequest} {continuation : Continuation} :=
    neutral_submitControlIn hturn request continuation
  cases action with
  | start => exact ((hfailure none).bind hsubmit).follows
  | takeCapability buffer =>
      exact (follows_applyCapability buffer).then_neutral (neutral_startBulkIn hturn)
  | initializeBus =>
      exact (neutral_startInterruptIn hturn).follows.bind (follows_initializeBus hturn)
  | stayInStandby => exact (hrole _).follows
  | busInitialized => exact ((hrole _).bind hsubmit).follows
  | busInitFailed code => exact ((hrole _).bind (hfailure _)).follows
  | takeListing buffer =>
      exact (follows_mergeListing buffer).bind (follows_configureTargets hturn)
  | configApplied => exact hsubmit.follows
  | refreshListing buffer => exact follows_mergeListing buffer
  | ready => exact absurd rfl haction
  | failure error => exact (hfailure _).follows

/-- A run surveys the events that it accepts, and fails for no other reason than that the transport
or a survey does. -/
theorem staging_surveyed {start : Inventory} (hstart : start.Sound) :
    Staging turn (fun accepted state engine ↦ Surveyed start accepted state engine.inventory)
      (Refused start) where
  considerate := hturn.considerate
  progress _ h := h
  succeeds {accepted state event transition engine after} hengine hleads h hexec := by
    have hready : state ≠ .ready := by
      rintro rfl
      cases hleads
    by_cases haction : transition.action = .ready
    · rw [haction] at hexec
      obtain ⟨-, rfl⟩ := Prod.mk.inj hexec
      exact .next h rfl hleads (by rw [haction]; rfl)
    · obtain ⟨next, hnext, -, rfl⟩ := (follows_operation hturn haction).succeeds
        (h.sound hstart hready) ⟨hengine.1, rfl⟩ hexec
      exact .next h rfl hleads hnext
  fails {accepted state event transition engine after error} hengine hleads h hexec := by
    have hready : state ≠ .ready := by
      rintro rfl
      cases hleads
    by_cases haction : transition.action = .ready
    · rw [haction] at hexec
      cases hexec
    · rcases (follows_operation hturn haction).fails (h.sound hstart hready) ⟨hengine.1, rfl⟩ hexec
        with hrefused | ⟨fault, rfl⟩
      · exact .survey h rfl hleads hrefused []
      · exact .transport _ fault
  lasting {accepted error} event h := by
    cases h with
    | transport _ fault => exact .transport _ fault
    | survey h hdevice hleads hsurvey later =>
        rw [List.append_assoc, List.cons_append]
        exact .survey h hdevice hleads hsurvey (later ++ [event])

/-- A run that can start comes to an end. It has surveyed the events that it has accepted, or it has
failed. -/
theorem Reserved.exec_runBringUp {engine : Engine τ} (hhooks : HooksIn Hook.SparesBringUp [] engine)
    (hpolicy : engine.bringUp.policy = {}) (hlistening : engine.bringUp.listening = true)
    (hstate : engine.bringUp.state.isStartable = true) (hsound : engine.cleared.inventory.Sound) :
    ∃ accepted last, (runCourse turn).exec engine = (accepted, last) ∧
      ((Surveyed engine.cleared.inventory accepted last.bringUp.state last.inventory ∧
          (last.bringUp.state = .ready ∨ last.bringUp.state = .standby)) ∨
        Failed (Refused engine.cleared.inventory) accepted last) := by
  have hstart : Follows (fun inventory ↦ InitAction.start.survey inventory)
      (InitAction.start.operation turn) := follows_operation hturn (by nofun)
  have hcleared : Steady engine.cleared.inventory engine.cleared :=
    ⟨ofLedger_hooksIn engine _ rfl hhooks, rfl⟩
  obtain ⟨accepted, last, hcourse, -, hlast⟩ :=
    (staging_surveyed hturn hsound).exec_runBringUp hhooks hpolicy hlistening hstate
      (fun after hexec ↦ by
        obtain ⟨known, hknown, -, rfl⟩ := hstart.succeeds hsound hcleared hexec
        exact Except.ok.inj hknown ▸ .asked)
      fun error after hexec ↦ by
        rcases hstart.fails hsound hcleared hexec with hrefused | ⟨fault, rfl⟩
        · cases hrefused
        · exact .transport [] fault
  exact ⟨accepted, last, hcourse, hlast⟩

omit [Transport τ] hturn in
/-- What survives a change of the table, and whatever happens meanwhile, survives both. -/
theorem sparingTable_preserves {P : Engine τ → Prop}
    (hP : ∀ engine table, P engine → P { engine with table }) {moment : Moment}
    (h : EngineM.Preserves P (turn moment)) : EngineM.Preserves P (turn.sparingTable moment) :=
  .bind .get fun _ ↦ .bind h fun _ ↦ .bind (.modify fun engine ↦ hP engine _) fun _ ↦ .pure _

omit hturn in
/-- Apart from the table nothing else changes what is known. -/
theorem reserved_sparingTable : Reserved (Turn.application : Turn τ).sparingTable where
  considerate := {
    attending moment := sparingTable_preserves
      (fun engine _ h ↦ ⟨ofLedger_hooksIn engine _ rfl h.1, h.2.policy, h.2.listening, h.2.posted⟩)
      (considerate_application.attending moment)
    falling Reason moment := sparingTable_preserves
      (fun engine _ h ↦ ⟨ofLedger_hooksIn engine _ rfl h.1, h.2.policy, h.2.listening, h.2.posted⟩)
      (considerate_application.falling Reason moment) }
  steady inventory moment engine h := by
    obtain ⟨hhooks, rfl⟩ := h
    obtain ⟨hafter, hcapability⟩ := sparing_application
      (beside_capability (· = engine.device.capability)) (fun _ _ _ h ↦ h) (fun _ _ h ↦ h) []
      moment engine ⟨hhooks, rfl⟩
    refine ⟨ofLedger_hooksIn (((Turn.application : Turn τ) moment).exec engine).2 _ rfl hafter, ?_⟩
    exact congrArg (Inventory.mk · engine.table) hcapability

end Turn

end Engine

end I3cHost
