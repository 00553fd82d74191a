import I3cHost.Proofs.BringUp.Repetition

/-!
# Configurations kept in step

The host remembers how its targets are configured, and so does the device. An operation that
configures targets tells the device first and records the configuration after that; one that
changes a part of a configuration takes the other part from the table. If table and device agree on
all targets before a sequence of such operations then they agree after each of them, whichever of
them the device accepts (`configurations_kept`). What an operation does follows from its order,
which says what the targets at some addresses are to be given (`ConfigCall.exec_cases`).
-/

namespace I3cHost

/-- What a device keeps for every address: a configuration, and a limit for the payload of
interrupts. -/
abbrev Configurations := UInt8 → TargetConfig × UInt32

/-- What is kept after the entries of a change have taken effect, in order. -/
def ConfigChange.applyTo (change : ConfigChange) (configs : Configurations) : Configurations :=
  change.entries.foldl (fun configs entry ↦
    Function.update configs entry.address (entry.config.config, entry.maxIbiPayload)) configs

/-- What the targets at some addresses are to be given. -/
structure ConfigOrder where
  addresses : List UInt8
  config : TargetConfig
  maxIbiPayload : UInt32

/-- The change that the device is asked for. -/
def ConfigOrder.change (order : ConfigOrder) : ConfigChange :=
  ⟨order.addresses.map fun address ↦
    { address, config := order.config.bits, maxIbiPayload := order.maxIbiPayload }⟩

/-- The device keeps what was ordered for the addresses that it was ordered for. -/
theorem ConfigOrder.applyTo_change (order : ConfigOrder) (configs : Configurations)
    (address : UInt8) : order.change.applyTo configs address =
      if address ∈ order.addresses then (order.config, order.maxIbiPayload)
      else configs address := by
  obtain ⟨addresses, config, maxIbiPayload⟩ := order
  unfold change ConfigChange.applyTo
  rw [List.foldl_map]
  simp only [TargetConfig.config_bits]
  induction addresses generalizing configs with
  | nil => simp
  | cons first others ih =>
      rw [List.foldl_cons, ih]
      by_cases hothers : address ∈ others
      · simp [hothers]
      · by_cases hfirst : address = first
        · simp [hfirst]
        · simp [hothers, hfirst]

/-- A device that keeps the configurations of its targets. A transport decides which requests are
accepted, and when what else happens. -/
structure ConfigurableTransport (τ : Type) where
  transport : τ
  configs : Configurations

namespace ConfigurableTransport

variable {τ : Type}

/-- A call that has nothing to do with configurations. -/
def through {α : Type} (call : StateM τ α) : StateM (ConfigurableTransport τ) α :=
  modifyGet fun device ↦
    let (result, transport) := call.run device.transport
    (result, { device with transport })

/-- What is kept after a request that carries data: a change of configurations takes effect if it
has been accepted. -/
def configsAfter (request : ClassRequest) (data : Bytes) (result : TransportResult Unit)
    (configs : Configurations) : Configurations :=
  match request, result, ConfigChange.decode data with
  | .setTargetDeviceConfig, .ok (), .ok change => change.applyTo configs
  | _, _, _ => configs

instance [Transport τ] : Transport (ConfigurableTransport τ) where
  maxPacketSize device := Transport.maxPacketSize device.transport
  controlIn request value maxLength := through (Transport.controlIn request value maxLength)
  submitControlIn request value maxLength continuation :=
    through (Transport.submitControlIn request value maxLength continuation)
  controlOut request value data :=
    modifyGet fun device ↦
      let (result, transport) := (Transport.controlOut request value data).run device.transport
      (result, { transport, configs := configsAfter request data result device.configs })
  bulkOut data := through (Transport.bulkOut data)
  startBulkIn bufferSize := through (Transport.startBulkIn bufferSize)
  startInterruptIn := through Transport.startInterruptIn
  next? moment device :=
    (Transport.next? moment device.transport).map fun (completion, transport) ↦
      (completion, { device with transport })

end ConfigurableTransport

/-- An operation that configures targets. -/
inductive ConfigCall where
  | setConfig (address : UInt8) (config : TargetConfig)
  | setMaxIbi (address : UInt8) (maxIbiPayload : UInt32)
  /-- The step of initialization that configures all targets. -/
  | configureAll

namespace ConfigCall

/-- Carries the operation out, as calls of the application and initialization do. -/
def operation {τ : Type} [Transport τ] (turn : Turn τ) : ConfigCall → EngineOp τ Unit
  | .setConfig address config => Engine.setDeviceConfig turn address config
  | .setMaxIbi address maxIbiPayload => Engine.setDeviceMaxIbi turn address maxIbiPayload
  | .configureAll => Engine.configureTargets turn

/-- The occasion on which completions may be delivered while its request is under way. -/
def moment : ConfigCall → Moment
  | .configureAll => .initRequest
  | _ => .request

/-- The address of the only target that it is about. -/
def target? : ConfigCall → Option UInt8
  | .setConfig address _ => some address
  | .setMaxIbi address _ => some address
  | .configureAll => none

/-- What is ordered, unless the operation is refused at once. -/
def order {τ : Type} (call : ConfigCall) (engine : Engine τ) : HostResult ConfigOrder :=
  match call with
  | .setConfig address config => do
      let device ← Engine.managedDevice address engine
      return ⟨[address], config, device.maxIbiPayload⟩
  | .setMaxIbi address maxIbiPayload => do
      let device ← Engine.managedDevice address engine
      return ⟨[address], device.config, maxIbiPayload⟩
  | .configureAll =>
      match engine.device.capability with
      | none => .error (.state .capabilitiesUnknown)
      | some capability =>
          .ok ⟨engine.table.addresses, Engine.configFor capability, capability.maxIbiPayload⟩

end ConfigCall

namespace Engine

variable {τ : Type}

/-- Only a target in the table can be managed. -/
theorem mem_addresses_of_managedDevice {address : UInt8} {engine : Engine τ} {device : TargetDevice}
    (h : managedDevice address engine = .ok device) : address ∈ engine.table.addresses := by
  unfold managedDevice at h
  obtain ⟨⟨⟩, -, h⟩ := bind_eq_ok_iff.1 h
  refine Decidable.byContradiction fun hfree ↦ ?_
  rw [TargetTable.get?, TargetTable.position_eq_none_iff.2 hfree] at h
  cases h

end Engine

namespace ConfigCall

variable {τ : Type} {engine : Engine τ} {call : ConfigCall} {order : ConfigOrder}

/-- An order is for one target in the table, or for all of them that have an address. -/
theorem order_cases (h : call.order engine = .ok order) :
    (∃ address, call.target? = some address ∧ order.addresses = [address] ∧
        address ∈ engine.table.addresses) ∨
      call.target? = none ∧ order.addresses = engine.table.addresses := by
  cases call with
  | setConfig address config =>
      obtain ⟨device, hdevice, horder⟩ := bind_eq_ok_iff.1 h
      cases horder
      exact .inl ⟨address, rfl, rfl, Engine.mem_addresses_of_managedDevice hdevice⟩
  | setMaxIbi address maxIbiPayload =>
      obtain ⟨device, hdevice, horder⟩ := bind_eq_ok_iff.1 h
      cases horder
      exact .inl ⟨address, rfl, rfl, Engine.mem_addresses_of_managedDevice hdevice⟩
  | configureAll =>
      dsimp only [ConfigCall.order] at h
      split at h
      next => cases h
      next =>
        cases h
        exact .inr ⟨rfl, rfl⟩

/-- Only targets in the table are configured. -/
theorem mem_addresses_of_order (h : call.order engine = .ok order) :
    ∀ address ∈ order.addresses, address ∈ engine.table.addresses := by
  rcases order_cases h with ⟨address, -, haddresses, hused⟩ | ⟨-, haddresses⟩
  · rw [haddresses]
    exact List.forall_mem_singleton.2 hused
  · rw [haddresses]
    exact fun _ ↦ id

/-- An operation about one target is ordered for its address only. -/
theorem addresses_of_target? {address : UInt8} (htarget : call.target? = some address)
    (h : call.order engine = .ok order) : order.addresses = [address] := by
  rcases order_cases h with ⟨other, hother, haddresses, -⟩ | ⟨hnone, -⟩
  · cases htarget.symm.trans hother
    exact haddresses
  · cases htarget.symm.trans hnone

/-- What is ordered can be counted in the request for it. -/
theorem length_entries_le (hengine : TargetTable.Integrity engine.table.devices)
    (h : call.order engine = .ok order) : order.change.entries.length ≤ 255 := by
  rw [ConfigOrder.change, List.length_map]
  rcases order_cases h with ⟨address, -, haddresses, -⟩ | ⟨-, haddresses⟩
  · rw [haddresses, List.length_singleton]
    decide
  · rw [haddresses]
    exact Nat.le_trans (TargetTable.length_addresses_le hengine) (by decide)

end ConfigCall

/-- The device is told first, then the table. -/
def ConfigOrder.carryOut {τ : Type} [Transport τ] (turn : Turn τ) (moment : Moment)
    (order : ConfigOrder) : EngineOp τ Unit := do
  Engine.controlOut turn moment .setTargetDeviceConfig 0 order.change.layout
  order.addresses.forM fun address ↦
    Engine.recordConfig address order.config order.maxIbiPayload

namespace ConfigCall

variable {τ : Type} [Transport τ] {engine : Engine τ}

/-- Configuring one target carries out an order for it. -/
theorem exec_configureDevice (turn : Turn τ) (address : UInt8) (config : TargetConfig)
    (maxIbiPayload : UInt32) :
    (Engine.configureDevice turn address config maxIbiPayload).exec engine =
      (ConfigOrder.carryOut turn .request ⟨[address], config, maxIbiPayload⟩).exec engine := by
  have hcount : (ConfigOrder.change ⟨[address], config, maxIbiPayload⟩).entries.length ≤ 255 :=
    Nat.le_add_left 1 254
  have hbuffer : Message.toBytes
      (⟨[{ address, config := config.bits, maxIbiPayload }]⟩ : ConfigChange) = .ok _ :=
    ConfigChange.toBytes_eq_layout _ hcount
  have hrecord : [address].forM (fun address ↦
      (Engine.recordConfig address config maxIbiPayload : EngineOp τ Unit)) =
        Engine.recordConfig address config maxIbiPayload :=
    bind_pure_unit
  unfold Engine.configureDevice ConfigOrder.carryOut
  dsimp only
  rw [EngineOp.exec_bind, EngineOp.exec_ofResult, hbuffer, hrecord]
  rfl

/-- An operation on a target that can be managed carries out an order that depends on it. -/
theorem exec_managed (turn : Turn τ) (address : UInt8) (config : TargetDevice → TargetConfig)
    (maxIbiPayload : TargetDevice → UInt32) :
    (do
      let device ← Engine.ofResult (Engine.managedDevice address (← get))
      Engine.configureDevice turn address (config device) (maxIbiPayload device) :
        EngineOp τ Unit).exec engine =
      match Engine.managedDevice address engine with
      | .error error => (.error error, engine)
      | .ok device => (ConfigOrder.carryOut turn .request
          ⟨[address], config device, maxIbiPayload device⟩).exec engine := by
  rw [EngineOp.exec_bind, EngineOp.exec_get]
  dsimp only
  rw [EngineOp.exec_bind, EngineOp.exec_ofResult]
  cases Engine.managedDevice address engine with
  | error error => rfl
  | ok device => exact exec_configureDevice _ _ _ _

/-- An operation that is not refused at once carries its order out, unless that is for no
address. -/
theorem exec_operation (hengine : TargetTable.Integrity engine.table.devices) (turn : Turn τ)
    (call : ConfigCall) : (call.operation turn).exec engine =
      match call.order engine with
      | .error error => (.error error, engine)
      | .ok order =>
          if order.addresses.isEmpty then (.ok (), engine)
          else (order.carryOut turn call.moment).exec engine := by
  cases call with
  | setConfig address config =>
      refine (exec_managed turn address (fun _ ↦ config) (·.maxIbiPayload)).trans ?_
      dsimp only [ConfigCall.order]
      cases Engine.managedDevice address engine <;> rfl
  | setMaxIbi address maxIbiPayload =>
      refine (exec_managed turn address (·.config) fun _ ↦ maxIbiPayload).trans ?_
      dsimp only [ConfigCall.order]
      cases Engine.managedDevice address engine <;> rfl
  | configureAll =>
      unfold operation
      rw [Engine.exec_configureTargets]
      cases hcapability : engine.device.capability with
      | none =>
          rw [ConfigCall.order, hcapability]
      | some capability =>
          have horder : configureAll.order engine = .ok ⟨engine.table.addresses,
              Engine.configFor capability, capability.maxIbiPayload⟩ := by
            rw [ConfigCall.order, hcapability]
          have hbuffer : engine.table.configChange (Engine.configFor capability)
              capability.maxIbiPayload = .ok _ :=
            congrArg HostResult.ofCodec
              (ConfigChange.toBytes_eq_layout _ (length_entries_le hengine horder))
          rw [horder]
          dsimp only
          rw [hbuffer]
          rfl

end ConfigCall

namespace Engine

variable {τ : Type} {engine next : Engine (ConfigurableTransport τ)}

/-- The table and the device agree on every target that has an address. -/
def InStep (engine : Engine (ConfigurableTransport τ)) : Prop :=
  ∀ device ∈ engine.table.devices, device.address ≠ 0 →
    engine.transport.configs device.address = (device.config, device.maxIbiPayload)

instance : Decidable engine.InStep :=
  inferInstanceAs (Decidable (∀ device ∈ engine.table.devices, _))

/-- Neither the targets in the table nor what the device keeps have changed. -/
structure SameConfigs (engine next : Engine (ConfigurableTransport τ)) : Prop where
  devices : next.table.devices = engine.table.devices
  configs : next.transport.configs = engine.transport.configs

/-- No target at another address has changed, neither in the table nor on the device. -/
structure SparesOthers (address : UInt8) (engine next : Engine (ConfigurableTransport τ)) :
    Prop where
  devices : next.table.devices.filter (·.address != address) =
    engine.table.devices.filter (·.address != address)
  configs : ∀ other ≠ address, next.transport.configs other = engine.transport.configs other

/-- The table and the device have both followed an order. -/
structure Followed (order : ConfigOrder) (engine next : Engine (ConfigurableTransport τ)) :
    Prop where
  devices : next.table.devices = engine.table.devices.map
    (·.configuredAt order.addresses order.config order.maxIbiPayload)
  configs : next.transport.configs = order.change.applyTo engine.transport.configs

/-- If nothing changes, and then nothing does, nothing has changed. -/
theorem SameConfigs.trans {last : Engine (ConfigurableTransport τ)} (h : SameConfigs engine next)
    (hlast : SameConfigs next last) : SameConfigs engine last :=
  ⟨hlast.devices.trans h.devices, hlast.configs.trans h.configs⟩

/-- If nothing changes, table and device stay in step. -/
theorem SameConfigs.inStep (h : SameConfigs engine next) (hinStep : engine.InStep) :
    next.InStep := by
  unfold InStep
  rwa [h.devices, h.configs]

/-- If nothing changes, then no other target does. -/
theorem SameConfigs.sparesOthers (h : SameConfigs engine next) (address : UInt8) :
    SparesOthers address engine next :=
  ⟨by rw [h.devices], fun _ _ ↦ by rw [h.configs]⟩

variable {order : ConfigOrder}

/-- An order for no address asks for nothing. -/
theorem Followed.of_isEmpty (h : order.addresses = []) : Followed order engine engine where
  devices := by simp [h]
  configs := by
    funext address
    rw [order.applyTo_change, h, if_neg List.not_mem_nil]

/-- If table and device follow the same order they stay in step. -/
theorem Followed.inStep (h : Followed order engine next) (hinStep : engine.InStep) :
    next.InStep := by
  intro device hdevice hzero
  rw [h.devices] at hdevice
  obtain ⟨before, hbefore, rfl⟩ := List.mem_map.1 hdevice
  rw [TargetDevice.address_configuredAt] at hzero ⊢
  rw [h.configs, order.applyTo_change, TargetDevice.configuredAt]
  by_cases haddress : before.address ∈ order.addresses
  · rw [if_pos haddress, if_pos haddress]
  · rw [if_neg haddress, if_neg haddress]
    exact hinStep before hbefore hzero

/-- If table and device follow an order about one target they spare the others. -/
theorem Followed.sparesOthers {address : UInt8} (h : Followed order engine next)
    (haddress : order.addresses = [address]) : SparesOthers address engine next where
  devices := by
    have hkept : ∀ device ∈ engine.table.devices.filter (·.address != address),
        device.configuredAt [address] order.config order.maxIbiPayload = device := by
      intro device hdevice
      have hother := bne_iff_ne.1 (List.mem_filter.1 hdevice).2
      exact if_neg fun hmem ↦ hother (List.mem_singleton.1 hmem)
    simp only [h.devices, haddress, List.filter_map, Function.comp_def,
      TargetDevice.address_configuredAt]
    rw [List.map_congr_left hkept, List.map_id']
  configs other hother := by
    rw [h.configs, order.applyTo_change, haddress, if_neg]
    exact fun hmem ↦ hother (List.mem_singleton.1 hmem)

end Engine

namespace ConfigOrder

variable {τ : Type} [Transport τ]

/-- The state right after the device has been asked for a change, before anything else happens, and
whether it has accepted the request. -/
def ask (order : ConfigOrder) (engine : Engine τ) : TransportResult Unit × Engine τ :=
  engine.call (.controlOut .setTargetDeviceConfig 0 order.change.layout)
    (Transport.controlOut .setTargetDeviceConfig 0 order.change.layout)

variable {engine called : Engine (ConfigurableTransport τ)} {order : ConfigOrder}

/-- Asking the device for a change leaves the table alone. -/
theorem table_ask (order : ConfigOrder) (engine : Engine (ConfigurableTransport τ)) :
    (order.ask engine).2.table = engine.table :=
  rfl

/-- The device keeps what it was asked for if it has accepted the request. -/
theorem configs_ask (order : ConfigOrder) (engine : Engine (ConfigurableTransport τ)) :
    (order.ask engine).2.transport.configs =
      ConfigurableTransport.configsAfter .setTargetDeviceConfig order.change.layout
        (order.ask engine).1 engine.transport.configs :=
  rfl

/-- A request that is not accepted has no effect. -/
theorem sameConfigs_of_ask {error : TransportError}
    (h : order.ask engine = (.error error, called)) : engine.SameConfigs called := by
  have htable := table_ask order engine
  have hconfigs := configs_ask order engine
  rw [h] at htable hconfigs
  exact ⟨congrArg _ htable, hconfigs⟩

/-- A request that is accepted takes effect on the device. -/
theorem applied_of_ask (hcount : order.change.entries.length ≤ 255)
    (h : order.ask engine = (.ok (), called)) :
    called.transport.configs = order.change.applyTo engine.transport.configs := by
  have hconfigs := configs_ask order engine
  rw [h] at hconfigs
  rw [hconfigs]
  simp only [ConfigurableTransport.configsAfter, ConfigChange.decode_layout _ hcount]

/-- The request comes first, then what else happens, and then the table, if the request has been
accepted. -/
theorem exec_carryOut {τ : Type} [Transport τ] (turn : Turn τ) (moment : Moment)
    (order : ConfigOrder) (engine : Engine τ) :
    (order.carryOut turn moment).exec engine =
      match order.ask engine with
      | (.error error, called) => (.error (.transport error), ((turn moment).exec called).2)
      | (.ok (), called) =>
          (order.addresses.forM fun address ↦
            Engine.recordConfig address order.config order.maxIbiPayload : EngineOp τ Unit).exec
              ((turn moment).exec called).2 := by
  unfold carryOut ask
  rw [EngineOp.exec_bind, EngineOp.exec_controlOut]
  rcases engine.call _ _ with ⟨error | ⟨⟩, called⟩ <;> rfl

/-- An order is refused and changes nothing, or table and device both follow it, provided that
nothing else happens to them meanwhile. -/
theorem carryOut_cases (hengine : TargetTable.Integrity engine.table.devices)
    (hused : ∀ address ∈ order.addresses, address ∈ engine.table.addresses)
    (hnonempty : order.addresses ≠ []) (hcount : order.change.entries.length ≤ 255)
    {turn : Turn (ConfigurableTransport τ)} {moment : Moment}
    (hmeanwhile : (order.ask engine).2.SameConfigs ((turn moment).exec (order.ask engine).2).2)
    {result : HostResult Unit} {next : Engine (ConfigurableTransport τ)}
    (hexec : (order.carryOut turn moment).exec engine = (result, next)) :
    (∃ error, result = .error error) ∧ engine.SameConfigs next ∨
      result = .ok () ∧ Engine.Followed order engine next := by
  rw [exec_carryOut] at hexec
  rcases hask : order.ask engine with ⟨error | ⟨⟩, called⟩
  · rw [hask] at hexec hmeanwhile
    cases hexec
    exact .inl ⟨⟨_, rfl⟩, (sameConfigs_of_ask hask).trans hmeanwhile⟩
  · have hdevices : ((turn moment).exec called).2.table.devices = engine.table.devices := by
      rw [← table_ask order engine, ← hmeanwhile.devices, hask]
    rw [hask] at hexec hmeanwhile
    dsimp only at hexec hmeanwhile
    generalize ((turn moment).exec called).2 = met at hexec hmeanwhile hdevices
    -- The addresses are still in use when they are to be recorded, so recording cannot fail.
    have hstill : met.table.addresses = engine.table.addresses := by
      unfold TargetTable.addresses
      rw [hdevices]
    rw [← hstill] at hused
    obtain ⟨address, others, haddresses⟩ := List.exists_cons_of_ne_nil hnonempty
    rw [haddresses] at hused hexec
    rw [Engine.exec_recordConfigs (hdevices ▸ hengine) hused] at hexec
    cases hexec
    refine .inr ⟨rfl, ?_, ?_⟩
    · rw [haddresses, ← hdevices]
      rfl
    · exact hmeanwhile.configs.trans (applied_of_ask hcount hask)

end ConfigOrder

namespace ConfigCall

variable {τ : Type} [Transport τ] {turn : Turn (ConfigurableTransport τ)} {call : ConfigCall}
  {engine : Engine (ConfigurableTransport τ)}

/-- Whatever else happens while the request of an operation is under way, if it makes one, changes
neither the targets in the table nor what the device keeps, so it is not such an operation itself
that takes effect. -/
def Undisturbed (turn : Turn (ConfigurableTransport τ)) (call : ConfigCall)
    (engine : Engine (ConfigurableTransport τ)) : Prop :=
  ∀ order, call.order engine = .ok order → order.addresses ≠ [] →
    (order.ask engine).2.SameConfigs ((turn call.moment).exec (order.ask engine).2).2

/-- Whether the transport hands nothing out while the request of an operation is under way. -/
def isQuiet (call : ConfigCall) (engine : Engine (ConfigurableTransport τ)) : Bool :=
  match call.order engine with
  | .ok order => (Transport.next? call.moment (order.ask engine).2.transport).isNone
  | .error _ => true

/-- An operation of the application is not disturbed as long as nothing is handed out. -/
theorem undisturbed_of_isQuiet (h : call.isQuiet engine = true) :
    call.Undisturbed Turn.application engine := by
  intro order horder _
  rw [isQuiet, horder] at h
  have hwaiting : Turn.application call.moment =
      (Turn.waiting call.moment : EngineM (ConfigurableTransport τ) Nat) := by
    cases call <;> rfl
  rw [hwaiting, Turn.waiting_idle (Option.isNone_iff_eq_none.1 h)]
  exact ⟨rfl, rfl⟩

/-- An operation fails and changes nothing, or table and device both follow its order. -/
theorem exec_cases (hengine : TargetTable.Integrity engine.table.devices)
    (hundisturbed : call.Undisturbed turn engine) {result : HostResult Unit}
    {next : Engine (ConfigurableTransport τ)}
    (hexec : (call.operation turn).exec engine = (result, next)) :
    (∃ error, result = .error error) ∧ engine.SameConfigs next ∨
      ∃ order, call.order engine = .ok order ∧ result = .ok () ∧
        Engine.Followed order engine next := by
  rw [exec_operation hengine] at hexec
  cases horder : call.order engine with
  | error error =>
      rw [horder] at hexec
      cases hexec
      exact .inl ⟨⟨error, rfl⟩, rfl, rfl⟩
  | ok order =>
      rw [horder] at hexec
      dsimp only at hexec
      by_cases hempty : order.addresses = []
      · rw [if_pos (List.isEmpty_iff.2 hempty)] at hexec
        cases hexec
        exact .inr ⟨order, rfl, rfl, .of_isEmpty hempty⟩
      · rw [if_neg fun hnil ↦ hempty (List.isEmpty_iff.1 hnil)] at hexec
        refine (ConfigOrder.carryOut_cases hengine (mem_addresses_of_order horder) hempty
          (length_entries_le hengine horder) (hundisturbed order horder hempty) hexec).imp_right ?_
        exact fun ⟨hok, hfollowed⟩ ↦ ⟨order, rfl, hok, hfollowed⟩

/-- One operation keeps the table in order and the two copies in step. -/
theorem exec_keeps (hengine : TargetTable.Integrity engine.table.devices)
    (hundisturbed : call.Undisturbed turn engine) {result : HostResult Unit}
    {next : Engine (ConfigurableTransport τ)}
    (hexec : (call.operation turn).exec engine = (result, next)) :
    TargetTable.Integrity next.table.devices ∧ (engine.InStep → next.InStep) := by
  rcases exec_cases hengine hundisturbed hexec with ⟨-, hsame⟩ | ⟨order, -, -, hfollowed⟩
  · exact ⟨hsame.devices ▸ hengine, hsame.inStep⟩
  · exact ⟨hfollowed.devices ▸ hengine.configuredAt _ _ _, hfollowed.inStep⟩

end ConfigCall

namespace Engine

variable {τ : Type} [Transport τ]

/-- The state after operations that configure targets. -/
def afterConfigs (turn : Turn τ) (calls : List ConfigCall) (engine : Engine τ) : Engine τ :=
  calls.foldl (fun engine call ↦ ((call.operation turn).exec engine).2) engine

variable {turn : Turn (ConfigurableTransport τ)} {engine : Engine (ConfigurableTransport τ)}
  {calls : List ConfigCall}

/-- None of the operations is disturbed where it is carried out. -/
def UndisturbedConfigs (turn : Turn (ConfigurableTransport τ)) (calls : List ConfigCall)
    (engine : Engine (ConfigurableTransport τ)) : Prop :=
  ∀ before call later, calls = before ++ call :: later →
    call.Undisturbed turn (engine.afterConfigs turn before)

/-- If a series of operations is not disturbed, neither is its beginning. -/
theorem UndisturbedConfigs.of_append {later : List ConfigCall}
    (h : UndisturbedConfigs turn (calls ++ later) engine) :
    UndisturbedConfigs turn calls engine := by
  rintro before call others rfl
  exact h before call (others ++ later) (by simp)

/-- A series of operations is not disturbed if the first is not, nor are the others after it. -/
theorem undisturbedConfigs_cons {call : ConfigCall} :
    UndisturbedConfigs turn (call :: calls) engine ↔ call.Undisturbed turn engine ∧
      UndisturbedConfigs turn calls ((call.operation turn).exec engine).2 := by
  constructor
  · refine fun h ↦ ⟨h [] call calls rfl, ?_⟩
    rintro before other later rfl
    exact h (call :: before) other later rfl
  · rintro ⟨hcall, hcalls⟩ before other later heq
    cases before with
    | nil =>
        cases heq
        exact hcall
    | cons first before =>
        cases heq
        exact hcalls before other later rfl

/-- Whether the transport hands nothing out while the requests of operations are under way. -/
def areQuiet : List ConfigCall → Engine (ConfigurableTransport τ) → Bool
  | [], _ => true
  | call :: calls, engine =>
      call.isQuiet engine && areQuiet calls ((call.operation Turn.application).exec engine).2

/-- Operations during which the transport hands nothing out are not disturbed. -/
theorem undisturbed_of_areQuiet (h : areQuiet calls engine = true) :
    UndisturbedConfigs Turn.application calls engine := by
  induction calls generalizing engine with
  | nil => exact fun before call later heq ↦ absurd heq (by simp)
  | cons call calls ih =>
      obtain ⟨hcall, hcalls⟩ := Bool.and_eq_true_iff.1 h
      exact undisturbedConfigs_cons.2 ⟨ConfigCall.undisturbed_of_isQuiet hcall, ih hcalls⟩

/-- Operations keep the table in order and the two copies in step. -/
theorem keeps_afterConfigs (hengine : TargetTable.Integrity engine.table.devices)
    (hundisturbed : UndisturbedConfigs turn calls engine) :
    TargetTable.Integrity (engine.afterConfigs turn calls).table.devices ∧
      (engine.InStep → (engine.afterConfigs turn calls).InStep) := by
  induction calls generalizing engine with
  | nil => exact ⟨hengine, id⟩
  | cons call calls ih =>
      obtain ⟨hcall, hcalls⟩ := undisturbedConfigs_cons.1 hundisturbed
      obtain ⟨hnext, hinStep⟩ := ConfigCall.exec_keeps hengine hcall (Prod.eta _).symm
      obtain ⟨hlast, hinStepLast⟩ := ih hnext hcalls
      exact ⟨hlast, hinStepLast ∘ hinStep⟩

/-- If the table of a session and the device agree on every target that has an address, they do so
after each of any operations that configure targets, whichever of them the device accepts, as long
as nothing else changes the two while a request is under way. An operation that fails changes
neither, and an operation about one target changes no other. -/
theorem configurations_kept {transport : ConfigurableTransport τ} {options : SessionOptions}
    {session : Engine (ConfigurableTransport τ)}
    (hopened : Session.ofTransport transport options = .ok session)
    (events : List (Event (ConfigurableTransport τ)))
    (hundisturbed : UndisturbedConfigs turn calls (session.after events))
    {before later : List ConfigCall} {call : ConfigCall}
    (hcalls : calls = before ++ call :: later) :
    let start := session.after events
    let engine := start.afterConfigs turn before
    let outcome := (call.operation turn).exec engine
    (start.InStep → outcome.2.InStep) ∧
      (∀ error, outcome.1 = .error error → engine.SameConfigs outcome.2) ∧
      ∀ address, call.target? = some address → SparesOthers address engine outcome.2 := by
  intro start engine outcome
  subst hcalls
  have hstart : TargetTable.Integrity start.table.devices := integrity_after hopened events
  have hcall := hundisturbed before call later rfl
  obtain ⟨hengine, hinStep⟩ := keeps_afterConfigs hstart hundisturbed.of_append
  refine ⟨?_, ?_, ?_⟩
  · exact (ConfigCall.exec_keeps hengine hcall (Prod.eta _).symm).2 ∘ hinStep
  · intro error herror
    rcases ConfigCall.exec_cases hengine hcall (Prod.eta outcome).symm with
      ⟨-, hsame⟩ | ⟨order, -, hok, -⟩
    · exact hsame
    · cases herror.symm.trans hok
  · intro address htarget
    rcases ConfigCall.exec_cases hengine hcall (Prod.eta outcome).symm with
      ⟨-, hsame⟩ | ⟨order, horder, -, hfollowed⟩
    · exact hsame.sparesOthers address
    · exact hfollowed.sparesOthers (ConfigCall.addresses_of_target? htarget horder)

/-- A session whose device, once it has been initialized, refuses the second request to configure a
target. -/
def fussyBus : Engine (ConfigurableTransport ScriptedTransport) where
  transport := {
    transport :=
      (reportingDevice [] [[{ address := 8, pid := .ofNat 1, maxIbiPayload := 32 },
        { address := 9, pid := .ofNat 2, maxIbiPayload := 32 }]]).setControl .setTargetDeviceConfig
          [{}, {}, { error := some .stall }, {}]
    configs := fun _ ↦ ({}, 0) }

/-- Operations of which the device refuses the second. -/
def adjustments : List ConfigCall :=
  [.setConfig 8 { interruptRequest := true }, .setMaxIbi 9 64, .setMaxIbi 8 64, .configureAll]

/-- Table and device still agree after an operation that the device has refused, and after all of
them. -/
theorem kept_fussyBus :
    let start := fussyBus.after [.call .bringUp]
    let accepted := start.afterConfigs Turn.application [.setConfig 8 { interruptRequest := true }]
    let refused := ((ConfigCall.setMaxIbi 9 64).operation Turn.application).exec accepted
    Session.ofTransport fussyBus.transport {} = .ok fussyBus ∧
      start.device.state.activeController = true ∧ start.table.addresses = [8, 9] ∧
      start.InStep ∧ UndisturbedConfigs Turn.application adjustments start ∧
      refused.1 = .error (.transport .stall) ∧ accepted.SameConfigs refused.2 ∧
      (start.afterConfigs Turn.application adjustments).InStep := by
  have hopened : Session.ofTransport fussyBus.transport {} = .ok fussyBus := rfl
  have hactive : (fussyBus.after [.call .bringUp]).device.state.activeController = true := by
    decide +kernel
  have haddresses : (fussyBus.after [.call .bringUp]).table.addresses = [8, 9] := by
    decide +kernel
  have hinStep : (fussyBus.after [.call .bringUp]).InStep := by decide +kernel
  have hquiet : areQuiet adjustments (fussyBus.after [.call .bringUp]) = true := by
    decide +kernel
  have hrefused : (((ConfigCall.setMaxIbi 9 64).operation Turn.application).exec
      ((fussyBus.after [.call .bringUp]).afterConfigs Turn.application
        [.setConfig 8 { interruptRequest := true }])).1 = .error (.transport .stall) := by
    decide +kernel
  -- The rest holds of any session; on this one the checker would run it to compare terms.
  generalize fussyBus = session at *
  intro start accepted refused
  have hundisturbed := undisturbed_of_areQuiet hquiet
  have hsecond : adjustments = [.setConfig 8 { interruptRequest := true }] ++
      .setMaxIbi 9 64 :: [.setMaxIbi 8 64, .configureAll] := rfl
  have hlast : adjustments = [.setConfig 8 { interruptRequest := true }, .setMaxIbi 9 64,
      .setMaxIbi 8 64] ++ .configureAll :: [] := rfl
  obtain ⟨-, hsame, -⟩ := configurations_kept hopened _ hundisturbed hsecond
  obtain ⟨hkept, -⟩ := configurations_kept hopened _ hundisturbed hlast
  exact ⟨hopened, hactive, haddresses, hinStep, hundisturbed, hrefused, hsame _ hrefused,
    hkept hinStep⟩

end Engine

end I3cHost
