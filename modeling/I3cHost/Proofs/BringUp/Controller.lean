import I3cHost.Proofs.BringUp.Role
import I3cHost.Proofs.Session.History
import I3cHost.Transport.Scripted

/-!
# When the device manages the bus

Only the outcome of initializing the bus, and a device that cannot manage it, decide whether the
device manages the bus; a run that fails earlier or later leaves this as it was
(`activeController_after_failure`). As long as the device does not manage the bus, the calls that
need it to are refused before anything is sent (`perform_of_inactive`).
-/

namespace I3cHost

/-- Whether the device has to manage the bus for a call. -/
def Call.needsController {κ τ : Type} : Call κ τ → Bool
  | .setDeviceConfig _ _ => true
  | .setDeviceMaxIbi _ _ => true
  | .changeAddress _ _ => true
  | .enable _ => true
  | .disable _ => true
  | .exitHdr => true
  | _ => false

/-- Whether a call was refused. -/
def Outcome.isRefusal : Outcome → Bool
  | .failed _ => true
  | .undefined _ => true
  | _ => false

namespace Engine

variable {τ : Type} {hand : List (TrackedRequest (Hook τ))} {standing : Standing}

/-- The standing of the device has nothing to do with queue and answers. -/
theorem besideAccount_standing : BesideAccount fun engine : Engine τ ↦ engine.standing = standing :=
  fun h _ hstanding ↦ hstanding.trans h

variable {engine : Engine τ}

/-- While the device does not manage the bus, calls that need it to are refused. -/
theorem activeCapability_of_inactive {info : DeviceInfo} (h : info.state.activeController = false) :
    ∃ error, info.activeCapability = .error error := by
  unfold DeviceInfo.activeCapability
  split
  next => exact ⟨_, rfl⟩
  next => exact ⟨_, if_neg (Bool.not_eq_true _ ▸ h)⟩

/-- An operation that begins with a check fails without a trace if the check does. -/
theorem exec_of_refused {α β : Type} {check : Engine τ → HostResult α} {next : α → EngineOp τ β}
    {error : HostError} (h : check engine = .error error) :
    (do let value ← ofResult (check (← get)); next value : EngineOp τ β).exec engine =
      (.error error, engine) := by
  rw [EngineOp.exec_bind, EngineOp.exec_get]
  dsimp only
  rw [EngineOp.exec_bind, EngineOp.exec_ofResult, h]

variable [Transport τ] {turn : Turn τ}

/-- Whatever the application lets happen, only initialization changes the standing of the device. -/
theorem standing_application (moment : Moment) :
    EngineM.Preserves (HooksInWith Hook.SparesBringUp (·.standing = standing) hand)
      ((Turn.application : Turn τ) moment) :=
  sparing_application besideAccount_standing.beside besideAccount_standing.sparesOrders
    (fun _ _ ↦ id) hand moment

/-- No hook initializes the device, and nothing of initialization has been replaced. -/
structure Plain (engine : Engine τ) : Prop where
  hooks : HooksIn Hook.SparesBringUp [] engine
  policy : engine.bringUp.policy = {}
  listening : engine.bringUp.listening = true

omit [Transport τ] in
/-- A session that was opened without replacements holds no hooks. -/
theorem plain_ofTransport {transport : τ} {options : SessionOptions} {session : Engine τ}
    (h : Session.ofTransport transport options = .ok session) (hpolicy : options.policy = {}) :
    Plain session := by
  have hhooks := hooksIn_ofTransport h Hook.SparesBringUp
  obtain ⟨table, rfl⟩ := exists_of_ofTransport h
  exact ⟨hhooks, hpolicy, rfl⟩

namespace Plain

variable (h : Plain engine)

include h

/-- What a run of the application accepts decides whether the device manages the bus, unless the
run ends well without the device managing the bus. -/
theorem exec_bringUp : ∃ outcome after,
    (perform Turn.application .bringUp).exec engine = (outcome, after) ∧ Plain after ∧
      (after.device.state.activeController =
          InitEvent.rolesDecided engine.device.state.activeController engine.accepted ∨
        after.device.state.activeController = false ∧ outcome = .done) := by
  obtain ⟨accepted, after, hcourse, hafter, hrun⟩ := exec_runBringUp ofLedger_hooksIn
    (fun _ ↦ standing_application) h.policy h.listening h.hooks
  have haccepted : engine.accepted = accepted := congrArg Prod.fst hcourse
  have hplain : Plain after := ⟨hafter.holds, hafter.policy, hafter.listening⟩
  have hperform {result : HostResult Unit}
      (hexec : (runBringUp Turn.application).exec engine = (result, after)) :
      (perform Turn.application .bringUp).exec engine = (.ofResult result, after) := by
    show (settled (runBringUp Turn.application)).exec engine = _
    rw [exec_settled, hexec]
  rw [haccepted]
  rcases hrun with ⟨hexec, -⟩ | ⟨hexec, rfl, hsame⟩
  · refine ⟨_, after, hperform hexec, hplain, ?_⟩
    refine hafter.decided.imp_right fun ⟨hstandby, hactive⟩ ↦ ⟨hactive, ?_⟩
    rw [show after.conclusion = .ok () by unfold conclusion; rw [hstandby]]
    rfl
  · exact ⟨_, after, hperform hexec, hplain, .inl (congrArg Standing.active hsame)⟩

/-- Any other event leaves the standing of the device alone. -/
theorem standing_happen {event : Event τ} (hevent : event ≠ .call .bringUp)
    (hhooks : ∀ hook ∈ event.hooks, hook.SparesBringUp) :
    Plain ((Engine.happen event).exec engine).2 ∧
      ((Engine.happen event).exec engine).2.standing = engine.standing := by
  have hbusy : Sustained (Turn.busy : Turn τ)
      (HooksInWith Hook.SparesBringUp (·.standing = engine.standing)) :=
    sustained_sparing besideAccount_standing.beside besideAccount_standing.sparesOrders
      (fun _ _ ↦ id) fun _ _ ↦ .pure _
  have hsame : HooksInWith Hook.SparesBringUp (·.standing = engine.standing) []
      ((Engine.happen event).exec engine).2 := by
    cases event with
    | call request =>
        have hrequest : request ≠ .bringUp := fun heq ↦ hevent (congrArg Event.call heq)
        exact sparing_perform besideAccount_standing.beside besideAccount_standing.sparesOrders
          (fun _ _ ↦ id) standing_application hrequest hhooks engine ⟨h.hooks, rfl⟩
    | completion completion => exact hbusy.happen_completion completion engine ⟨h.hooks, rfl⟩
    | failure => exact hbusy.happen_failure engine ⟨h.hooks, rfl⟩
  obtain ⟨hhooks, hstanding⟩ := hsame
  refine ⟨⟨hhooks, ?_, ?_⟩, hstanding⟩
  · exact (congrArg Standing.policy hstanding).trans h.policy
  · exact (congrArg Standing.listening hstanding).trans h.listening

/-- An event does not give the device the controller role unless it is a run of initialization that
accepts a successful status. -/
theorem happen {event : Event τ} (hhooks : ∀ hook ∈ event.hooks, hook.SparesBringUp) :
    Plain ((Engine.happen event).exec engine).2 ∧
      (engine.device.state.activeController = false →
        (event = .call .bringUp → .busInitStatus .success ∉ engine.accepted) →
        ((Engine.happen event).exec engine).2.device.state.activeController = false) := by
  by_cases hevent : event = .call .bringUp
  · subst hevent
    obtain ⟨outcome, after, hperform, hafter, hactive⟩ := h.exec_bringUp
    have hhappen : ((Engine.happen (.call .bringUp)).exec engine).2 = after :=
      congrArg Prod.snd hperform
    rw [hhappen]
    refine ⟨hafter, fun hinactive hstatus ↦ ?_⟩
    rcases hactive with hdecided | ⟨hstandby, -⟩
    · rw [hdecided, InitEvent.rolesDecided_eq_false_iff (hstatus rfl)]
      exact .inl hinactive
    · exact hstandby
  · obtain ⟨hafter, hstanding⟩ := h.standing_happen hevent hhooks
    exact ⟨hafter, fun hinactive _ ↦ (congrArg Standing.active hstanding).trans hinactive⟩

end Plain

/-- As long as the device does not manage the bus, a call that needs it to is refused, and nothing
has happened. -/
theorem perform_of_inactive (h : engine.device.state.activeController = false)
    {call : Call (Hook τ) τ} (hcall : call.needsController = true) :
    ∃ refusal, (perform turn call).exec engine = (refusal, engine) ∧
      refusal.isRefusal = true := by
  obtain ⟨error, hinactive⟩ := activeCapability_of_inactive h
  have hcheck : engine.device.checkActiveController = .error error := by
    rw [DeviceInfo.checkActiveController, hinactive]
    rfl
  have hrefused {operation : EngineOp τ Unit} {cause : HostError}
      (hexec : operation.exec engine = (.error cause, engine)) :
      ∃ refusal, (settled operation).exec engine = (refusal, engine) ∧
        refusal.isRefusal = true := by
    rw [exec_settled, hexec]
    exact ⟨_, rfl, rfl⟩
  have hselected (selector : UInt16) {operation : Feature → EngineOp τ Unit}
      (hexec : ∀ feature, ∃ cause, (operation feature).exec engine = (.error cause, engine)) :
      ∃ refusal, (onFeature selector operation).exec engine = (refusal, engine) ∧
        refusal.isRefusal = true := by
    unfold onFeature
    split
    next feature _ =>
      obtain ⟨cause, hcause⟩ := hexec feature
      exact hrefused hcause
    next => exact ⟨_, rfl, rfl⟩
  have hmanaged (address : UInt8) : managedDevice address engine = .error error := by
    rw [managedDevice, hcheck]
    rfl
  have hswitch (feature : Feature) (enabled : Bool) :
      (switchFeature turn feature enabled).exec engine = (.error error, engine) := by
    have hfeature : engine.device.checkFeature feature = .error error := by
      rw [DeviceInfo.checkFeature, hinactive]
      rfl
    exact exec_of_refused hfeature
  cases call with
  | setDeviceConfig address config => exact hrefused (exec_of_refused (hmanaged address))
  | setDeviceMaxIbi address maxIbiPayload => exact hrefused (exec_of_refused (hmanaged address))
  | changeAddress current new =>
      have hchange : addressChange current new engine = .error error := by
        rw [addressChange, hcheck]
        rfl
      exact hrefused (exec_of_refused hchange)
  | enable selector => exact hselected selector fun feature ↦ ⟨_, hswitch feature true⟩
  | disable selector =>
      refine hselected selector fun feature ↦ ?_
      unfold disable
      split
      · exact ⟨_, rfl⟩
      · exact ⟨_, hswitch feature false⟩
  | exitHdr => exact hrefused (hswitch _ _)
  | _ => cases hcall

/-- If no event brings a hook that initializes the device, there is none. -/
theorem plain_after (h : Plain engine) {events : List (Event τ)}
    (hhooks : ∀ event ∈ events, ∀ hook ∈ event.hooks, hook.SparesBringUp) :
    Plain (engine.after events) := by
  refine after_induction (P := fun _ ↦ Plain) h fun before event later hevents hbefore ↦ ?_
  have hmem : event ∈ events := hevents ▸ List.mem_append_right before List.mem_cons_self
  exact (hbefore.happen (hhooks event hmem)).1

/-- In every history of a session with the standard actions, whose hooks do not initialize the
device: after a run of initialization that fails without having accepted a successful status the
device does not manage the bus if and only if it did not before the run, or the run has accepted an
unsuccessful status. Once the device does not manage the bus, it does not until a later run accepts
a successful status, and the calls that need it to are refused. -/
theorem activeController_after_failure {transport : τ} {options : SessionOptions}
    {session : Engine τ} (h : Session.ofTransport transport options = .ok session)
    (hpolicy : options.policy = {}) {events : List (Event τ)}
    (hhooks : ∀ event ∈ events, ∀ hook ∈ event.hooks, hook.SparesBringUp) :
    let engine := session.after events
    (∀ error after, (Session.call .bringUp).exec engine = (.failed error, after) →
      .busInitStatus .success ∉ engine.accepted →
      (after.device.state.activeController = false ↔
        engine.device.state.activeController = false ∨
          ∃ code, .busInitStatus code ∈ engine.accepted)) ∧
    (engine.device.state.activeController = false → ∀ later : List (Event τ),
      (∀ event ∈ later, ∀ hook ∈ event.hooks, hook.SparesBringUp) →
      (∀ before rest, later = before ++ .call .bringUp :: rest →
        .busInitStatus .success ∉ (engine.after before).accepted) →
      (engine.after later).device.state.activeController = false ∧
        ∀ call : Call (Hook τ) τ, call.needsController = true → ∃ refusal,
          (Session.call call).exec (engine.after later) = (refusal, engine.after later) ∧
            refusal.isRefusal = true) := by
  intro engine
  have hplain : Plain engine := plain_after (plain_ofTransport h hpolicy) hhooks
  constructor
  · intro error after hfailed hstatus
    obtain ⟨outcome, last, hperform, -, hactive⟩ := hplain.exec_bringUp
    obtain ⟨rfl, rfl⟩ := Prod.mk.inj (hfailed.symm.trans hperform)
    rcases hactive with hdecided | ⟨-, hdone⟩
    · rw [hdecided, InitEvent.rolesDecided_eq_false_iff hstatus]
    · cases hdone
  · intro hinactive later hlater hstatus
    have hafter : Plain (engine.after later) ∧
        (engine.after later).device.state.activeController = false := by
      refine after_induction
        (P := fun _ engine ↦ Plain engine ∧ engine.device.state.activeController = false)
        ⟨hplain, hinactive⟩ fun before event rest heq hbefore ↦ ?_
      have hmem : event ∈ later := heq ▸ List.mem_append_right before List.mem_cons_self
      obtain ⟨hsame, hstays⟩ := hbefore.1.happen (hlater event hmem)
      refine ⟨hsame, hstays hbefore.2 ?_⟩
      rintro rfl
      exact hstatus before rest heq
    exact ⟨hafter.2, fun call hcall ↦ perform_of_inactive hafter.2 hcall⟩

/-- A device on whose bus two targets are, with its replies to being asked for its capability and to
being told to initialize the bus. -/
def twoTargetDevice (capability bus : List ControlReply) : ScriptedTransport where
  control
    | .getI3cCapability => capability
    | .initializeI3cBus => bus
    | .getTargetDeviceTable =>
        [{ data := some [2, 0, 0, 0, 8, 0, 0, 0, 0xAB, 0x89, 0x67, 0x45, 0x23, 1, 0, 0, 0, 0, 0, 0,
          9, 0, 0, 0, 0xAC, 0x89, 0x67, 0x45, 0x23, 1, 0, 0, 0, 0, 0, 0] }]
    | _ => []

/-- The capability report of a device that can manage the bus. -/
def capableReply : ControlReply where
  data := some [16, 0, 1, 0, 1, 1, 1, 0, 6, 0, 0, 0, 32, 0, 0, 0]

/-- The bus has been initialized, or it could not be. -/
def busReply (code : BusInitCode) : ControlReply where
  events := [.interrupt (.ok (Record.toBytes (Notification.ofBusInit code)))]

/-- A session that has just been opened. -/
def opened (transport : ScriptedTransport) : Engine ScriptedTransport where
  transport := transport

/-- Whether a run of initialization by the application fails. -/
def runFails (engine : Engine τ) : Bool :=
  match ((Session.call .bringUp).exec engine).1 with
  | .failed _ => true
  | _ => false

/-- A run that fails reports an error, in the state after the run. -/
theorem exists_of_runFails (h : engine.runFails = true) :
    ∃ error, (Session.call .bringUp).exec engine =
      (.failed error, engine.after [.call .bringUp]) := by
  unfold runFails at h
  split at h
  next error heq => exact ⟨error, Prod.ext heq rfl⟩
  next => cases h

/-- Whether a run of initialization by the application succeeds. -/
def runSucceeds (engine : Engine τ) : Bool :=
  match ((Session.call .bringUp).exec engine).1 with
  | .done => true
  | _ => false

/-- A run that succeeds reports just that, in the state after the run. -/
theorem exec_of_runSucceeds (h : engine.runSucceeds = true) :
    (Session.call .bringUp).exec engine = (.done, engine.after [.call .bringUp]) := by
  unfold runSucceeds at h
  split at h
  next heq => exact Prod.ext heq rfl
  next => cases h

/-- A session whose device managed the bus until initializing the bus failed the second time. -/
def lostBus : Engine ScriptedTransport :=
  opened (twoTargetDevice [capableReply] [busReply .success, busReply .deviceDiscoveryFailed])

/-- After the second run the device does not manage the bus, and no target can be moved. -/
theorem inactive_lostBus :
    Session.ofTransport lostBus.transport {} = .ok lostBus ∧
      (lostBus.after [.call .bringUp]).device.state.activeController = true ∧
      (lostBus.after [.call .bringUp]).runFails = true ∧
      .busInitStatus .success ∉ (lostBus.after [.call .bringUp]).accepted ∧
      (lostBus.after [.call .bringUp, .call .bringUp]).device.state.activeController = false ∧
      ∃ refusal, (Session.call (.changeAddress 8 16)).exec
          (lostBus.after [.call .bringUp, .call .bringUp]) =
        (refusal, lostBus.after [.call .bringUp, .call .bringUp]) ∧ refusal.isRefusal = true := by
  have hopened : Session.ofTransport lostBus.transport {} = .ok lostBus := rfl
  have hhooks : ∀ events ∈ [[.call .bringUp], [.call .bringUp, .call .bringUp]],
      ∀ event ∈ (events : List (Event ScriptedTransport)), ∀ hook ∈ event.hooks,
        hook.SparesBringUp := by
    simp [Event.hooks, Call.hooks]
  have hactive : (lostBus.after [.call .bringUp]).device.state.activeController = true := by
    decide +kernel
  have hfails : (lostBus.after [.call .bringUp]).runFails = true := by decide +kernel
  have hstatus : .busInitStatus .success ∉ (lostBus.after [.call .bringUp]).accepted := by
    decide +kernel
  have hunsuccessful :
      .busInitStatus .deviceDiscoveryFailed ∈ (lostBus.after [.call .bringUp]).accepted := by
    decide +kernel
  -- The rest holds of any session; on this one the checker would run it to compare terms.
  generalize lostBus = session at hopened hactive hfails hstatus hunsuccessful ⊢
  obtain ⟨error, hrun⟩ := exists_of_runFails hfails
  rw [← after_append] at hrun
  have hinactive := ((activeController_after_failure hopened rfl (hhooks _ (.head _))).1 error _
    hrun hstatus).2 (.inr ⟨_, hunsuccessful⟩)
  obtain ⟨-, hrefused⟩ := (activeController_after_failure hopened rfl
    (hhooks _ (.tail _ (.head _)))).2 hinactive [] (List.forall_mem_nil _) (by simp)
  rw [after_nil] at hrefused
  exact ⟨hopened, hactive, hfails, hstatus, hinactive, hrefused _ rfl⟩

/-- A session whose device managed the bus until it refused to give its capability report. -/
def lostReport : Engine ScriptedTransport :=
  opened (twoTargetDevice [capableReply, { error := some .stall }] [busReply .success])

/-- The second run fails without any status, yet the device is still taken to manage the bus, and a
target is moved. -/
theorem active_lostReport :
    Session.ofTransport lostReport.transport {} = .ok lostReport ∧
      let engine := lostReport.after [.call .bringUp]
      engine.runFails = true ∧ .busInitStatus .success ∉ engine.accepted ∧
        (engine.after [.call .bringUp]).device.state.activeController = true ∧
        ((Session.call (.changeAddress 8 16)).exec
          (engine.after [.call .bringUp])).1.isRefusal = false :=
  ⟨rfl, by decide +kernel⟩

end Engine

end I3cHost
