import I3cHost.Proofs.BringUp.Actions
import I3cHost.Proofs.BringUp.Course
import I3cHost.Proofs.Engine.Hooks

/-!
# Runs of initialization as stages

A run of initialization is fed by events that the device controls: they can be early, repeated or
of no concern. Its own events, which initialization posts to itself, cannot be forged by
completions; and once one of its operations has failed the failure is posted before the next of
them, so the run cannot end well (`Failing`). So to know what a run has done when it ends well it is
enough to know what each of its operations does, in the order of the states (`Staging`): what holds
at each stage then holds at the end, or else there is a reason why the run has failed
(`Staging.exec_runBringUp`).
-/

namespace I3cHost

/-- The events that initialization has posted to itself when it comes to a state. -/
def InitState.awaits : InitState → List InitEvent
  | .pipelineStarting => [.pipelineStarted]
  | .configRequested => [.configApplied]
  | .finalizing => [.tableMerged]
  | _ => []

/-- Completions do not post what initialization posts to itself. -/
theorem InitState.not_reported {state : InitState} :
    ∀ event ∈ state.awaits, event.isReported = false := by
  cases state <;> simp [InitState.awaits, InitEvent.isReported]

/-- What initialization has posted to itself is accepted. -/
theorem InitState.awaits_fulfilled {state : InitState} (device : DeviceInfo) :
    ∀ event ∈ state.awaits, ∃ transition ∈ transitions state event,
      transition.isFulfilled device = true := by
  cases state with
  | pipelineStarting =>
      intro event hevent
      obtain rfl := List.mem_singleton.1 hevent
      cases hcapable : Engine.holdsStandard device .controllerCapable with
      | true => exact ⟨_, .head _, by simp [Transition.isFulfilled, hcapable]⟩
      | false => exact ⟨_, .tail _ (.head _), by simp [Transition.isFulfilled, hcapable]⟩
  | configRequested =>
      intro event hevent
      obtain rfl := List.mem_singleton.1 hevent
      exact ⟨_, .head _, rfl⟩
  | finalizing =>
      intro event hevent
      obtain rfl := List.mem_singleton.1 hevent
      exact ⟨_, .head _, rfl⟩
  | _ =>
      intro event hevent
      cases hevent

/-- A failure is accepted in every state. -/
theorem transitions_fail (state : InitState) (error : HostError) :
    transitions state (.fail error) = [{ action := .failure error, target := .failed }] := by
  cases state <;> rfl

/-- Whether an event lets a run fail. -/
def InitEvent.isFailure : InitEvent → Bool
  | .fail _ => true
  | .busInitStatus code => code != .success
  | _ => false

/-- What a run awaits is no failure. -/
theorem InitState.not_failure {state : InitState} :
    ∀ event ∈ state.awaits, event.isFailure = false := by
  cases state <;> simp [InitState.awaits, InitEvent.isFailure]

/-- The transitions that a run can take on its way to a good end. -/
inductive Leads (device : DeviceInfo) : InitState → InitEvent → Transition → Prop
  | takeCapability (buffer : Bytes) : Leads device .capabilityRequested (.capabilityReceived buffer)
      { action := .takeCapability buffer, target := .pipelineStarting }
  | initializeBus (guard : Option (InitGuard × Bool))
      (hcapable : Engine.holdsStandard device .controllerCapable = true) :
      Leads device .pipelineStarting .pipelineStarted
        { guard, action := .initializeBus, target := .busInitRequested }
  | stayInStandby (guard : Option (InitGuard × Bool))
      (hincapable : Engine.holdsStandard device .controllerCapable = false) :
      Leads device .pipelineStarting .pipelineStarted
        { guard, action := .stayInStandby, target := .standby }
  | busInitialized (guard : Option (InitGuard × Bool)) :
      Leads device .busInitRequested (.busInitStatus .success)
        { guard, action := .busInitialized, target := .tableRequested }
  | takeListing (buffer : Bytes) : Leads device .tableRequested (.tableReceived buffer)
      { action := .takeListing buffer, target := .configRequested }
  | configApplied : Leads device .configRequested .configApplied
      { action := .configApplied, target := .tableRefreshRequested }
  | refreshListing (buffer : Bytes) : Leads device .tableRefreshRequested (.tableReceived buffer)
      { action := .refreshListing buffer, target := .finalizing }
  | ready : Leads device .finalizing .tableMerged { action := .ready, target := .ready }

/-- The transitions with which a run fails. -/
inductive Fails : InitEvent → Transition → Prop
  | failure (error : HostError) :
      Fails (.fail error) { action := .failure error, target := .failed }
  | busInitFailed (guard : Option (InitGuard × Bool)) (code : BusInitCode)
      (hcode : code ≠ .success) :
      Fails (.busInitStatus code) { guard, action := .busInitFailed code, target := .failed }

/-- Once it has begun a run fails with a transition, or it goes on. -/
theorem fails_or_leads {state : InitState} {event : InitEvent} {transition : Transition}
    {device : DeviceInfo} (hstate : state.isStartable = false)
    (htransition : transition ∈ transitions state event)
    (hfulfilled : transition.isFulfilled device = true) :
    Fails event transition ∨ Leads device state event transition := by
  by_cases hfail : ∃ error, event = .fail error
  · obtain ⟨error, rfl⟩ := hfail
    rw [transitions_fail, List.mem_singleton] at htransition
    exact .inl (htransition ▸ .failure error)
  have hsingle {only : Transition} (h : transitions state event = [only])
      (honly : Leads device state event only) : Leads device state event transition := by
    rw [h, List.mem_singleton] at htransition
    exact htransition ▸ honly
  cases state with
  | capabilityRequested =>
      cases event with
      | capabilityReceived buffer => exact .inr (hsingle rfl (.takeCapability buffer))
      | fail error => exact absurd ⟨error, rfl⟩ hfail
      | _ => cases htransition
  | pipelineStarting =>
      cases event with
      | pipelineStarted =>
          rcases List.mem_cons.1 htransition with rfl | hstandby
          · exact .inr (.initializeBus _ (by simpa [Transition.isFulfilled] using hfulfilled))
          · obtain rfl := List.mem_singleton.1 hstandby
            exact .inr (.stayInStandby _ (by simpa [Transition.isFulfilled] using hfulfilled))
      | fail error => exact absurd ⟨error, rfl⟩ hfail
      | _ => cases htransition
  | busInitRequested =>
      cases event with
      | busInitStatus code =>
          rcases List.mem_cons.1 htransition with rfl | hfailed
          · obtain rfl : code = .success := by
              simpa [Transition.isFulfilled, Engine.holdsStandard] using hfulfilled
            exact .inr (.busInitialized _)
          · obtain rfl := List.mem_singleton.1 hfailed
            exact .inl (.busInitFailed _ code
              (by simpa [Transition.isFulfilled, Engine.holdsStandard] using hfulfilled))
      | fail error => exact absurd ⟨error, rfl⟩ hfail
      | _ => cases htransition
  | tableRequested =>
      cases event with
      | tableReceived buffer => exact .inr (hsingle rfl (.takeListing buffer))
      | fail error => exact absurd ⟨error, rfl⟩ hfail
      | _ => cases htransition
  | configRequested =>
      cases event with
      | configApplied => exact .inr (hsingle rfl .configApplied)
      | fail error => exact absurd ⟨error, rfl⟩ hfail
      | _ => cases htransition
  | tableRefreshRequested =>
      cases event with
      | tableReceived buffer => exact .inr (hsingle rfl (.refreshListing buffer))
      | fail error => exact absurd ⟨error, rfl⟩ hfail
      | _ => cases htransition
  | finalizing =>
      cases event with
      | tableMerged => exact .inr (hsingle rfl .ready)
      | fail error => exact absurd ⟨error, rfl⟩ hfail
      | _ => cases htransition
  | _ => cases hstate

/-- A run fails on an event that is a failure, and then it has failed. -/
theorem Fails.isFailure {event : InitEvent} {transition : Transition} (h : Fails event transition) :
    event.isFailure = true ∧ transition.target = .failed := by
  cases h with
  | failure error => exact ⟨rfl, rfl⟩
  | busInitFailed guard code hcode => exact ⟨bne_iff_ne.2 hcode, rfl⟩

namespace Leads

variable {device : DeviceInfo} {state : InitState} {event : InitEvent} {transition : Transition}

/-- What the action of a transition posts is what the run then awaits. -/
theorem success_eq (h : Leads device state event transition) :
    transition.action.success.toList = transition.target.awaits := by
  cases h <;> rfl

/-- An event that leads a run on is no failure. -/
theorem not_failure (h : Leads device state event transition) : event.isFailure = false := by
  cases h <;> rfl

/-- A run that is led on neither begins anew nor has failed. -/
theorem target_ne (h : Leads device state event transition) :
    transition.target ≠ .idle ∧ transition.target ≠ .failed := by
  cases h <;> exact ⟨nofun, nofun⟩

/-- What a run awaits it accepts only in the state in which it awaits it. -/
theorem awaited (h : Leads device state event transition) : state.awaits = [] ∨
    event ∈ state.awaits := by
  cases h <;> first | exact .inl rfl | exact .inr (.head _)

/-- What completions post does not end a run that goes on. -/
theorem target_of_reported (h : Leads device state event transition)
    (hevent : event.isReported = true) : transition.target.isTerminal = false := by
  cases h <;> first | rfl | cases hevent

/-- The operations that a run ends with do not fail. -/
theorem target_of_error {τ : Type} [Transport τ] {turn : Turn τ} {engine after : Engine τ}
    {error : HostError} (h : Leads device state event transition)
    (herror : (transition.action.operation turn).exec engine = (.error error, after)) :
    transition.target.isTerminal = false := by
  cases h <;> first | rfl | cases herror

end Leads

namespace Engine

variable {τ : Type} {engine : Engine τ}

/-- A failure for some reason has been posted, and before it only what completions post. -/
structure Failing (Reason : HostError → Prop) (engine : Engine τ) : Prop where
  policy : engine.bringUp.policy = {}
  listening : engine.bringUp.listening = true
  posted : ∃ before error later, engine.bringUp.posted = before ++ .fail error :: later ∧
    (∀ event ∈ before, event.isReported = true) ∧ Reason error

/-- All that is posted was posted by completions. -/
structure Expectant (engine : Engine τ) : Prop where
  policy : engine.bringUp.policy = {}
  listening : engine.bringUp.listening = true
  posted : ∀ event ∈ engine.bringUp.posted, event.isReported = true

variable {Reason : HostError → Prop}

/-- A reason for failing may be weakened. -/
theorem Failing.imp {Other : HostError → Prop} (h : Failing Reason engine)
    (himp : ∀ error, Reason error → Other error) : Failing Other engine := by
  obtain ⟨before, error, later, hposted, hreported, hreason⟩ := h.posted
  exact ⟨h.policy, h.listening, before, error, later, hposted, hreported, himp error hreason⟩

/-- What is posted behind a failure does not avert it. -/
theorem Failing.post (h : Failing Reason engine) (event : InitEvent) :
    Failing Reason (Engine.post event engine).2 := by
  obtain ⟨before, error, later, hposted, hreported, hreason⟩ := h.posted
  unfold Engine.post
  rw [if_pos h.listening]
  refine ⟨h.policy, h.listening, before, error, later ++ [event], ?_, hreported, hreason⟩
  show engine.bringUp.posted ++ [event] = _
  rw [hposted, List.append_assoc, List.cons_append]

/-- A failure that is posted after what completions have posted. -/
theorem Expectant.fail (h : Expectant engine) {error : HostError} (hreason : Reason error) :
    Failing Reason (Engine.post (.fail error) engine).2 := by
  unfold Engine.post
  rw [if_pos h.listening]
  exact ⟨h.policy, h.listening, engine.bringUp.posted, error, [], rfl, h.posted, hreason⟩

/-- What happens beside initialization does not avert a failure that has been posted. -/
theorem stable_failing : Stable (Failing Reason : Engine τ → Prop) := by
  intro before after hchange h
  cases hchange with
  | post event => exact h.post event
  | _ => exact ⟨h.policy, h.listening, h.posted⟩

/-- What initialization does meanwhile does not avert a failure that has been posted. -/
theorem durable_failing : Durable (Failing Reason : Engine τ → Prop) where
  stable := stable_failing
  step before after hstep h := by
    cases hstep <;> exact ⟨h.policy, h.listening, h.posted⟩

/-- What becomes of answers does not avert a failure that has been posted. -/
theorem beside_failing : Beside (Failing Reason : Engine τ → Prop) where
  stable := stable_failing
  tracker _ _ _ h := ⟨h.policy, h.listening, h.posted⟩
  vendorHook _ _ h := ⟨h.policy, h.listening, h.posted⟩
  heard _ _ _ h := ⟨h.policy, h.listening, h.posted⟩

/-- Besides initialization only completions post events. -/
theorem stable_expectant : Stable (Expectant : Engine τ → Prop) := by
  intro before after hchange h
  cases hchange with
  | post event hreported =>
      unfold post
      rw [if_pos h.listening]
      refine ⟨h.policy, h.listening, fun other hother ↦ ?_⟩
      rcases List.mem_append.1 hother with hbefore | hnew
      · exact h.posted other hbefore
      · exact List.mem_singleton.1 hnew ▸ hreported
  | _ => exact ⟨h.policy, h.listening, h.posted⟩

/-- The actions of initialization themselves post nothing. -/
theorem durable_expectant : Durable (Expectant : Engine τ → Prop) where
  stable := stable_expectant
  step before after hstep h := by
    cases hstep <;> exact ⟨h.policy, h.listening, h.posted⟩

/-- What becomes of answers posts nothing. -/
theorem beside_expectant : Beside (Expectant : Engine τ → Prop) where
  stable := stable_expectant
  tracker _ _ _ h := ⟨h.policy, h.listening, h.posted⟩
  vendorHook _ _ h := ⟨h.policy, h.listening, h.posted⟩
  heard _ _ _ h := ⟨h.policy, h.listening, h.posted⟩

/-- Only initialization takes over what the device is capable of. -/
theorem beside_capability (Known : Option DeviceCapability → Prop) :
    Beside fun engine : Engine τ ↦ Known engine.device.capability where
  stable before after hchange h := by
    cases hchange with
    | post event =>
        unfold post
        split <;> exact h
    | _ => exact h
  tracker _ _ _ h := h
  vendorHook _ _ h := h
  heard _ _ _ h := h

/-- No hook initializes the device, and all that is posted was posted by completions. -/
def Attending : Engine τ → Prop :=
  HooksInWith Hook.SparesBringUp Expectant []

/-- No hook initializes the device, and a failure has been posted. -/
def Falling (Reason : HostError → Prop) : Engine τ → Prop :=
  HooksInWith Hook.SparesBringUp (Failing Reason) []

/-- What initialization does leaves what is posted to completions. -/
theorem durable_attending : Durable (Attending : Engine τ → Prop) :=
  ofLedger_hooksIn.permanent.durable.and durable_expectant

/-- What initialization does after a failure was posted does not avert it. -/
theorem durable_falling : Durable (Falling Reason : Engine τ → Prop) :=
  ofLedger_hooksIn.permanent.durable.and durable_failing

/-- What else happens during a run leaves alone what initialization posts to itself. -/
structure Considerate (turn : Turn τ) : Prop where
  attending : ∀ moment, EngineM.Preserves Attending (turn moment)
  falling : ∀ Reason moment, EngineM.Preserves (Falling Reason) (turn moment)

section Considerate

variable [Transport τ]

/-- Whatever the application lets happen. -/
theorem considerate_application : Considerate (Turn.application : Turn τ) where
  attending moment :=
    sparing_application beside_expectant (fun _ _ _ h ↦ ⟨h.policy, h.listening, h.posted⟩)
      (fun _ _ h ↦ ⟨h.policy, h.listening, h.posted⟩) [] moment
  falling _ moment :=
    sparing_application beside_failing (fun _ _ _ h ↦ ⟨h.policy, h.listening, h.posted⟩)
      (fun _ _ h ↦ ⟨h.policy, h.listening, h.posted⟩) [] moment

variable {turn : Turn τ} (h : Considerate turn)

include h

/-- While an operation is carried out only completions post anything. -/
theorem Considerate.operation (action : InitAction) :
    EngineOp.Preserves Attending (action.operation turn) :=
  durable_attending.operation h.attending
    (durable_attending.startBulkIn h.attending fun engine _ h ↦
      ⟨ofLedger_hooksIn engine _ rfl h.1, h.2.policy, h.2.listening, h.2.posted⟩)
    (fun _ _ _ engine h ↦
      ⟨ofLedger_hooksIn engine _ rfl h.1, h.2.policy, h.2.listening, h.2.posted⟩)
    fun _ engine h ↦ ⟨ofLedger_hooksIn engine _ rfl h.1, h.2.policy, h.2.listening, h.2.posted⟩

/-- Once a failure has been posted it stays so, whatever is done for other events. -/
theorem Considerate.performStandard (action : InitAction) :
    EngineM.Preserves (Falling Reason) (Engine.performStandard turn action) :=
  durable_falling.performStandard (h.falling Reason)
    (fun event engine h ↦ ⟨ofLedger_hooksIn.permanent.post event engine h.1, h.2.post event⟩)
    (durable_falling.startBulkIn (h.falling Reason) fun engine _ h ↦
      ⟨ofLedger_hooksIn engine _ rfl h.1, h.2.policy, h.2.listening, h.2.posted⟩)
    (fun _ _ _ engine h ↦
      ⟨ofLedger_hooksIn engine _ rfl h.1, h.2.policy, h.2.listening, h.2.posted⟩)
    fun _ engine h ↦ ⟨ofLedger_hooksIn engine _ rfl h.1, h.2.policy, h.2.listening, h.2.posted⟩

end Considerate

/-- What holds at each stage of a run, by the events that it has accepted and the state that it has
come to, and the reasons for which its operations may fail. -/
structure Staging [Transport τ] (turn : Turn τ)
    (Stage : List InitEvent → InitState → Engine τ → Prop)
    (Reason : List InitEvent → HostError → Prop) : Prop where
  considerate : Considerate turn
  /-- How far initialization has come is of no account otherwise. -/
  progress : ∀ {accepted state engine} change, Stage accepted state engine →
    Stage accepted state (engine.onBringUp change)
  succeeds : ∀ {accepted state event transition} {engine after : Engine τ}, Attending engine →
    Leads engine.device state event transition → Stage accepted state engine →
    (transition.action.operation turn).exec engine = (.ok (), after) →
      Stage (accepted ++ [event]) transition.target after
  fails : ∀ {accepted state event transition} {engine after : Engine τ} {error}, Attending engine →
    Leads engine.device state event transition → Stage accepted state engine →
    (transition.action.operation turn).exec engine = (.error error, after) →
      Reason (accepted ++ [event]) error
  /-- A reason does not become invalid. -/
  lasting : ∀ {accepted error} event, Reason accepted error → Reason (accepted ++ [event]) error

variable {Stage : List InitEvent → InitState → Engine τ → Prop}
  {Reason : List InitEvent → HostError → Prop} {accepted : List InitEvent}

/-- A run in which nothing has failed so far. -/
structure OnCourse (Stage : List InitEvent → InitState → Engine τ → Prop)
    (accepted : List InitEvent) (engine : Engine τ) : Prop where
  stage : Stage accepted engine.bringUp.state engine
  /-- Of what is posted, completions have not posted exactly what is awaited. -/
  awaited : engine.bringUp.posted.filter (!·.isReported) = engine.bringUp.state.awaits
  begun : engine.bringUp.state ≠ .idle ∧ engine.bringUp.state ≠ .failed

/-- A run that has failed: completions have reported a failure, or an operation has failed for some
reason. -/
structure Failed (Reason : List InitEvent → HostError → Prop) (accepted : List InitEvent)
    (engine : Engine τ) : Prop where
  state : engine.bringUp.state = .failed
  cause : (∃ event ∈ accepted, event.isReported = true ∧ event.isFailure = true) ∨
    ∃ error, .fail error ∈ accepted ∧ engine.bringUp.failure = some error ∧ Reason accepted error

/-- A run is on course, or will fail, or has failed. -/
structure Going (Stage : List InitEvent → InitState → Engine τ → Prop)
    (Reason : List InitEvent → HostError → Prop) (accepted : List InitEvent) (engine : Engine τ) :
    Prop where
  hooks : HooksIn Hook.SparesBringUp [] engine
  policy : engine.bringUp.policy = {}
  listening : engine.bringUp.listening = true
  course : OnCourse Stage accepted engine ∨
    (Failing (Reason accepted) engine ∧ engine.bringUp.state.isStartable = false) ∨
    Failed Reason accepted engine

/-- When an event has been accepted that the run was waiting for, all that is left was posted by
completions. -/
theorem OnCourse.reported (h : OnCourse Stage accepted engine)
    (hnext : engine.bringUp.state.awaits = [] ∨ engine.nextEvent ∈ engine.bringUp.state.awaits) :
    ∀ event ∈ engine.dropPosted.bringUp.posted, event.isReported = true := by
  have hawaited := h.awaited
  show ∀ event ∈ engine.bringUp.posted.tail, event.isReported = true
  cases hposted : engine.bringUp.posted with
  | nil => exact List.forall_mem_nil _
  | cons next others =>
      have hothers : others.filter (!·.isReported) = [] := by
        rw [hposted] at hawaited
        rcases hnext with hnone | hawaits
        · rw [hnone] at hawaited
          exact List.filter_eq_nil_iff.2
            (List.forall_mem_cons.1 (List.filter_eq_nil_iff.1 hawaited)).2
        · rw [nextEvent, hposted] at hawaits
          have hinternal : next.isReported = false := InitState.not_reported next hawaits
          rw [List.filter_cons_of_pos (by simpa using hinternal)] at hawaited
          have hsingle : engine.bringUp.state.awaits.length ≤ 1 := by
            cases engine.bringUp.state <;> simp [InitState.awaits]
          rw [← hawaited, List.length_cons] at hsingle
          exact List.eq_nil_of_length_eq_zero (by omega)
      simpa using hothers

/-- While a run is on course no failure is posted but by completions. -/
theorem OnCourse.reported_failure (h : OnCourse Stage accepted engine)
    (hfailure : engine.nextEvent.isFailure = true) : engine.nextEvent.isReported = true := by
  have hawaited := h.awaited
  cases hposted : engine.bringUp.posted with
  | nil =>
      rw [nextEvent, hposted]
      rfl
  | cons next others =>
      rw [nextEvent, hposted] at hfailure ⊢
      rw [hposted] at hawaited
      refine Decidable.byContradiction fun hinternal ↦ ?_
      rw [List.filter_cons_of_pos (by simpa using hinternal)] at hawaited
      have hnext := InitState.not_failure next (hawaited ▸ List.mem_cons_self)
      exact Bool.false_ne_true (hnext.symm.trans hfailure)

/-- An event that is not accepted was neither awaited nor a failure. -/
theorem OnCourse.dropped (h : OnCourse Stage accepted engine)
    (hdropped : Stage accepted engine.bringUp.state engine.dropPosted)
    (hnone : ∀ transition ∈ transitions engine.bringUp.state engine.nextEvent,
      transition.isFulfilled engine.device = false) :
    OnCourse Stage accepted engine.dropPosted := by
  refine ⟨hdropped, ?_, h.begun⟩
  show engine.bringUp.posted.tail.filter (!·.isReported) = engine.bringUp.state.awaits
  have hawaited := h.awaited
  cases hposted : engine.bringUp.posted with
  | nil => rwa [hposted] at hawaited
  | cons next others =>
      rw [hposted] at hawaited
      cases hreported : next.isReported with
      | true => rwa [List.filter_cons_of_neg (by simp [hreported])] at hawaited
      | false =>
          have hnext : engine.nextEvent = next := by rw [nextEvent, hposted]; rfl
          rw [List.filter_cons_of_pos (by simp [hreported])] at hawaited
          obtain ⟨transition, htransition, hfulfilled⟩ :=
            InitState.awaits_fulfilled engine.device next (hawaited ▸ List.mem_cons_self)
          rw [hnone transition (hnext ▸ htransition)] at hfulfilled
          cases hfulfilled

/-- A failure is reached before anything that was posted after it. -/
theorem Failing.next {Reason : HostError → Prop} (h : Failing Reason engine) :
    (∃ error, engine.nextEvent = .fail error ∧ Reason error) ∨
      engine.nextEvent.isReported = true ∧ Failing Reason engine.dropPosted := by
  obtain ⟨before, error, later, hposted, hreported, hreason⟩ := h.posted
  cases before with
  | nil => exact .inl ⟨error, by rw [nextEvent, hposted]; rfl, hreason⟩
  | cons next before =>
      obtain ⟨hnext, hothers⟩ := List.forall_mem_cons.1 hreported
      refine .inr ⟨?_, h.policy, h.listening, before, error, later, ?_, hothers, hreason⟩
      · rw [nextEvent, hposted]
        exact hnext
      · exact congrArg List.tail hposted

namespace Staging

variable [Transport τ] {turn : Turn τ} (h : Staging turn Stage Reason)

include h

/-- An action that posts what came of its operation: the run stays on course if the operation
succeeds, and will fail otherwise. -/
theorem going_postOutcome {operation : EngineOp τ Unit} {success : Option InitEvent}
    {target : InitState} (hengine : Attending engine)
    (hoperation : EngineOp.Preserves Attending operation)
    (hsuccess : success.toList = target.awaits)
    (htarget : target ≠ .idle ∧ target ≠ .failed)
    (hok : ∀ after, operation.exec engine = (.ok (), after) → Stage accepted target after)
    (herror : ∀ error after, operation.exec engine = (.error error, after) →
      Reason accepted error ∧ target.isTerminal = false) :
    Going Stage Reason accepted (((postOutcome operation success).exec engine).2.onBringUp
      fun bringUp ↦ { bringUp with state := target }) := by
  obtain ⟨hhooks, hexpectant⟩ : Attending (operation.exec engine).2 := hoperation engine hengine
  rw [exec_postOutcome]
  rcases hexec : operation.exec engine with ⟨error | ⟨⟩, after⟩
  · rw [hexec] at hhooks hexpectant
    obtain ⟨hreason, hterminal⟩ := herror error after hexec
    have hfailing := hexpectant.fail hreason
    have hposted : HooksIn Hook.SparesBringUp [] (post (.fail error) after).2 :=
      ofLedger_hooksIn.permanent.post _ after hhooks
    refine ⟨ofLedger_hooksIn (post (.fail error) after).2 _ rfl hposted, hfailing.policy,
      hfailing.listening, .inr (.inl ⟨?_, InitState.isStartable_eq_false hterminal htarget.1⟩)⟩
    exact ⟨hfailing.policy, hfailing.listening, hfailing.posted⟩
  · rw [hexec] at hhooks hexpectant
    have hstage := hok after hexec
    have hreported : after.bringUp.posted.filter (!·.isReported) = [] := by
      simpa using hexpectant.posted
    cases success with
    | none =>
        refine ⟨ofLedger_hooksIn after _ rfl hhooks, hexpectant.policy, hexpectant.listening,
          .inl ⟨h.progress _ hstage, hreported.trans hsuccess, htarget⟩⟩
    | some event =>
        dsimp only
        unfold post
        rw [if_pos hexpectant.listening]
        refine ⟨ofLedger_hooksIn after _ rfl hhooks, hexpectant.policy, hexpectant.listening,
          .inl ⟨?_, ?_, htarget⟩⟩
        · exact h.progress (fun bringUp ↦
            { bringUp with posted := bringUp.posted ++ [event], state := target }) hstage
        · have hinternal : event.isReported = false :=
            InitState.not_reported event (by rw [← hsuccess]; exact List.mem_singleton_self event)
          show (after.bringUp.posted ++ [event]).filter (!·.isReported) = target.awaits
          rw [List.filter_append, hreported, ← hsuccess, List.filter_cons_of_pos (by simpa)]
          rfl

omit h in
/-- A run fails whatever was posted. -/
theorem going_fails {event : InitEvent} {transition : Transition} (hfails : Fails event transition)
    (hevent : event ∈ accepted) (hhooks : HooksIn Hook.SparesBringUp [] engine)
    (hpolicy : engine.bringUp.policy = {})
    (hlistening : engine.bringUp.listening = true)
    (hcause : (∃ event ∈ accepted, event.isReported = true ∧ event.isFailure = true) ∨
      ∃ error, event = .fail error ∧ Reason accepted error) :
    Going Stage Reason accepted (engine.taken turn transition) := by
  cases hfails with
  | failure error =>
      refine ⟨ofLedger_hooksIn engine _ rfl hhooks, hpolicy, hlistening, .inr (.inr ⟨rfl, ?_⟩)⟩
      refine hcause.imp_right fun ⟨other, hother, hreason⟩ ↦ ?_
      cases hother
      exact ⟨error, hevent, rfl, hreason⟩
  | busInitFailed guard code hcode =>
      refine ⟨ofLedger_hooksIn engine _ rfl hhooks, hpolicy, hlistening, .inr (.inr ⟨rfl, ?_⟩)⟩
      exact hcause.imp_right fun ⟨_, hother, _⟩ ↦ nomatch hother

/-- A run that is on course stays so when an event is accepted, unless an operation fails. -/
theorem going_onCourse (hcourse : OnCourse Stage accepted engine)
    (hhooks : HooksIn Hook.SparesBringUp [] engine) (hpolicy : engine.bringUp.policy = {})
    (hlistening : engine.bringUp.listening = true) {transition : Transition}
    (hstate : engine.bringUp.state.isTerminal = false)
    (htransition : transition ∈ transitions engine.bringUp.state engine.nextEvent)
    (hfulfilled : transition.isFulfilled engine.device = true) :
    Going Stage Reason (accepted ++ [engine.nextEvent])
      (engine.dropPosted.taken turn transition) := by
  have hdropped : HooksIn Hook.SparesBringUp [] engine.dropPosted :=
    ofLedger_hooksIn engine _ rfl hhooks
  have hstartable := InitState.isStartable_eq_false hstate hcourse.begun.1
  rcases fails_or_leads hstartable htransition hfulfilled with hfails | hleads
  · have hfailure := hfails.isFailure.1
    have hlast := List.mem_append_right accepted (List.mem_singleton_self engine.nextEvent)
    exact going_fails hfails hlast hdropped hpolicy hlistening
      (.inl ⟨_, hlast, hcourse.reported_failure hfailure, hfailure⟩)
  · have hattending : Attending engine.dropPosted :=
      ⟨hdropped, hpolicy, hlistening, hcourse.reported hleads.awaited⟩
    have hstage : Stage accepted engine.bringUp.state engine.dropPosted :=
      h.progress _ hcourse.stage
    rw [taken, performStandard_eq]
    exact h.going_postOutcome hattending (h.considerate.operation _) hleads.success_eq
      hleads.target_ne (fun after ↦ h.succeeds hattending hleads hstage)
      fun error after herror ↦
        ⟨h.fails hattending hleads hstage herror, hleads.target_of_error herror⟩

/-- A run that will fail does so when an event is accepted, or later. -/
theorem going_failing (hfailing : Failing (Reason accepted) engine)
    (hhooks : HooksIn Hook.SparesBringUp [] engine) {transition : Transition}
    (hstartable : engine.bringUp.state.isStartable = false)
    (htransition : transition ∈ transitions engine.bringUp.state engine.nextEvent)
    (hfulfilled : transition.isFulfilled engine.device = true) :
    Going Stage Reason (accepted ++ [engine.nextEvent])
      (engine.dropPosted.taken turn transition) := by
  have hdropped : HooksIn Hook.SparesBringUp [] engine.dropPosted :=
    ofLedger_hooksIn engine _ rfl hhooks
  rcases fails_or_leads hstartable htransition hfulfilled with hfails | hleads
  · have hlast := List.mem_append_right accepted (List.mem_singleton_self engine.nextEvent)
    refine going_fails hfails hlast hdropped hfailing.policy hfailing.listening ?_
    rcases hfailing.next with ⟨error, hnext, hreason⟩ | ⟨hreported, -⟩
    · exact .inr ⟨error, hnext, h.lasting _ hreason⟩
    · exact .inl ⟨_, hlast, hreported, hfails.isFailure.1⟩
  · obtain ⟨hreported, hafter⟩ := hfailing.next.resolve_left fun ⟨error, hnext, _⟩ ↦ by
      have hgoes := hleads.not_failure
      rw [hnext] at hgoes
      cases hgoes
    obtain ⟨hperformed, hstill⟩ := h.considerate.performStandard transition.action
      engine.dropPosted ⟨hdropped, hafter.imp fun _ ↦ h.lasting engine.nextEvent⟩
    have htaken : HooksIn Hook.SparesBringUp [] (engine.dropPosted.taken turn transition) :=
      ofLedger_hooksIn ((performStandard turn transition.action).exec engine.dropPosted).2 _ rfl
        hperformed
    refine ⟨htaken, hstill.policy, hstill.listening, .inr (.inl ⟨?_, ?_⟩)⟩
    · exact ⟨hstill.policy, hstill.listening, hstill.posted⟩
    · exact InitState.isStartable_eq_false (hleads.target_of_reported hreported)
        hleads.target_ne.1

/-- A run stays on course, or will fail, or has failed. -/
theorem runInvariant : RunInvariant turn (Going Stage Reason) where
  policy hgoing := hgoing.policy
  listening hgoing := hgoing.listening
  dropped {accepted engine} hgoing hstate hnone := by
    refine ⟨ofLedger_hooksIn engine _ rfl hgoing.hooks, hgoing.policy, hgoing.listening, ?_⟩
    rcases hgoing.course with hcourse | ⟨hfailing, hstartable⟩ | hfailed
    · exact .inl (hcourse.dropped (h.progress _ hcourse.stage) hnone)
    · rcases hfailing.next with ⟨error, hnext, -⟩ | ⟨-, hafter⟩
      · rw [hnext, transitions_fail] at hnone
        cases hnone _ (List.mem_singleton_self _)
      · exact .inr (.inl ⟨hafter, hstartable⟩)
    · exact .inr (.inr ⟨hfailed.state, hfailed.cause⟩)
  taken {accepted engine} transition hgoing hstate htransition hfulfilled := by
    rcases hgoing.course with hcourse | ⟨hfailing, hstartable⟩ | hfailed
    · exact h.going_onCourse hcourse hgoing.hooks hgoing.policy hgoing.listening hstate htransition
        hfulfilled
    · exact h.going_failing hfailing hgoing.hooks hstartable htransition hfulfilled
    · rw [hfailed.state] at hstate
      cases hstate

/-- A run that can start comes to an end. If what holds when the capability report has been asked
for is the first stage, the run has come to its last state by its stages, or has failed. -/
theorem exec_runBringUp (hhooks : HooksIn Hook.SparesBringUp [] engine)
    (hpolicy : engine.bringUp.policy = {}) (hlistening : engine.bringUp.listening = true)
    (hstate : engine.bringUp.state.isStartable = true)
    (hasked : ∀ after, (InitAction.start.operation turn).exec engine.cleared = (.ok (), after) →
      Stage [] .capabilityRequested after)
    (hrefused : ∀ error after,
      (InitAction.start.operation turn).exec engine.cleared = (.error error, after) →
        Reason [] error) :
    ∃ accepted last, (runCourse turn).exec engine = (accepted, last) ∧
      (runBringUp turn).exec engine = (last.conclusion, last) ∧
      ((Stage accepted last.bringUp.state last ∧
          (last.bringUp.state = .ready ∨ last.bringUp.state = .standby)) ∨
        Failed Reason accepted last) := by
  have hcleared : Attending engine.cleared :=
    ⟨ofLedger_hooksIn engine _ rfl hhooks, hpolicy, hlistening, List.forall_mem_nil _⟩
  have hstarted : Going Stage Reason [] (engine.cleared.taken turn startTransition) := by
    rw [taken, performStandard_eq]
    exact h.going_postOutcome hcleared (h.considerate.operation _) rfl (by decide) hasked
      fun error after herror ↦ ⟨hrefused error after herror, rfl⟩
  obtain ⟨accepted, last, hcourse, hrun, hlast, hterminal⟩ :=
    h.runInvariant.exec_runBringUp hstate hpolicy hstarted
  refine ⟨accepted, last, hcourse, hrun, ?_⟩
  rcases hlast.course with hcourse | ⟨-, hstartable⟩ | hfailed
  · refine .inl ⟨hcourse.stage, ?_⟩
    have hbegun := hcourse.begun
    cases hstate : last.bringUp.state <;> simp_all [InitState.isTerminal]
  · cases hstate : last.bringUp.state <;> simp_all [InitState.isTerminal, InitState.isStartable]
  · exact .inr hfailed

end Staging

end Engine

end I3cHost
