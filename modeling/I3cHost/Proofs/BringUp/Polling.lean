import I3cHost.Proofs.BringUp.Controller
import I3cHost.Proofs.BringUp.Requests

/-!
# Polling for notifications

The outcome of initializing the bus comes as a notification, so notifications have to be polled for
whenever the device is told to initialize the bus. Initialization starts the polling before that,
unless it was started successfully at some time before. Nothing is done when the polling ends: it is
never started again. So notifications are polled for at such a moment exactly if the polling has not
ended since the only time it was started with success (`polled_iff`).
-/

namespace I3cHost

/-- Whether a call has the bus initialized. -/
def TransportCall.initializesBus : TransportCall → Bool
  | .controlOut .initializeI3cBus _ _ => true
  | _ => false

/-- What anything but initialization asks for neither initializes the bus nor starts polling. -/
theorem TransportCall.initializesBus_eq_false {record : TransportCall}
    (h : record.initiates = false) :
    record.initializesBus = false ∧ record ≠ .startInterruptIn := by
  refine ⟨?_, ?_⟩
  · unfold initializesBus
    split
    · cases h
    · rfl
  · rintro rfl
    cases h

/-- What happens to the polling for notifications: calls on the transport, and its end. -/
inductive PollingEntry where
  | call (record : TransportCall)
  /-- Whoever handles notifications learns that the device is lost or the polling was cancelled. -/
  | ended
  deriving DecidableEq

/-- The call that an entry is about. -/
def PollingEntry.call? : PollingEntry → Option TransportCall
  | .call record => some record
  | .ended => none

/-- The calls in a log. -/
def loggedCalls (log : List PollingEntry) : List TransportCall :=
  log.filterMap PollingEntry.call?

/-- A call that a log records is one of its calls. -/
theorem mem_loggedCalls {record : TransportCall} {log : List PollingEntry}
    (h : .call record ∈ log) : record ∈ loggedCalls log :=
  List.mem_filterMap.2 ⟨_, h, rfl⟩

/-- A log can be divided where its calls can be divided. -/
theorem exists_of_loggedCalls_eq {log : List PollingEntry} {early late : List TransportCall}
    {record : TransportCall} (h : loggedCalls log = early ++ record :: late) :
    ∃ first rest, log = first ++ .call record :: rest ∧ loggedCalls first = early ∧
      loggedCalls rest = late := by
  obtain ⟨first, others, rfl, hfirst, hothers⟩ := List.filterMap_eq_append_iff.1 h
  obtain ⟨skipped, entry, rest, rfl, hskipped, hentry, hrest⟩ :=
    List.filterMap_eq_cons_iff.1 hothers
  obtain rfl : entry = .call record := by
    cases entry with
    | call other => exact congrArg _ (Option.some.inj hentry)
    | ended => cases hentry
  refine ⟨first ++ skipped, rest, (List.append_assoc _ _ _).symm, ?_, hrest⟩
  rw [loggedCalls, List.filterMap_append, hfirst, List.filterMap_eq_nil_iff.2 hskipped,
    List.append_nil]

/-- The only state in which a run has the bus initialized. -/
theorem transitions_initializeBus (state : InitState) (event : InitEvent) :
    ∀ transition ∈ transitions state event,
      transition.action = .initializeBus → state = .pipelineStarting := by
  cases state <;> cases event <;> simp [transitions]

namespace Engine

variable {τ : Type} {engine before after : Engine τ}

/-- Since a state nothing has been asked for that only initialization asks for, and no run of
initialization can start. -/
structure Paused (before engine : Engine τ) : Prop where
  made : Initiated before [] engine
  state : engine.bringUp.state.isStartable = false
  started : engine.pipes.interruptStarted = before.pipes.interruptStarted

/-- What happens beside initialization starts no polling for notifications. -/
theorem Interference.interruptStarted (h : Interference before after) :
    after.pipes.interruptStarted = before.pipes.interruptStarted := by
  cases h with
  | post event =>
      unfold Engine.post
      split <;> rfl
  | _ => rfl

/-- What happens beside submissions and initialization lets no run start, and starts no polling. -/
theorem beside_paused : Beside (Paused before) where
  stable engine after hchange h := by
    have hstate : after.bringUp.state = engine.bringUp.state :=
      congrArg Standing.state hchange.standing
    exact ⟨beside_initiated.stable _ _ hchange h.made, hstate ▸ h.state,
      hchange.interruptStarted.trans h.started⟩
  tracker _ _ _ h := ⟨h.made, h.state, h.started⟩
  vendorHook _ _ h := ⟨h.made, h.state, h.started⟩
  heard _ _ _ h := ⟨h.made, h.state, h.started⟩

/-- Whether a run is on its way has nothing to do with the queue. -/
theorem sparesOrders_paused : SparesOrders (Paused before) :=
  fun _ _ _ h ↦ ⟨h.made, h.state, h.started⟩

/-- Nothing asked for since then has the bus initialized or starts polling. -/
theorem Initiated.quiet (h : Initiated before [] after) :
    ∃ made, after.trace.toList = before.trace.toList ++ made ∧
      ∀ call ∈ made, call.initializesBus = false ∧ call ≠ .startInterruptIn := by
  obtain ⟨made, htrace, hmade⟩ := h
  refine ⟨made, htrace, fun call hcall ↦ TransportCall.initializesBus_eq_false ?_⟩
  simpa using List.filter_eq_nil_iff.1 hmade call hcall

variable [Transport τ] {turn : Turn τ}

/-- A transfer to the bulk endpoint lets no run start, and starts no polling. -/
theorem paused_sent (bytes : Bytes) (engine : Engine τ) (h : Paused before engine) :
    Paused before (engine.sent bytes) :=
  ⟨h.made.then_nothing (initiated_call (.bulkOut bytes) (Transport.bulkOut bytes) engine),
    h.state, h.started⟩

/-- Whatever hooks do while a run is on its way, they start no other. -/
theorem sustained_paused (hturn : ∀ moment, EngineM.Preserves (Paused before) (turn moment)) :
    Sustained turn fun _ ↦ Paused before := by
  refine sustained_beside beside_paused sparesOrders_paused paused_sent hturn fun engine h ↦ ?_
  show Paused before ((runBringUp turn).exec engine).2
  rw [(exec_runBringUp_of_not_startable turn h.state).1]
  exact ⟨h.made, h.state, h.started⟩

/-- Calls after which polling for notifications is started: none of them has the bus initialized,
and when they have been made the transport may accept that polling is started. -/
structure PreparePolling (τ : Type) [Transport τ] (calls : List TransportCall) : Prop where
  bus : ∀ call ∈ calls, call.initializesBus = false
  accepted : ∃ caller : Engine τ, caller.trace.toList = calls ∧
    caller.pipes.interruptStarted = false ∧ caller.pollNotifications.1 = .ok ()

/-- Polling for notifications has not been started and the bus has not been initialized, or polling
was started once with success, before the bus was initialized for the first time. What had been
asked for until then is as `starts` says. -/
inductive PollsOnce (starts : List TransportCall → Prop) (engine : Engine τ) : Prop
  | never (hstarted : engine.pipes.interruptStarted = false)
      (hbus : ∀ call ∈ engine.trace.toList, call.initializesBus = false)
      (hstarts : ∀ calls, engine.trace.toList <+: calls → starts calls)
  | once (calls late : List TransportCall) (hstarted : engine.pipes.interruptStarted = true)
      (hprepare : PreparePolling τ calls)
      (htrace : engine.trace.toList = calls ++ .startInterruptIn :: late)
      (hlate : .startInterruptIn ∉ late) (hstarts : starts calls)

variable {starts : List TransportCall → Prop}

namespace PollsOnce

/-- The same calls and the same mark that polling is started are all that matters. -/
theorem of_same (h : before.PollsOnce starts) (htrace : after.trace = before.trace)
    (hstarted : after.pipes.interruptStarted = before.pipes.interruptStarted) :
    after.PollsOnce starts := by
  cases h with
  | never hnever hbus hstarts =>
      exact .never (hstarted.trans hnever) (htrace ▸ hbus) (htrace ▸ hstarts)
  | once calls late honce hprepare hmade hlate hstarts =>
      exact .once calls late (hstarted.trans honce) hprepare (htrace ▸ hmade) hlate hstarts

/-- The bus may be initialized once polling has been started. -/
theorem push (h : engine.PollsOnce starts) {record : TransportCall}
    (hrecord : record ≠ .startInterruptIn)
    (hbus : record.initializesBus = true → engine.pipes.interruptStarted = true) (transport : τ) :
    PollsOnce starts { engine with transport, trace := engine.trace.push record } := by
  cases h with
  | never hnever hquiet hstarts =>
      refine .never hnever (fun call hcall ↦ ?_) fun calls hcalls ↦ hstarts calls ?_
      · rw [Array.toList_push, List.mem_append, List.mem_singleton] at hcall
        rcases hcall with hcall | rfl
        · exact hquiet call hcall
        · rw [← Bool.not_eq_true]
          exact fun hinitializes ↦ Bool.false_ne_true (hnever.symm.trans (hbus hinitializes))
      · rw [Array.toList_push] at hcalls
        exact (List.prefix_append _ _).trans hcalls
  | once calls late honce hprepare hmade hlate hstarts =>
      refine .once calls (late ++ [record]) honce hprepare ?_ ?_ hstarts
      · rw [Array.toList_push, hmade, List.append_assoc, List.cons_append]
      · simpa [hlate] using hrecord.symm

/-- A call that neither initializes the bus nor starts polling is one more before or after the
start. -/
theorem call (h : engine.PollsOnce starts) {α : Type} {record : TransportCall}
    (hrecord : record.initializesBus = false ∧ record ≠ .startInterruptIn)
    (operation : StateM τ (TransportResult α)) :
    (Engine.call record operation engine).2.PollsOnce starts :=
  h.push hrecord.2 (fun hbus ↦ Bool.noConfusion (hrecord.1.symm.trans hbus)) _

/-- If it is said exactly what had been asked for, then polling has been started. -/
theorem exists_late {calls : List TransportCall} (h : engine.PollsOnce (· = calls)) :
    engine.pipes.interruptStarted = true ∧ PreparePolling τ calls ∧
      ∃ late, engine.trace.toList = calls ++ .startInterruptIn :: late ∧
        .startInterruptIn ∉ late := by
  cases h with
  | never _ _ hstarts =>
      have hsame := hstarts _ List.prefix_rfl
      have hmore := hstarts (engine.trace.toList ++ [.startInterruptIn]) (List.prefix_append _ _)
      exact absurd (hsame.trans hmore.symm) (by simp)
  | once calls late honce hprepare htrace hlate hstarts =>
      obtain rfl := hstarts
      exact ⟨honce, hprepare, late, htrace, hlate⟩

end PollsOnce

/-- What happens beside submissions and initialization starts no polling. -/
theorem beside_pollsOnce : Beside (PollsOnce starts : Engine τ → Prop) where
  stable before after hchange h := by
    cases hchange with
    | call transport record htransfer hinitiates =>
        obtain ⟨hbus, hrecord⟩ := TransportCall.initializesBus_eq_false hinitiates
        exact h.push hrecord (fun htrue ↦ Bool.noConfusion (hbus.symm.trans htrue)) transport
    | post event =>
        unfold post
        split
        · exact h.of_same rfl rfl
        · exact h
    | _ => exact h.of_same rfl rfl
  tracker _ _ _ h := h.of_same rfl rfl
  vendorHook _ _ h := h.of_same rfl rfl
  heard _ _ _ h := h.of_same rfl rfl

/-- How often polling was started has nothing to do with the queue. -/
theorem sparesOrders_pollsOnce : SparesOrders (PollsOnce starts : Engine τ → Prop) :=
  fun _ _ _ h ↦ h.of_same rfl rfl

/-- A transfer to the bulk endpoint starts no polling. -/
theorem pollsOnce_sent (bytes : Bytes) (engine : Engine τ) (h : engine.PollsOnce starts) :
    (engine.sent bytes).PollsOnce starts :=
  h.call (TransportCall.initializesBus_eq_false rfl) _

section Runs

variable (hturn : ∀ moment, EngineM.Preserves (PollsOnce starts) (turn moment))
  (hpaused : ∀ before moment, EngineM.Preserves (Paused before) (turn moment))

include hpaused in
/-- Polling is started unless it has been, and no other run starts it meanwhile. -/
theorem PollsOnce.startInterruptIn (h : engine.PollsOnce starts)
    (hstate : engine.bringUp.state.isStartable = false) :
    ((Engine.startInterruptIn turn).exec engine).2.PollsOnce starts ∧
      (((Engine.startInterruptIn turn).exec engine).1 = .ok () →
        ((Engine.startInterruptIn turn).exec engine).2.pipes.interruptStarted = true) := by
  rw [exec_startInterruptIn]
  cases h with
  | once calls late honce hprepare htrace hlate hstarts =>
      rw [if_pos honce]
      exact ⟨.once calls late honce hprepare htrace hlate hstarts, fun _ ↦ honce⟩
  | never hnever hbus hstarts =>
      rw [hnever, if_neg Bool.false_ne_true]
      have htrace : engine.pollNotifications.2.trace.toList =
          engine.trace.toList ++ [.startInterruptIn] := Array.toList_push
      have hbegun : Paused engine.pollNotifications.2 engine.pollNotifications.2 :=
        ⟨.refl _, hstate, rfl⟩
      have hwaited := hpaused _ .polling _ hbegun
      obtain ⟨made, hmade, hquiet⟩ := hwaited.made.quiet
      rw [htrace, List.append_assoc, List.singleton_append] at hmade
      have hflag : engine.pollNotifications.2.pipes.interruptStarted = false := hnever
      rcases hpoll : engine.pollNotifications with ⟨error | ⟨⟩, called⟩
      · rw [hpoll] at hwaited hmade hflag
        refine ⟨.never (hwaited.started.trans hflag) (fun call hcall ↦ ?_) fun calls hcalls ↦
          hstarts calls ?_, nofun⟩
        · rw [hmade, List.mem_append, List.mem_cons] at hcall
          rcases hcall with hcall | rfl | hcall
          · exact hbus call hcall
          · rfl
          · exact (hquiet call hcall).1
        · rw [hmade] at hcalls
          exact (List.prefix_append _ _).trans hcalls
      · rw [hpoll] at hmade
        have hprepare : PreparePolling τ engine.trace.toList :=
          ⟨hbus, engine, rfl, hnever, congrArg Prod.fst hpoll⟩
        exact ⟨.once _ made rfl hprepare hmade (fun hcall ↦ (hquiet _ hcall).2 rfl)
          (hstarts _ List.prefix_rfl), fun _ ↦ rfl⟩

include hturn

/-- Asking for later data starts no polling. -/
theorem pollsOnce_submitControlIn {request : ClassRequest} {continuation : Continuation} :
    EngineOp.Preserves (PollsOnce starts) (submitControlIn turn request continuation) :=
  submitControlIn_preserves hturn fun _ h ↦ h.call ⟨rfl, by nofun⟩ _

/-- Polling for answers is not polling for notifications. -/
theorem PollsOnce.startBulkIn (h : engine.PollsOnce starts) :
    ((Engine.startBulkIn turn).exec engine).2.PollsOnce starts := by
  rw [exec_startBulkIn]
  split
  · exact h
  · have hprepared : ((engine.onTracker fun tracker ↦ { tracker with receiving := true }).onPipes
        fun pipes ↦ { pipes with bulkInAttached := true }).PollsOnce starts :=
      h.of_same rfl rfl
    have hcalled : engine.pollAnswers.2.PollsOnce starts := hprepared.call ⟨rfl, by nofun⟩ _
    have hwaited := hturn .polling _ hcalled
    rcases hpoll : engine.pollAnswers with ⟨error | ⟨⟩, called⟩
    · rw [hpoll] at hwaited
      exact hwaited.of_same rfl rfl
    · rw [hpoll] at hwaited
      exact hwaited

/-- Configuring the targets starts no polling. -/
theorem pollsOnce_configureTargets :
    EngineOp.Preserves (PollsOnce starts) (configureTargets turn) := by
  refine .bind .get fun engine ↦ ?_
  split
  next => exact .throw _
  next capability _ =>
    dsimp only
    split
    · exact .pure _
    · exact .bind (.ofResult _) fun _ ↦
        .bind (controlOut_preserves hturn (fun _ h ↦ h.call ⟨rfl, by nofun⟩ _) _)
          fun _ ↦ .forM fun address _ ↦ beside_pollsOnce.stable.recordConfig address _ _

/-- The bus is initialized after polling has been started. -/
theorem PollsOnce.initializeBus (h : engine.PollsOnce starts)
    (hstarted : engine.pipes.interruptStarted = true) :
    ((Engine.initializeBus turn).exec engine).2.PollsOnce starts := by
  rw [exec_initializeBus]
  split
  · rw [EngineOp.exec_controlOut]
    exact hturn _ _ (h.push (by nofun) (fun _ ↦ hstarted) _)
  · exact h

include hpaused

/-- Each action, if the bus is initialized only while no run can start. -/
theorem PollsOnce.operation (h : engine.PollsOnce starts) {action : InitAction}
    (hstate : action = .initializeBus → engine.bringUp.state.isStartable = false) :
    ((action.operation turn).exec engine).2.PollsOnce starts := by
  have hsame {change : Engine τ → Engine τ}
      (hchange : ∀ engine, (change engine).trace = engine.trace ∧
        (change engine).pipes = engine.pipes) :
      EngineM.Preserves (PollsOnce starts) (modify change : EngineM τ Unit) :=
    .modify fun engine hengine ↦
      hengine.of_same (hchange engine).1 (congrArg Pipes.interruptStarted (hchange engine).2)
  have hfailure (failure : Option HostError) : EngineM.Preserves (PollsOnce starts)
      (setFailure failure : EngineM τ Unit) :=
    hsame fun _ ↦ ⟨rfl, rfl⟩
  have hrole (active : Bool) : EngineM.Preserves (PollsOnce starts)
      (setActiveController active : EngineM τ Unit) :=
    hsame fun _ ↦ ⟨rfl, rfl⟩
  have hsubmit {request : ClassRequest} {continuation : Continuation} :
      EngineOp.Preserves (PollsOnce starts) (submitControlIn turn request continuation) :=
    pollsOnce_submitControlIn hturn
  have hpreserved (hoperation : (action.operation turn).Preserves (PollsOnce starts)) :
      ((action.operation turn).exec engine).2.PollsOnce starts :=
    hoperation engine h
  cases action with
  | start => exact hpreserved (.bind (.liftM (hfailure _)) fun _ ↦ hsubmit)
  | takeCapability buffer =>
      refine hpreserved (.bind ?_ fun _ engine hengine ↦ hengine.startBulkIn hturn)
      refine .bind (.ofResult _) fun report ↦ .bind (.liftM (hsame fun _ ↦ ⟨rfl, rfl⟩)) fun _ ↦ ?_
      split
      · exact .pure _
      · exact .bind (.modifyGet fun engine hengine ↦ hengine.of_same rfl rfl) fun _ ↦
          .bind (.ofResult _) fun _ ↦ .pure _
  | initializeBus =>
      obtain ⟨hafter, hstarts⟩ := h.startInterruptIn hpaused (hstate rfl)
      show (((do
        Engine.startInterruptIn turn
        Engine.initializeBus turn : EngineOp τ Unit).exec engine).2).PollsOnce starts
      rw [EngineOp.exec_bind]
      rcases hstart : (Engine.startInterruptIn turn).exec engine with ⟨error | ⟨⟩, after⟩
      · rw [hstart] at hafter
        exact hafter
      · rw [hstart] at hafter hstarts
        exact hafter.initializeBus hturn (hstarts rfl)
  | stayInStandby => exact hpreserved (.liftM (hrole _))
  | busInitialized => exact hpreserved (.bind (.liftM (hsame fun _ ↦ ⟨rfl, rfl⟩)) fun _ ↦ hsubmit)
  | busInitFailed code => exact hpreserved (.bind (.liftM (hrole _)) fun _ ↦ .liftM (hfailure _))
  | takeListing buffer =>
      exact hpreserved (.bind (beside_pollsOnce.stable.mergeListing buffer)
        fun _ ↦ pollsOnce_configureTargets hturn)
  | configApplied => exact hpreserved hsubmit
  | refreshListing buffer => exact hpreserved (beside_pollsOnce.stable.mergeListing buffer)
  | ready => exact hpreserved (.liftM (hsame fun _ ↦ ⟨rfl, rfl⟩))
  | failure error => exact hpreserved (.liftM (hfailure _))

/-- A run of initialization. -/
theorem pollsOnce_runBringUp : EngineOp.Preserves (PollsOnce starts) (runBringUp turn) := by
  refine runBringUp_preserves (fun {engine event transition} htransition h ↦ ?_)
    (fun _ _ _ h ↦ h.of_same rfl rfl) fun _ h ↦ h.of_same rfl rfl
  have hoperation : ((transition.action.operation turn).exec engine).2.PollsOnce starts := by
    refine h.operation hturn hpaused fun hbus ↦ ?_
    rw [transitions_initializeBus _ _ transition htransition hbus]
    rfl
  have hpost (event : InitEvent) (engine : Engine τ) (h : engine.PollsOnce starts) :
      (post event engine).2.PollsOnce starts := by
    unfold post
    split
    · exact h.of_same rfl rfl
    · exact h
  rw [performStandard_eq, exec_postOutcome]
  revert hoperation
  rcases (transition.action.operation turn).exec engine with ⟨error | ⟨⟩, after⟩
  · exact hpost _ _
  · cases transition.action.success with
    | none => exact id
    | some event => exact hpost event after

/-- Dealing with answers starts polling at most once. -/
theorem sustained_pollsOnce : Sustained turn fun _ ↦ (PollsOnce starts : Engine τ → Prop) :=
  sustained_beside beside_pollsOnce sparesOrders_pollsOnce pollsOnce_sent hturn
    (pollsOnce_runBringUp hturn hpaused)

end Runs

/-- What is kept while a call of the application waits: polling is started once, and as long as a
run is on its way no other starts. -/
def KeptPolling (starts : List TransportCall → Prop) :
    Option (Engine τ) → List (TrackedRequest (Hook τ)) → Engine τ → Prop
  | none, _, engine => engine.PollsOnce starts
  | some before, _, engine => Paused before engine

/-- While a call of the application waits polling is started at most once, and during a run no other
run starts. -/
theorem keptPolling_application (starts : List TransportCall → Prop)
    (paused : Option (Engine τ)) (moment : Moment) :
    EngineM.Preserves (KeptPolling starts paused []) ((Turn.application : Turn τ) moment) := by
  refine Sustained.application_all (fun turn hturn paused ↦ ?_) paused [] moment
  cases paused with
  | none => exact sustained_pollsOnce (hturn none []) fun before ↦ hturn (some before) []
  | some before => exact sustained_paused (hturn (some before) [])

/-- Every call, completion and failed wait starts polling at most once in all. -/
theorem pollsOnce_happen (event : Event τ) :
    EngineM.Preserves (PollsOnce starts) (happen event) := by
  by_cases hevent : event = .call .bringUp
  · intro engine h
    rw [hevent, exec_happen_bringUp]
    exact pollsOnce_runBringUp (keptPolling_application starts none)
      (fun before ↦ keptPolling_application starts (some before)) engine h
  · exact beside_happen beside_pollsOnce sparesOrders_pollsOnce pollsOnce_sent
      (pollsOnce_runBringUp (fun _ ↦ .pure _) fun _ _ ↦ .pure _) hevent

/-- While the events happen to the session, polling for notifications is started with success when
the calls have been made. One of the events asks for it, for the last time: before this event the
session has not noted that the transport accepted this, and afterwards it has. -/
def PollingStarts (session : Engine τ) (events : List (Event τ)) (calls : List TransportCall) :
    Prop :=
  PreparePolling τ calls ∧ ∃ first event rest late, events = first ++ event :: rest ∧
    (session.after first).pipes.interruptStarted = false ∧
    (session.after (first ++ [event])).pipes.interruptStarted = true ∧
    (session.after first).trace.toList <+: calls ∧
    (session.after (first ++ [event])).trace.toList = calls ++ .startInterruptIn :: late ∧
    .startInterruptIn ∉ late

/-- Notifications are polled for at the end of a log: at some time the polling was started with
success, and it has not ended since. -/
def Polled (session : Engine τ) (events : List (Event τ)) (log : List PollingEntry) : Prop :=
  ∃ early late, log = early ++ .call .startInterruptIn :: late ∧
    PollingStarts session events (loggedCalls early) ∧ .ended ∉ late

variable {session : Engine τ} {events : List (Event τ)}

/-- Later events do not change when polling was started. -/
theorem PollingStarts.concat {calls : List TransportCall} (h : PollingStarts session events calls)
    (event : Event τ) : PollingStarts session (events ++ [event]) calls := by
  obtain ⟨hprepare, first, starting, rest, late, rfl, hstarts⟩ := h
  exact ⟨hprepare, first, starting, rest ++ [event], late,
    by rw [List.append_assoc, List.cons_append], hstarts⟩

/-- Before polling is started with success the bus is not initialized, and afterwards polling is not
started again. -/
theorem pollsOnce_after {transport : τ} {options : SessionOptions}
    (h : Session.ofTransport transport options = .ok session) (events : List (Event τ)) :
    ((session.after events).pipes.interruptStarted = false ∧
      ∀ call ∈ (session.after events).trace.toList, call.initializesBus = false) ∨
    ∃ calls, PollingStarts session events calls ∧ (session.after events).PollsOnce (· = calls) := by
  refine after_induction (P := fun events engine ↦
    (engine.pipes.interruptStarted = false ∧
      ∀ call ∈ engine.trace.toList, call.initializesBus = false) ∨
    ∃ calls, PollingStarts session events calls ∧ engine.PollsOnce (· = calls)) ?opened
    fun first event _ _ hfirst ↦ ?step
  case opened =>
    obtain ⟨table, rfl⟩ := exists_of_ofTransport h
    exact .inl ⟨rfl, List.forall_mem_nil _⟩
  case step =>
    rcases hfirst with ⟨hnever, hbus⟩ | ⟨calls, hstarts, hpolls⟩
    · -- Only what is asked for when this event happens can be the start.
      have hbefore : (session.after first).PollsOnce ((session.after first).trace.toList <+: ·) :=
        .never hnever hbus fun _ ↦ id
      have hhappened := pollsOnce_happen event _ hbefore
      rw [← after_concat] at hhappened ⊢
      cases hhappened with
      | never hstill hquiet => exact .inl ⟨hstill, hquiet⟩
      | once calls late honce hprepare htrace hlate hcalls =>
          exact .inr ⟨calls, ⟨hprepare, first, event, [], late, rfl, hnever, honce, hcalls, htrace,
            hlate⟩, .once calls late honce hprepare htrace hlate rfl⟩
    · exact .inr ⟨calls, hstarts.concat event, pollsOnce_happen event _ hpolls⟩

/-- Once polling has ended it has to be started anew. -/
theorem not_polled {first rest : List PollingEntry} (h : .call .startInterruptIn ∉ rest) :
    ¬ Polled session events (first ++ .ended :: rest) := by
  rintro ⟨early, late, heq, -, hlate⟩
  rcases List.append_eq_append_iff.1 heq with ⟨between, -, hrest⟩ | ⟨between, -, hrest⟩
  · cases between with
    | nil => cases hrest
    | cons entry between =>
        obtain ⟨-, rfl⟩ := List.cons.inj hrest
        exact h (List.mem_append_right between List.mem_cons_self)
  · cases between with
    | nil => cases hrest
    | cons entry between =>
        obtain ⟨-, rfl⟩ := List.cons.inj hrest
        exact hlate (List.mem_append_right between List.mem_cons_self)

/-- Only the latest start of polling matters. -/
theorem polled_append_iff {early late : List PollingEntry}
    (hstarts : PollingStarts session events (loggedCalls early))
    (hlate : .call .startInterruptIn ∉ late) :
    Polled session events (early ++ .call .startInterruptIn :: late) ↔ .ended ∉ late := by
  refine ⟨fun hpolled hended ↦ ?_, fun hended ↦ ⟨early, late, rfl, hstarts, hended⟩⟩
  obtain ⟨first, rest, rfl⟩ := List.append_of_mem hended
  have hrest : .call .startInterruptIn ∉ rest := fun hmem ↦
    hlate (List.mem_append_right first (List.mem_cons_of_mem _ hmem))
  have hnot : ¬ Polled session events
      ((early ++ .call .startInterruptIn :: first) ++ .ended :: rest) :=
    not_polled hrest
  rw [List.append_assoc, List.cons_append] at hnot
  exact hnot hpolled

/-- That the polling has ended makes no difference to a session. -/
theorem exec_complete_ended (turn : Turn τ) (error : TransportError) (engine : Engine τ) :
    (complete turn (.interrupt (.error error))).exec engine = ((), engine) := by
  unfold complete
  rw [EngineM.exec_bind, EngineM.exec_get]
  dsimp only
  split <;> rfl

/-- The bus is initialized after polling was started for the last time. -/
theorem exists_start_of_loggedCalls {calls made : List TransportCall}
    (hbus : ∀ call ∈ calls, call.initializesBus = false) (hmade : .startInterruptIn ∉ made)
    {before later : List PollingEntry} {value : UInt16} {data : Bytes}
    (hlog : loggedCalls (before ++ .call (.controlOut .initializeI3cBus value data) :: later) =
      calls ++ .startInterruptIn :: made) :
    ∃ early late, before = early ++ .call .startInterruptIn :: late ∧ loggedCalls early = calls ∧
      .call .startInterruptIn ∉ late ++ later := by
  obtain ⟨early, rest, heq, hearly, hrest⟩ := exists_of_loggedCalls_eq hlog
  have hnone : .call .startInterruptIn ∉ rest := fun hmem ↦ hmade (hrest ▸ mem_loggedCalls hmem)
  rcases List.append_eq_append_iff.1 heq with ⟨between, rfl, hsplit⟩ | ⟨between, hbefore, hsplit⟩
  · -- The bus was not initialized before polling was started.
    cases between with
    | nil => cases hsplit
    | cons entry between =>
        obtain ⟨rfl, -⟩ := List.cons.inj hsplit
        have hinitialized := hbus _ (hearly ▸ mem_loggedCalls
          (List.mem_append_right before List.mem_cons_self))
        cases hinitialized
  · cases between with
    | nil => cases hsplit
    | cons entry late =>
        obtain ⟨rfl, rfl⟩ := List.cons.inj hsplit
        refine ⟨early, late, hbefore, hearly, fun hmem ↦ hnone ?_⟩
        exact (List.mem_append.1 hmem).elim (List.mem_append_left _)
          fun hlater ↦ List.mem_append_right _ (List.mem_cons_of_mem _ hlater)

/-- Whenever the device is told to initialize the bus, polling for notifications has been started
with success before, and it is never started again. So notifications are polled for at this moment
exactly if the polling has not ended since then: a session does not notice that it ends. -/
theorem polled_iff {transport : τ} {options : SessionOptions}
    (h : Session.ofTransport transport options = .ok session) (events : List (Event τ))
    {before later : List PollingEntry} {value : UInt16} {data : Bytes}
    (hlog : loggedCalls (before ++ .call (.controlOut .initializeI3cBus value data) :: later) =
      (session.after events).trace.toList) :
    (∃ early late, before = early ++ .call .startInterruptIn :: late ∧
        PollingStarts session events (loggedCalls early) ∧
        (session.after events).pipes.interruptStarted = true ∧
        .call .startInterruptIn ∉ late ++ later ∧
        (Polled session events before ↔ .ended ∉ late)) ∧
      ∀ (turn : Turn τ) (error : TransportError) (engine : Engine τ),
        (complete turn (.interrupt (.error error))).exec engine = ((), engine) := by
  refine ⟨?_, exec_complete_ended⟩
  have hsent : .controlOut .initializeI3cBus value data ∈ (session.after events).trace.toList :=
    hlog ▸ mem_loggedCalls (List.mem_append_right before List.mem_cons_self)
  have hcourse := pollsOnce_after h events
  rcases hcourse with ⟨-, hbus⟩ | ⟨calls, hstarts, hpolls⟩
  · cases hbus _ hsent
  · obtain ⟨hstarted, hprepare, made, htrace, hmade⟩ := hpolls.exists_late
    obtain ⟨early, late, rfl, rfl, hnone⟩ :=
      exists_start_of_loggedCalls hprepare.bus hmade (hlog.trans htrace)
    have hlate : .call .startInterruptIn ∉ late := fun hmem ↦ hnone (List.mem_append_left _ hmem)
    exact ⟨early, late, rfl, hstarts, hstarted, hnone, polled_append_iff hstarts hlate⟩

/-- A session whose device initializes the bus successfully every time. -/
def willingBus : Engine ScriptedTransport :=
  opened (twoTargetDevice [capableReply] [busReply .success])

/-- What a run asks for before it has the bus initialized, if all that is polled for has to be
started. -/
def firstRequests : List PollingEntry :=
  [.call (.submitControlIn .getI3cCapability 0 maxControlInLength), .call (.startBulkIn 8192),
    .call .startInterruptIn]

/-- What a run asks for once the bus has been initialized. -/
def lastRequests : List PollingEntry :=
  [.call (.submitControlIn .getTargetDeviceTable 0 maxControlInLength),
    .call (.controlOut .setTargetDeviceConfig 0
      [1, 2, 0, 0, 8, 1, 0, 0, 32, 0, 0, 0, 9, 1, 0, 0, 32, 0, 0, 0]),
    .call (.submitControlIn .getTargetDeviceTable 0 maxControlInLength)]

/-- The first run of a session starts polling, before it has the bus initialized. -/
theorem polled_willingBus :
    Session.ofTransport willingBus.transport {} = .ok willingBus ∧
      loggedCalls (firstRequests ++ .call (.controlOut .initializeI3cBus 0 []) :: lastRequests) =
        (willingBus.after [.call .bringUp]).trace.toList ∧
      Polled willingBus [.call .bringUp] firstRequests := by
  have hopened : Session.ofTransport willingBus.transport {} = .ok willingBus := rfl
  have hlog : loggedCalls
      (firstRequests ++ .call (.controlOut .initializeI3cBus 0 []) :: lastRequests) =
        (willingBus.after [.call .bringUp]).trace.toList := by decide +kernel
  refine ⟨hopened, hlog, ?_⟩
  obtain ⟨⟨early, late, hfirst, -, -, -, hpolled⟩, -⟩ := polled_iff hopened _ hlog
  refine hfirst ▸ hpolled.2 fun hended ↦ ?_
  have hmem : .ended ∈ firstRequests :=
    hfirst ▸ List.mem_append_right early (List.mem_cons_of_mem _ hended)
  simp [firstRequests] at hmem

/-- A whole run. -/
def wholeRun : List PollingEntry :=
  firstRequests ++ .call (.controlOut .initializeI3cBus 0 []) :: lastRequests

/-- The polling for notifications is cancelled between two runs. -/
def cancelledBetween : List (Event ScriptedTransport) :=
  [.call .bringUp, .completion (.interrupt (.error .cancelled)), .call .bringUp]

/-- The second run has the bus initialized although nobody polls for notifications any more. -/
theorem not_polled_cancelledBetween :
    let before := wholeRun ++
      [.ended, .call (.submitControlIn .getI3cCapability 0 maxControlInLength)]
    Session.ofTransport willingBus.transport {} = .ok willingBus ∧
      (willingBus.after [.call .bringUp]).trace.toList = loggedCalls wholeRun ∧
      (willingBus.after [.call .bringUp]).pipes.interruptAttached = true ∧
      (willingBus.after cancelledBetween).trace.toList =
        loggedCalls (before ++ .call (.controlOut .initializeI3cBus 0 []) :: lastRequests) ∧
      ¬ Polled willingBus cancelledBetween before :=
  ⟨rfl, by decide +kernel, by decide +kernel, by decide +kernel, not_polled (by simp)⟩

end Engine

end I3cHost
