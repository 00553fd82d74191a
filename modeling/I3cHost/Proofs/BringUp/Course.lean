import I3cHost.Engine.Delivery
import I3cHost.Proofs.Engine.Permanence

/-!
# The course of initialization

A run of initialization is described by the events that it accepts. `runCourse` does what
`runBringUp` does (`exec_runCourse`) and returns them. With the standard actions and conditions an
event is either dropped, or a transition is taken (`exec_process_cases`), and every accepted event
leads closer to an end (`InitState.distance_lt`), so no run is cut short. What holds when a run has
started, and what one event preserves, therefore holds when the run has come to an end
(`RunInvariant.exec_runBringUp`).
-/

namespace I3cHost

namespace InitState

/-- Whether a run ends in the state. -/
def isTerminal : InitState → Bool
  | .ready => true
  | .standby => true
  | .failed => true
  | _ => false

/-- A bound on the steps that a run takes from the state on. -/
def distance : InitState → Nat
  | .idle => 9
  | .capabilityRequested => 8
  | .pipelineStarting => 7
  | .busInitRequested => 6
  | .tableRequested => 5
  | .configRequested => 4
  | .tableRefreshRequested => 3
  | .finalizing => 2
  | _ => 1

/-- Every transition of a run leads closer to its end. -/
theorem distance_lt {state : InitState} {event : InitEvent} (hstate : state.isTerminal = false) :
    ∀ transition ∈ transitions state event, transition.target.distance < state.distance := by
  cases state <;> cases event <;> simp_all [transitions, isTerminal, distance]

/-- Whether a run can start in the state. -/
def isStartable : InitState → Bool
  | .idle => true
  | state => state.isTerminal

/-- Once it has begun no run starts anew until it has come to an end. -/
theorem isStartable_eq_false {state : InitState} (hstate : state.isTerminal = false)
    (hidle : state ≠ .idle) : state.isStartable = false := by
  cases state <;> simp_all [isStartable, isTerminal]

end InitState

/-- The transition with which a run starts. -/
def startTransition : Transition where
  action := .start
  target := .capabilityRequested

/-- A run starts in the same way wherever it can. -/
theorem transitions_start (state : InitState) :
    transitions state .start = if state.isStartable then [startTransition] else [] := by
  cases state <;> rfl

/-- Whether the condition of a transition is fulfilled. -/
def Transition.isFulfilled (device : DeviceInfo) (transition : Transition) : Bool :=
  transition.guard.all fun (guard, value) ↦ Engine.holdsStandard device guard == value

namespace Engine

variable {τ : Type} {engine : Engine τ}

/-- Posting what came of an operation fails only if nobody processes posted events. -/
theorem postOutcome_posts (operation : EngineOp τ Unit) (success : Option InitEvent)
    (engine : Engine τ) : ((postOutcome operation success).exec engine).1 = true ∨
      ((postOutcome operation success).exec engine).2.bringUp.listening = false := by
  have hpost (event : InitEvent) (engine : Engine τ) :
      (post event engine).1 = true ∨ (post event engine).2.bringUp.listening = false := by
    unfold post
    split
    next => exact .inl rfl
    next hdeaf => exact .inr (Bool.not_eq_true _ ▸ hdeaf)
  unfold postOutcome
  rw [EngineM.exec_bind]
  rcases EngineM.exec operation.run engine with ⟨error | ⟨⟩, after⟩
  · exact hpost _ after
  · cases success with
    | none => exact .inl rfl
    | some event => exact hpost event after

variable [Transport τ] {turn : Turn τ}

/-- An action fails only if nobody processes posted events. -/
theorem performStandard_succeeds (turn : Turn τ) (action : InitAction) (engine : Engine τ) :
    ((performStandard turn action).exec engine).1 = true ∨
      ((performStandard turn action).exec engine).2.bringUp.listening = false := by
  rw [performStandard_eq]
  exact postOutcome_posts _ _ _

/-- With the standard actions and conditions a transition is taken if its condition is fulfilled. -/
theorem exec_takeTransition_cons (hpolicy : engine.bringUp.policy = {}) (transition : Transition)
    (others : List Transition) :
    (takeTransition turn (transition :: others)).exec engine =
      if transition.isFulfilled engine.device then
        match (performStandard turn transition.action).exec engine with
        | (true, after) =>
            (.ok (), after.onBringUp fun bringUp ↦ { bringUp with state := transition.target })
        | (false, after) => (.error .actionFailed, after)
      else
        (takeTransition turn others).exec engine := by
  have hguard : (transition.guard.mapM fun (guard, value) ↦
      (holds? guard engine).map (· == value)) =
        some (transition.guard.map fun (guard, value) ↦
          holdsStandard engine.device guard == value) := by
    cases transition.guard with
    | none => rfl
    | some condition => simp [holds?, hpolicy]
  have haction : (performAction turn transition.action).exec engine =
      (performStandard turn transition.action).exec engine := by
    unfold performAction
    rw [EngineM.exec_bind, EngineM.exec_get, hpolicy]
  rw [takeTransition, Transition.isFulfilled, EngineM.exec_bind, EngineM.exec_get]
  simp only [hguard]
  have hperform : (do
      if ← performAction turn transition.action then
        modify (onBringUp fun bringUp ↦ { bringUp with state := transition.target })
        return .ok ()
      else
        return .error .actionFailed : EngineM τ (Except Rejection Unit)).exec engine =
      match (performStandard turn transition.action).exec engine with
      | (true, after) =>
          (.ok (), after.onBringUp fun bringUp ↦ { bringUp with state := transition.target })
      | (false, after) => (.error .actionFailed, after) := by
    rw [EngineM.exec_bind, haction]
    rcases (performStandard turn transition.action).exec engine with ⟨_ | _, after⟩ <;> rfl
  rcases transition.guard with _ | ⟨guard, value⟩
  · exact hperform
  · simp only [Option.map_some, Option.all_some]
    by_cases hholds : (holdsStandard engine.device guard == value) = true
    · simp only [hholds, if_true]
      exact hperform
    · simp only [hholds]
      rfl

/-- The state after a transition has been taken. -/
def taken (turn : Turn τ) (transition : Transition) (engine : Engine τ) : Engine τ :=
  ((performStandard turn transition.action).exec engine).2.onBringUp
    fun bringUp ↦ { bringUp with state := transition.target }

/-- With the standard actions and conditions either no transition is taken and nothing happens, or
one whose condition is fulfilled. -/
theorem exec_takeTransition_cases (hpolicy : engine.bringUp.policy = {})
    (candidates : List Transition) (hlistening : ∀ transition ∈ candidates,
      transition.isFulfilled engine.device = true →
        (engine.taken turn transition).bringUp.listening = true) :
    ((∀ transition ∈ candidates, transition.isFulfilled engine.device = false) ∧ ∃ reason,
        (takeTransition turn candidates).exec engine = (.error reason, engine)) ∨
      ∃ transition ∈ candidates, transition.isFulfilled engine.device = true ∧
        (takeTransition turn candidates).exec engine = (.ok (), engine.taken turn transition) := by
  induction candidates with
  | nil => exact .inl ⟨List.forall_mem_nil _, _, rfl⟩
  | cons transition others ih =>
      obtain ⟨hheard, hothers⟩ := List.forall_mem_cons.1 hlistening
      rw [exec_takeTransition_cons hpolicy]
      by_cases hfulfilled : transition.isFulfilled engine.device = true
      · rw [if_pos hfulfilled]
        refine .inr ⟨transition, List.mem_cons_self, hfulfilled, ?_⟩
        rcases performStandard_succeeds turn transition.action engine with hsucceeds | hdeaf
        · rw [show (performStandard turn transition.action).exec engine = (true, _) from
            Prod.ext hsucceeds rfl]
          rfl
        · exact absurd (hdeaf.symm.trans (hheard hfulfilled)) Bool.false_ne_true
      · rw [if_neg hfulfilled]
        rcases ih hothers with ⟨hnone, hrejected⟩ | ⟨taken, htaken, haccepted⟩
        · exact .inl ⟨List.forall_mem_cons.2 ⟨Bool.not_eq_true _ ▸ hfulfilled, hnone⟩, hrejected⟩
        · exact .inr ⟨taken, List.mem_cons_of_mem transition htaken, haccepted⟩

/-- An event is either dropped without a trace, or a transition for it is taken. -/
theorem exec_process_cases (hpolicy : engine.bringUp.policy = {}) (event : InitEvent)
    (hlistening : ∀ transition ∈ transitions engine.bringUp.state event,
      transition.isFulfilled engine.device = true →
        (engine.taken turn transition).bringUp.listening = true) :
    ((∀ transition ∈ transitions engine.bringUp.state event,
        transition.isFulfilled engine.device = false) ∧ ∃ reason,
          (process turn event).exec engine = (.error reason, engine)) ∨
      ∃ transition ∈ transitions engine.bringUp.state event,
        transition.isFulfilled engine.device = true ∧
          (process turn event).exec engine = (.ok (), engine.taken turn transition) := by
  unfold process
  rw [EngineM.exec_bind, EngineM.exec_get]
  rcases exec_takeTransition_cases hpolicy (transitions engine.bringUp.state event) hlistening
    with ⟨hnone, reason, hrejected⟩ | ⟨transition, htransition, hfulfilled, haccepted⟩
  · refine .inl ⟨hnone, ?_⟩
    split
    next => exact ⟨_, rfl⟩
    next => exact ⟨reason, hrejected⟩
  · refine .inr ⟨transition, htransition, hfulfilled, ?_⟩
    split
    next hempty => rw [hempty] at htransition; cases htransition
    next => exact haccepted

/-- Offers posted events in order until one is accepted, and returns that one. -/
def offer (turn : Turn τ) : List InitEvent → EngineM τ (Option InitEvent)
  | [] => return none
  | event :: others => do
      modify dropPosted
      match ← process turn event with
      | .ok () => return some event
      | .error _ => offer turn others

/-- The event that follows when nothing that was posted is accepted. -/
def timedOut : InitEvent :=
  .fail (.transport .timeout)

/-- Goes on with initialization as `advance` does, and returns the events that are accepted. -/
def course (turn : Turn τ) : Nat → EngineM τ (List InitEvent)
  | 0 => return []
  | steps + 1 => do
      let bringUp := (← get).bringUp
      if bringUp.state.isTerminal then
        return []
      match ← offer turn bringUp.posted with
      | some event => return event :: (← course turn steps)
      | none =>
          match ← process turn timedOut with
          | .ok () => return timedOut :: (← course turn steps)
          | .error _ => course turn steps

/-- Dealing with posted events is offering them, and asking whether one was accepted. -/
theorem exec_processUntilAccepted (turn : Turn τ) (events : List InitEvent) (engine : Engine τ) :
    (processUntilAccepted turn events).exec engine =
      (((offer turn events).exec engine).1.isSome, ((offer turn events).exec engine).2) := by
  induction events generalizing engine with
  | nil => rfl
  | cons event others ih =>
      simp only [processUntilAccepted, offer, EngineM.exec_bind, EngineM.exec_modify]
      rcases (process turn event).exec engine.dropPosted with ⟨reason | ⟨⟩, after⟩
      · exact ih after
      · rfl

/-- Runs initialization as `runBringUp` does, and returns the events that are accepted once it has
started. -/
def runCourse (turn : Turn τ) : EngineM τ (List InitEvent) := do
  modify (onBringUp fun bringUp ↦ { bringUp with posted := [] })
  modify fun engine ↦ { engine with table := { engine.table with eventsEnabled := false } }
  match ← process turn .start with
  | .error _ => return []
  | .ok () => course turn maxSteps

/-- The events that a run of initialization by the application accepts once it has started. -/
def accepted (engine : Engine τ) : List InitEvent :=
  ((runCourse Turn.application).exec engine).1

/-- The result of a run that has come to an end. -/
def conclusion (engine : Engine τ) : HostResult Unit :=
  match engine.bringUp.state with
  | .failed => .error (engine.bringUp.failure.getD (.state (.unexpectedInitEvent "Fail")))
  | _ => .ok ()

/-- A run that has come to an end stays as it is. -/
theorem exec_advance_terminal (turn : Turn τ) (steps : Nat)
    (h : engine.bringUp.state.isTerminal = true) :
    (advance turn (steps + 1)).exec engine = (engine.conclusion, engine) ∧
      (course turn (steps + 1)).exec engine = ([], engine) := by
  constructor
  · rw [advance, EngineOp.exec_bind, EngineOp.exec_get]
    unfold conclusion
    dsimp only
    split
    next hstate => rw [hstate]; rfl
    next hstate => rw [hstate]; rfl
    next hstate => rw [hstate]; rfl
    next hready hstandby hfailed =>
      cases hstate : engine.bringUp.state <;> simp_all [InitState.isTerminal]
  · rw [course, EngineM.exec_bind, EngineM.exec_get]
    simp only [h, if_true]
    rfl

/-- A run that has not come to an end goes on once an event has been accepted, or else after it has
timed out. -/
theorem exec_advance_succ (turn : Turn τ) (steps : Nat)
    (h : engine.bringUp.state.isTerminal = false) :
    (advance turn (steps + 1)).exec engine =
      match (offer turn engine.bringUp.posted).exec engine with
      | (some _, after) => (advance turn steps).exec after
      | (none, after) => (advance turn steps).exec ((process turn timedOut).exec after).2 := by
  rw [advance, EngineOp.exec_bind, EngineOp.exec_get]
  dsimp only
  split
  next hstate => rw [hstate] at h; cases h
  next hstate => rw [hstate] at h; cases h
  next hstate => rw [hstate] at h; cases h
  next =>
    rw [EngineOp.exec_bind, EngineOp.exec_liftM, exec_processUntilAccepted]
    rcases (offer turn engine.bringUp.posted).exec engine with ⟨_ | event, after⟩ <;> rfl

/-- A step of a run offers what was posted, and what comes of a timeout if nothing is accepted. -/
theorem exec_course_succ (turn : Turn τ) (steps : Nat)
    (h : engine.bringUp.state.isTerminal = false) :
    (course turn (steps + 1)).exec engine =
      match (offer turn engine.bringUp.posted).exec engine with
      | (some event, after) =>
          (event :: ((course turn steps).exec after).1, ((course turn steps).exec after).2)
      | (none, after) =>
          match (process turn timedOut).exec after with
          | (.ok (), after) =>
              (timedOut :: ((course turn steps).exec after).1, ((course turn steps).exec after).2)
          | (.error _, after) => (course turn steps).exec after := by
  rw [course, EngineM.exec_bind, EngineM.exec_get]
  simp only [h, Bool.false_eq_true, if_false]
  rw [EngineM.exec_bind]
  rcases (offer turn engine.bringUp.posted).exec engine with ⟨_ | event, after⟩
  · dsimp only
    rw [EngineM.exec_bind]
    rcases (process turn timedOut).exec after with ⟨_ | ⟨⟩, last⟩ <;> rfl
  · rfl

/-- `course` does what `advance` does. -/
theorem exec_course (turn : Turn τ) (steps : Nat) (engine : Engine τ) :
    ((course turn steps).exec engine).2 = ((advance turn steps).exec engine).2 := by
  induction steps generalizing engine with
  | zero => rfl
  | succ steps ih =>
      cases hterminal : engine.bringUp.state.isTerminal with
      | true =>
          obtain ⟨hadvance, hcourse⟩ := exec_advance_terminal turn steps hterminal
          rw [hadvance, hcourse]
      | false =>
          rw [exec_advance_succ turn steps hterminal, exec_course_succ turn steps hterminal]
          rcases (offer turn engine.bringUp.posted).exec engine with ⟨_ | event, after⟩
          · dsimp only
            rcases (process turn timedOut).exec after with ⟨reason | ⟨⟩, last⟩
            · exact ih last
            · exact ih last
          · exact ih after

/-- `runCourse` does what `runBringUp` does. -/
theorem exec_runCourse (turn : Turn τ) (engine : Engine τ) :
    ((runCourse turn).exec engine).2 = ((runBringUp turn).exec engine).2 := by
  unfold runCourse runBringUp
  simp only [EngineOp.exec_bind, EngineOp.exec_modify, EngineOp.exec_liftM, EngineM.exec_bind,
    EngineM.exec_modify]
  rcases (process turn .start).exec _ with ⟨reason | ⟨⟩, after⟩
  · rfl
  · exact exec_course turn maxSteps after

/-- The event that comes next. -/
def nextEvent (engine : Engine τ) : InitEvent :=
  engine.bringUp.posted.headD timedOut

omit [Transport τ] in
/-- Where nothing is posted nothing is dropped. -/
theorem dropPosted_of_nil (h : engine.bringUp.posted = []) : engine.dropPosted = engine := by
  obtain ⟨_, _, _, _, _, _, _, bringUp, _, _, _⟩ := engine
  cases bringUp
  cases h
  rfl

/-- A relation between the events that a run has accepted so far and the state, which every event
preserves: those that are dropped, and those for which a transition is taken. -/
structure RunInvariant (turn : Turn τ) (Inv : List InitEvent → Engine τ → Prop) : Prop where
  policy : ∀ {accepted engine}, Inv accepted engine → engine.bringUp.policy = {}
  listening : ∀ {accepted engine}, Inv accepted engine → engine.bringUp.listening = true
  dropped : ∀ {accepted engine}, Inv accepted engine → engine.bringUp.state.isTerminal = false →
    (∀ transition ∈ transitions engine.bringUp.state engine.nextEvent,
      transition.isFulfilled engine.device = false) → Inv accepted engine.dropPosted
  taken : ∀ {accepted engine} transition, Inv accepted engine →
    engine.bringUp.state.isTerminal = false →
    transition ∈ transitions engine.bringUp.state engine.nextEvent →
    transition.isFulfilled engine.device = true →
      Inv (accepted ++ [engine.nextEvent]) (engine.dropPosted.taken turn transition)

namespace RunInvariant

variable {Inv : List InitEvent → Engine τ → Prop} (hinv : RunInvariant turn Inv)
  {heard : List InitEvent}

include hinv

/-- The next event is either dropped, or a transition is taken that leads closer to an end. -/
theorem exec_process (h : Inv heard engine) (hstate : engine.bringUp.state.isTerminal = false) :
    ((∀ transition ∈ transitions engine.bringUp.state engine.nextEvent,
        transition.isFulfilled engine.device = false) ∧ ∃ reason,
        (process turn engine.nextEvent).exec engine.dropPosted =
          (.error reason, engine.dropPosted) ∧
          Inv heard engine.dropPosted) ∨
      ∃ after, (process turn engine.nextEvent).exec engine.dropPosted = (.ok (), after) ∧
        Inv (heard ++ [engine.nextEvent]) after ∧
        after.bringUp.state.distance < engine.bringUp.state.distance := by
  have hpolicy : engine.dropPosted.bringUp.policy = {} := (hinv.policy h :)
  rcases exec_process_cases hpolicy engine.nextEvent fun transition htransition hfulfilled ↦
        hinv.listening (hinv.taken transition h hstate htransition hfulfilled)
    with ⟨hnone, reason, hrejected⟩ | ⟨transition, htransition, hfulfilled, haccepted⟩
  · exact .inl ⟨hnone, reason, hrejected, hinv.dropped h hstate hnone⟩
  · exact .inr ⟨_, haccepted, hinv.taken transition h hstate htransition hfulfilled,
      InitState.distance_lt hstate transition htransition⟩

/-- A run that has timed out fails, and a failure is always accepted. -/
theorem exec_timedOut (h : Inv heard engine) (hstate : engine.bringUp.state.isTerminal = false)
    (hposted : engine.bringUp.posted = []) :
    ∃ after, (process turn timedOut).exec engine = (.ok (), after) ∧
      Inv (heard ++ [timedOut]) after ∧
      after.bringUp.state.distance < engine.bringUp.state.distance := by
  have hnext : engine.nextEvent = timedOut := by rw [nextEvent, hposted]; rfl
  have hsame : engine.dropPosted = engine := dropPosted_of_nil hposted
  have hprocess := hinv.exec_process h hstate
  rw [hnext, hsame] at hprocess
  rcases hprocess with ⟨hnone, -⟩ | haccepted
  · have hfail : { action := .failure (.transport .timeout), target := .failed } ∈
        transitions engine.bringUp.state timedOut := by
      cases engine.bringUp.state <;> exact List.mem_cons_self
    cases hnone _ hfail
  · exact haccepted

/-- Of the posted events either none is accepted, or the first that is leads closer to an end. -/
theorem exec_offer (events : List InitEvent) (hposted : engine.bringUp.posted = events)
    (h : Inv heard engine) (hstate : engine.bringUp.state.isTerminal = false) :
    (∃ after, (offer turn events).exec engine = (none, after) ∧ Inv heard after ∧
        after.bringUp.state = engine.bringUp.state ∧ after.bringUp.posted = []) ∨
      ∃ event after, (offer turn events).exec engine = (some event, after) ∧
        Inv (heard ++ [event]) after ∧
        after.bringUp.state.distance < engine.bringUp.state.distance := by
  induction events generalizing engine with
  | nil => exact .inl ⟨engine, rfl, h, rfl, hposted⟩
  | cons event others ih =>
      have hnext : engine.nextEvent = event := by rw [nextEvent, hposted]; rfl
      have hothers : engine.dropPosted.bringUp.posted = others := congrArg List.tail hposted
      simp only [offer, EngineM.exec_bind, EngineM.exec_modify]
      rcases hnext ▸ hinv.exec_process h hstate
        with ⟨-, reason, hrejected, hdropped⟩ | ⟨after, haccepted, hafter⟩
      · rw [hrejected]
        exact ih hothers hdropped hstate
      · rw [haccepted]
        exact .inr ⟨event, after, rfl, hafter⟩

/-- A run that may take enough steps comes to an end, and the invariant holds there of the events
that have been accepted until then. -/
theorem exec_advance (steps : Nat) (hsteps : engine.bringUp.state.distance ≤ steps)
    (h : Inv heard engine) :
    ∃ accepted after, (course turn steps).exec engine = (accepted, after) ∧
      (advance turn steps).exec engine = (after.conclusion, after) ∧
      Inv (heard ++ accepted) after ∧ after.bringUp.state.isTerminal = true := by
  induction steps generalizing heard engine with
  | zero => cases hstate : engine.bringUp.state <;> rw [hstate] at hsteps <;> cases hsteps
  | succ steps ih =>
      cases hstate : engine.bringUp.state.isTerminal with
      | true =>
          obtain ⟨hadvance, hcourse⟩ := exec_advance_terminal turn steps hstate
          exact ⟨[], engine, hcourse, hadvance, by rwa [List.append_nil], hstate⟩
      | false =>
          rw [exec_advance_succ turn steps hstate, exec_course_succ turn steps hstate]
          -- Whichever event is accepted, there are enough steps left for the rest of the run.
          have hrest {event : InitEvent} {next : Engine τ} (hnext : Inv (heard ++ [event]) next)
              (hcloser : next.bringUp.state.distance < engine.bringUp.state.distance) :=
            ih (Nat.le_of_lt_succ (Nat.lt_of_lt_of_le hcloser hsteps)) hnext
          rcases hinv.exec_offer engine.bringUp.posted rfl h hstate
            with ⟨waited, hoffer, hwaited, hsame, hempty⟩ | ⟨event, next, hoffer, hnext, hcloser⟩
          · obtain ⟨next, hprocess, hnext, hcloser⟩ :=
              hinv.exec_timedOut hwaited (hsame ▸ hstate) hempty
            obtain ⟨accepted, after, hcourse, hadvance, hafter, hterminal⟩ :=
              hrest hnext (hsame ▸ hcloser)
            rw [List.append_assoc] at hafter
            refine ⟨_, after, ?_, ?_, hafter, hterminal⟩
            · rw [hoffer]
              dsimp only
              rw [hprocess]
              dsimp only
              rw [hcourse]
              rfl
            · rw [hoffer]
              dsimp only
              rw [hprocess]
              exact hadvance
          · obtain ⟨accepted, after, hcourse, hadvance, hafter, hterminal⟩ := hrest hnext hcloser
            rw [List.append_assoc] at hafter
            refine ⟨_, after, ?_, ?_, hafter, hterminal⟩
            · rw [hoffer]
              dsimp only
              rw [hcourse]
              rfl
            · rw [hoffer]
              exact hadvance

end RunInvariant

/-- The state in which a run begins: what was posted before is discarded, and the table keeps its
arrivals to itself. -/
def cleared (engine : Engine τ) : Engine τ :=
  { engine.onBringUp fun bringUp ↦ { bringUp with posted := [] } with
    table := { engine.table with eventsEnabled := false } }

/-- A run begins with the attempt to start. -/
theorem exec_runBringUp_eq (turn : Turn τ) (engine : Engine τ) :
    (runBringUp turn).exec engine =
      match (process turn .start).exec engine.cleared with
      | (.ok (), after) => (advance turn maxSteps).exec after
      | (.error _, after) => (.error (.state (.unexpectedInitEvent "Start")), after) := by
  show (do
      match ← (process turn .start : EngineM τ _) with
      | .error _ => throw (.state (.unexpectedInitEvent "Start"))
      | .ok () => advance turn maxSteps : EngineOp τ Unit).exec engine.cleared = _
  rw [EngineOp.exec_bind, EngineOp.exec_liftM]
  rcases (process turn .start).exec engine.cleared with ⟨reason | ⟨⟩, after⟩ <;> rfl

/-- A run discards what was posted, starts, and goes on from there. -/
theorem exec_runCourse_eq (turn : Turn τ) (engine : Engine τ) :
    (runCourse turn).exec engine =
      match (process turn .start).exec engine.cleared with
      | (.ok (), after) => (course turn maxSteps).exec after
      | (.error _, after) => ([], after) := by
  show (do
      match ← process turn .start with
      | .error _ => return []
      | .ok () => course turn maxSteps : EngineM τ _).exec engine.cleared = _
  rw [EngineM.exec_bind]
  rcases (process turn .start).exec engine.cleared with ⟨reason | ⟨⟩, after⟩ <;> rfl

/-- A run that cannot start changes nothing but what it does beforehand. -/
theorem exec_process_start_of_not_startable (turn : Turn τ)
    (h : engine.bringUp.state.isStartable = false) :
    (process turn .start).exec engine = (.error .invalidEvent, engine) := by
  unfold process
  rw [EngineM.exec_bind, EngineM.exec_get]
  dsimp only
  rw [transitions_start, h]
  rfl

/-- A run that can start asks for the capability report first. -/
theorem exec_process_start_of_startable (hstate : engine.bringUp.state.isStartable = true)
    (hpolicy : engine.bringUp.policy = {})
    (hlistening : (engine.taken turn startTransition).bringUp.listening = true) :
    (process turn .start).exec engine = (.ok (), engine.taken turn startTransition) := by
  have hcandidates : transitions engine.bringUp.state .start = [startTransition] := by
    rw [transitions_start, hstate]
    rfl
  rcases exec_process_cases hpolicy .start fun transition htransition _ ↦ by
      rw [hcandidates, List.mem_singleton] at htransition
      rwa [htransition] with ⟨hnone, -⟩ | ⟨transition, htransition, -, haccepted⟩
  · exact absurd (hnone startTransition (hcandidates ▸ List.mem_singleton_self _)) nofun
  · rw [hcandidates, List.mem_singleton] at htransition
    rwa [← htransition]

/-- Nothing happens to a run that cannot start, apart from what happens beforehand. -/
theorem exec_runBringUp_of_not_startable (turn : Turn τ)
    (h : engine.bringUp.state.isStartable = false) :
    (runBringUp turn).exec engine =
        (.error (.state (.unexpectedInitEvent "Start")), engine.cleared) ∧
      (runCourse turn).exec engine = ([], engine.cleared) := by
  have hrejected : (process turn .start).exec engine.cleared =
      (.error .invalidEvent, engine.cleared) := exec_process_start_of_not_startable turn h
  rw [exec_runBringUp_eq, exec_runCourse_eq, hrejected]
  exact ⟨rfl, rfl⟩

/-- A call that initializes the device and succeeds is a run that does. -/
theorem exec_runBringUp_of_done {after : Engine τ}
    (h : (perform turn .bringUp).exec engine = (.done, after)) :
    (runBringUp turn).exec engine = (.ok (), after) := by
  have hsettled : (settled (runBringUp turn)).exec engine = (.done, after) := h
  rw [exec_settled] at hsettled
  obtain ⟨houtcome, rfl⟩ := Prod.mk.inj hsettled
  refine Prod.ext ?_ rfl
  cases hresult : ((runBringUp turn).exec engine).1 with
  | ok value => rfl
  | error error =>
      rw [hresult] at houtcome
      cases houtcome

/-- Only a run that can start succeeds. -/
theorem isStartable_of_exec_runBringUp {after : Engine τ}
    (h : (runBringUp turn).exec engine = (.ok (), after)) :
    engine.bringUp.state.isStartable = true := by
  rw [← Bool.not_eq_false]
  intro hstate
  rw [(exec_runBringUp_of_not_startable turn hstate).1] at h
  cases h

/-- A run that starts comes to an end, and an invariant that holds once it has started holds
there. -/
theorem RunInvariant.exec_runBringUp {Inv : List InitEvent → Engine τ → Prop}
    (hinv : RunInvariant turn Inv) (hstate : engine.bringUp.state.isStartable = true)
    (hpolicy : engine.bringUp.policy = {})
    (h : Inv [] (engine.cleared.taken turn startTransition)) :
    ∃ accepted after, (runCourse turn).exec engine = (accepted, after) ∧
      (runBringUp turn).exec engine = (after.conclusion, after) ∧ Inv accepted after ∧
        after.bringUp.state.isTerminal = true := by
  have hstarted : (process turn .start).exec engine.cleared =
      (.ok (), engine.cleared.taken turn startTransition) :=
    exec_process_start_of_startable hstate hpolicy (hinv.listening h)
  rw [exec_runBringUp_eq, exec_runCourse_eq, hstarted]
  have hsteps : InitState.distance .capabilityRequested ≤ maxSteps := by decide
  exact hinv.exec_advance maxSteps hsteps h

section Congruence

variable {other : Turn τ}

/-- What is done for an event depends on what the transitions that are taken do. -/
theorem exec_process_congr (hpolicy : engine.bringUp.policy = {}) (event : InitEvent)
    (hother : ∀ transition ∈ transitions engine.bringUp.state event,
      transition.isFulfilled engine.device = true →
        (performStandard other transition.action).exec engine =
          (performStandard turn transition.action).exec engine) :
    (process other event).exec engine = (process turn event).exec engine := by
  have htake (candidates : List Transition) (hcandidates : ∀ transition ∈ candidates,
      transition.isFulfilled engine.device = true →
        (performStandard other transition.action).exec engine =
          (performStandard turn transition.action).exec engine) :
      (takeTransition other candidates).exec engine =
        (takeTransition turn candidates).exec engine := by
    induction candidates with
    | nil => rfl
    | cons transition others ih =>
        obtain ⟨hsame, hothers⟩ := List.forall_mem_cons.1 hcandidates
        rw [exec_takeTransition_cons hpolicy, exec_takeTransition_cons hpolicy, ih hothers]
        split
        next hfulfilled => rw [hsame hfulfilled]
        next => rfl
  unfold process
  rw [EngineM.exec_bind, EngineM.exec_bind, EngineM.exec_get]
  dsimp only
  split
  · rfl
  · exact htake _ hother

namespace RunInvariant

variable {Inv : List InitEvent → Engine τ → Prop} (hinv : RunInvariant turn Inv)
  (hother : ∀ {accepted engine} transition, Inv accepted engine →
    engine.bringUp.state.isTerminal = false →
    transition ∈ transitions engine.bringUp.state engine.nextEvent →
    transition.isFulfilled engine.device = true →
      (performStandard other transition.action).exec engine.dropPosted =
        (performStandard turn transition.action).exec engine.dropPosted)
  {heard : List InitEvent}

include hinv hother

/-- Posted events are offered alike where two turns do the same. -/
theorem exec_offer_congr (events : List InitEvent) (hposted : engine.bringUp.posted = events)
    (h : Inv heard engine) (hstate : engine.bringUp.state.isTerminal = false) :
    (offer other events).exec engine = (offer turn events).exec engine := by
  induction events generalizing engine with
  | nil => rfl
  | cons event others ih =>
      have hnext : engine.nextEvent = event := by rw [nextEvent, hposted]; rfl
      have hpolicy : engine.dropPosted.bringUp.policy = {} := (hinv.policy h :)
      have hprocess : (process other event).exec engine.dropPosted =
          (process turn event).exec engine.dropPosted :=
        exec_process_congr hpolicy event fun transition htransition hfulfilled ↦
          hother transition h hstate (hnext ▸ htransition) hfulfilled
      simp only [offer, EngineM.exec_bind, EngineM.exec_modify, hprocess]
      rcases hnext ▸ hinv.exec_process h hstate
        with ⟨-, reason, hrejected, hdropped⟩ | ⟨after, haccepted, -⟩
      · rw [hrejected]
        exact ih (congrArg List.tail hposted) hdropped hstate
      · rw [haccepted]

/-- A run goes the same way in another turn if all that it does goes the same way. -/
theorem exec_advance_congr (steps : Nat) (h : Inv heard engine) :
    (advance other steps).exec engine = (advance turn steps).exec engine := by
  induction steps generalizing heard engine with
  | zero => rfl
  | succ steps ih =>
      cases hstate : engine.bringUp.state.isTerminal with
      | true =>
          rw [(exec_advance_terminal other steps hstate).1,
            (exec_advance_terminal turn steps hstate).1]
      | false =>
          rw [exec_advance_succ other steps hstate, exec_advance_succ turn steps hstate,
            hinv.exec_offer_congr hother _ rfl h hstate]
          rcases hinv.exec_offer engine.bringUp.posted rfl h hstate
            with ⟨waited, hoffer, hwaited, hsame, hempty⟩ | ⟨event, next, hoffer, hnext, -⟩
          · have hwaiting : waited.bringUp.state.isTerminal = false := hsame ▸ hstate
            have htimedOut : waited.nextEvent = timedOut := by rw [nextEvent, hempty]; rfl
            have hdropped : waited.dropPosted = waited := dropPosted_of_nil hempty
            have hprocess : (process other timedOut).exec waited =
                (process turn timedOut).exec waited :=
              exec_process_congr (hinv.policy hwaited) timedOut
                fun transition htransition hfulfilled ↦
                  hdropped ▸ hother transition hwaited hwaiting (htimedOut ▸ htransition) hfulfilled
            obtain ⟨next, hnext, hafter, -⟩ := hinv.exec_timedOut hwaited hwaiting hempty
            rw [hoffer]
            dsimp only
            rw [hprocess, hnext]
            exact ih hafter
          · rw [hoffer]
            exact ih hnext

/-- Two turns that do the same at every step of a run make the same run of it. -/
theorem exec_runBringUp_congr (hstate : engine.bringUp.state.isStartable = true)
    (hpolicy : engine.bringUp.policy = {})
    (hstart : (performStandard other .start).exec engine.cleared =
      (performStandard turn .start).exec engine.cleared)
    (h : Inv [] (engine.cleared.taken turn startTransition)) :
    (runBringUp other).exec engine = (runBringUp turn).exec engine := by
  have hsame : engine.cleared.taken other startTransition =
      engine.cleared.taken turn startTransition := by
    rw [Engine.taken, startTransition, hstart]
    rfl
  have hlistening := hinv.listening h
  have hstarted : (process turn .start).exec engine.cleared =
      (.ok (), engine.cleared.taken turn startTransition) :=
    exec_process_start_of_startable hstate hpolicy hlistening
  have hotherStarted : (process other .start).exec engine.cleared =
      (.ok (), engine.cleared.taken other startTransition) :=
    exec_process_start_of_startable hstate hpolicy (hsame ▸ hlistening)
  rw [exec_runBringUp_eq, exec_runBringUp_eq, hstarted, hotherStarted, hsame]
  exact hinv.exec_advance_congr hother maxSteps h

end RunInvariant

end Congruence

end Engine

end I3cHost
