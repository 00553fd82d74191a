import I3cHost.Proofs.BringUp.Course
import I3cHost.Proofs.Engine.Hooks

/-!
# What a run decides

With the standard actions and conditions the events that a run of initialization accepts determine
whether the device manages the bus afterwards (`exec_runBringUp`), as long as nothing else that
happens meanwhile changes the standing of the device.
-/

namespace I3cHost

/-- What an event decides about whether the device manages the bus, if it decides anything. -/
def InitEvent.role? : InitEvent → Option Bool
  | .busInitStatus code => some (code == .success)
  | _ => none

namespace Transition

/-- Unless a transition leads to standby, what its action decides is what the event decides. -/
theorem role?_action {state : InitState} {event : InitEvent} {device : DeviceInfo} :
    ∀ transition ∈ transitions state event, transition.isFulfilled device = true →
      transition.target ≠ .standby → transition.action.role? = event.role? := by
  cases state <;> cases event <;>
    simp_all [transitions, isFulfilled, InitAction.role?, InitEvent.role?, Engine.holdsStandard]

/-- A transition to standby gives up the controller role. -/
theorem role?_standby {state : InitState} {event : InitEvent} :
    ∀ transition ∈ transitions state event, transition.target = .standby →
      transition.action.role? = some false := by
  cases state <;> cases event <;> simp_all [transitions, InitAction.role?]

end Transition

/-- The standing after what has been decided, if anything has. -/
def Standing.decided (standing : Standing) (role : Option Bool) : Standing :=
  { standing with active := role.getD standing.active }

/-- What the events decide one after the other about whether the device manages the bus. -/
def InitEvent.rolesDecided (active : Bool) (events : List InitEvent) : Bool :=
  events.foldl (fun active event ↦ event.role?.getD active) active

/-- Without a successful status the device does not manage the bus if it did not before, or if the
bus could not be initialized. -/
theorem InitEvent.rolesDecided_eq_false_iff {active : Bool} {events : List InitEvent}
    (h : .busInitStatus .success ∉ events) : InitEvent.rolesDecided active events = false ↔
      active = false ∨ ∃ code, .busInitStatus code ∈ events := by
  induction events generalizing active with
  | nil => simp [InitEvent.rolesDecided]
  | cons event events ih =>
      show InitEvent.rolesDecided (event.role?.getD active) events = false ↔ _
      rw [ih fun hmem ↦ h (List.mem_cons_of_mem event hmem)]
      cases event with
      | busInitStatus code =>
          have hcode : code ≠ .success := by
            rintro rfl
            exact h List.mem_cons_self
          simp [InitEvent.role?, hcode]
      | _ => simp [InitEvent.role?]

namespace Engine

variable {τ : Type} [Transport τ] {turn : Turn τ} {engine : Engine τ}

/-- A property of the ledger, and the standing of the device. -/
def Poised (P : Engine τ → Prop) (standing : Standing) (engine : Engine τ) : Prop :=
  P engine ∧ engine.standing = standing

section Poised

variable {P : Engine τ → Prop} (hP : OfLedger P)
  (hturn : ∀ standing moment, EngineM.Preserves (Poised P standing) (turn moment))

omit [Transport τ] in
include hP in
/-- The standing of the device and a property of the ledger are in view. -/
theorem ofView_poised {standing : Standing} : OfView (Poised P standing) :=
  fun _ _ hdealings hstanding h ↦
    ⟨hP.ofAccount.ofView _ _ hdealings hstanding h.1, hstanding.trans h.2⟩

include hP hturn

/-- With the standard actions every action decides what it has to, and nothing else. -/
theorem poised_performStandard (action : InitAction) (h : P engine) :
    Poised P (engine.standing.decided action.role?)
      ((performStandard turn action).exec engine).2 := by
  have hdurable (standing : Standing) : Durable (Poised P standing) := (ofView_poised hP).durable
  have hpolling (standing : Standing) : EngineOp.Preserves (Poised P standing) (startBulkIn turn) :=
    (hdurable standing).startBulkIn (hturn standing) fun engine _ h ↦ ⟨hP engine _ rfl h.1, h.2⟩
  cases hrole : action.role? with
  | none =>
      refine (hdurable _).performStandard (hturn _) (ofView_poised hP).post (hpolling _)
        (fun active hactive ↦ ?_) (fun _ engine h ↦ ⟨hP engine _ rfl h.1, h.2⟩) engine ⟨h, rfl⟩
      rw [hrole] at hactive
      cases hactive
  | some active =>
      cases action with
      | stayInStandby =>
          cases hrole
          exact ⟨hP engine _ rfl h, rfl⟩
      | busInitFailed code =>
          cases hrole
          exact ⟨hP engine _ rfl h, rfl⟩
      | busInitialized =>
          cases hrole
          refine postOutcome_preserves (ofView_poised hP).post (submitControlIn_preserves (hturn _)
            ((hdurable _).call rfl _)) none _ ?_
          exact ⟨hP engine _ rfl h, rfl⟩
      | _ => cases hrole

/-- Taking a transition decides what its action decides. -/
theorem poised_taken (transition : Transition) (h : P engine) :
    Poised P { engine.standing.decided transition.action.role? with state := transition.target }
      (engine.taken turn transition) := by
  obtain ⟨hholds, hstanding⟩ := poised_performStandard hP hturn transition.action h
  refine ⟨hP ((performStandard turn transition.action).exec engine).2 _ rfl hholds, ?_⟩
  rw [← hstanding]
  rfl

end Poised

/-- The events that a run has accepted so far have decided whether the device manages the bus,
unless the run is in standby, where the device does not. -/
structure Underway (P : Engine τ → Prop) (active : Bool) (accepted : List InitEvent)
    (engine : Engine τ) : Prop where
  holds : P engine
  policy : engine.bringUp.policy = {}
  listening : engine.bringUp.listening = true
  decided :
    engine.device.state.activeController = InitEvent.rolesDecided active accepted ∨
      engine.bringUp.state = .standby ∧ engine.device.state.activeController = false

section Course

variable {P : Engine τ → Prop} (hP : OfLedger P)
  (hturn : ∀ standing moment, EngineM.Preserves (Poised P standing) (turn moment))

include hP hturn

/-- A run decides about the role of the device only by the events that it accepts. -/
theorem runInvariant_underway (active : Bool) : RunInvariant turn (Underway P active) where
  policy h := h.policy
  listening h := h.listening
  dropped {accepted engine} h _ _ :=
    ⟨hP engine _ rfl h.holds, h.policy, h.listening, h.decided⟩
  taken {accepted engine} transition h hstate htransition hfulfilled := by
    have hdropped : P engine.dropPosted := hP engine _ rfl h.holds
    obtain ⟨hholds, hstanding⟩ :=
      poised_taken hP hturn transition hdropped
    refine ⟨hholds, ?_, ?_, ?_⟩
    · exact (congrArg Standing.policy hstanding).trans h.policy
    · exact (congrArg Standing.listening hstanding).trans h.listening
    · have hactive := congrArg Standing.active hstanding
      by_cases htarget : transition.target = .standby
      · refine .inr ⟨(congrArg Standing.state hstanding).trans htarget, hactive.trans ?_⟩
        rw [Transition.role?_standby transition htransition htarget]
        rfl
      · refine .inl (hactive.trans ?_)
        rw [Transition.role?_action transition htransition hfulfilled htarget]
        -- Until it ends a run is not in standby.
        have hdecided : engine.device.state.activeController =
            InitEvent.rolesDecided active accepted :=
          h.decided.resolve_right fun ⟨hstandby, _⟩ ↦ by rw [hstandby] at hstate; cases hstate
        show engine.nextEvent.role?.getD engine.device.state.activeController = _
        rw [hdecided, InitEvent.rolesDecided, InitEvent.rolesDecided, List.foldl_append]
        rfl

/-- With the standard actions and conditions a run that starts comes to an end. One that does not
start changes nothing that is decided. -/
theorem exec_runBringUp (hpolicy : engine.bringUp.policy = {})
    (hlistening : engine.bringUp.listening = true) (h : P engine) :
    ∃ accepted after, (runCourse turn).exec engine = (accepted, after) ∧
      Underway P engine.device.state.activeController accepted after ∧
      ((runBringUp turn).exec engine = (after.conclusion, after) ∧
          after.bringUp.state.isTerminal = true ∨
        (runBringUp turn).exec engine = (.error (.state (.unexpectedInitEvent "Start")), after) ∧
          accepted = [] ∧ after.standing = engine.standing) := by
  have hcleared : P engine.cleared := hP engine _ rfl h
  cases hstate : engine.bringUp.state.isStartable with
  | false =>
      obtain ⟨hrun, hcourse⟩ := exec_runBringUp_of_not_startable turn hstate
      exact ⟨[], _, hcourse, ⟨hcleared, hpolicy, hlistening, .inl rfl⟩, .inr ⟨hrun, rfl, rfl⟩⟩
  | true =>
      obtain ⟨hholds, hstanding⟩ := poised_taken hP hturn startTransition hcleared
      obtain ⟨accepted, after, hcourse, hrun, hafter, hterminal⟩ :=
        (runInvariant_underway hP hturn _).exec_runBringUp hstate hpolicy ⟨hholds,
          (congrArg Standing.policy hstanding).trans hpolicy,
          (congrArg Standing.listening hstanding).trans hlistening,
          .inl (congrArg Standing.active hstanding)⟩
      exact ⟨accepted, after, hcourse, hafter, .inl ⟨hrun, hterminal⟩⟩

end Course

end Engine

end I3cHost
