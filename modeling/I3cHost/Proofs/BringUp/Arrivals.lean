import I3cHost.Proofs.BringUp.Actions
import I3cHost.Proofs.BringUp.Controller

/-!
# When arrivals are announced

While the events of the table are disabled nothing that is done to the table announces an arrival.
They are enabled by the last action of a successful run, and disabled when a run begins. So they are
enabled exactly while initialization is ready, in every history of a session, whatever its hooks do;
and neither during a run nor at any other time at which initialization is not ready does the
listener hear of a target (`arrivals_only_while_ready`).
-/

namespace I3cHost

namespace TargetTable

variable {table next last : TargetTable}

/-- Announcements are enabled or not as before, and if they are not, nothing has been announced. -/
structure SameEvents (table next : TargetTable) : Prop where
  enabled : next.eventsEnabled = table.eventsEnabled
  silent : table.eventsEnabled = false → next.arrivals = table.arrivals

/-- A table announces what it announces. -/
theorem SameEvents.refl (table : TargetTable) : SameEvents table table :=
  ⟨rfl, fun _ ↦ rfl⟩

/-- Two changes that announce nothing while announcements are off do so together. -/
theorem SameEvents.trans (h : SameEvents table next) (hlast : SameEvents next last) :
    SameEvents table last where
  enabled := hlast.enabled.trans h.enabled
  silent hdisabled := (hlast.silent (h.enabled.trans hdisabled)).trans (h.silent hdisabled)

/-- Changing a device announces nothing. -/
theorem sameEvents_modify (table : TargetTable) (index : Nat)
    (change : TargetDevice → TargetDevice) : SameEvents table (table.modify index change) :=
  ⟨rfl, fun _ ↦ rfl⟩

/-- A device that is added is announced only if announcements are on. -/
theorem sameEvents_insert {device : TargetDevice} (h : table.insert device = .ok next) :
    SameEvents table next := by
  obtain ⟨-, -, -, rfl⟩ := insert_eq_ok_iff.1 h
  unfold announce
  split
  · split
    next henabled => exact ⟨rfl, fun hdisabled ↦ absurd (hdisabled.symm.trans henabled.1) nofun⟩
    next => exact ⟨rfl, fun _ ↦ rfl⟩
  · exact ⟨rfl, fun _ ↦ rfl⟩

/-- No operation announces anything while events are disabled, and only one enables or disables
them. -/
theorem sameEvents_apply {operation : TableOperation}
    (h : ∀ enabled, operation ≠ .enableEvents enabled) (table : TargetTable) :
    SameEvents table (operation.apply table) := by
  have haccepted {result : HostResult TargetTable}
      (hresult : ∀ next, result = .ok next → SameEvents table next) :
      SameEvents table (result.toOption.getD table) := by
    cases result with
    | ok next => exact hresult next rfl
    | error error => exact .refl table
  cases operation with
  | insert device => exact haccepted fun _ ↦ sameEvents_insert
  | remove address =>
      show SameEvents table (((table.remove address).map Prod.snd).getD table)
      cases hremove : table.remove address with
      | none => exact .refl table
      | some removed =>
          simp only [remove, bind, Option.bind_eq_some_iff] at hremove
          obtain ⟨index, -, device, -, hremoved⟩ := hremove
          cases hremoved
          exact ⟨rfl, fun _ ↦ rfl⟩
  | changeAddress old new =>
      refine haccepted fun next hmove ↦ ?_
      obtain ⟨index, -, -, -, -, rfl⟩ := changeAddress_eq_ok hmove
      exact sameEvents_modify _ _ _
  | updateConfig address config maxIbiPayload =>
      refine haccepted fun next hupdate ↦ ?_
      obtain ⟨index, -, rfl⟩ := updateConfig_eq_ok hupdate
      exact sameEvents_modify _ _ _
  | mergeCapability buffer =>
      rcases mergeCapability_cases table buffer with ⟨error, hsame⟩ | ⟨entries, hmerge⟩
      · rw [TableOperation.apply, hsame]
        exact .refl table
      · rw [TableOperation.apply, hmerge]
        refine mergeEntries_preserves (SameEvents table) (fun entry _ before count next hbefore h ↦
          hbefore.trans ?_) 0 (.refl table)
        rcases mergeEntry_eq_ok h with ⟨index, -, -, rfl⟩ | hinsert
        · exact sameEvents_modify _ _ _
        · exact sameEvents_insert hinsert
  | mergeListing buffer =>
      rcases mergeListing_cases table buffer with ⟨error, hsame⟩ | ⟨rows, -, hmerge⟩
      · rw [TableOperation.apply, hsame]
        exact .refl table
      · rw [TableOperation.apply, hmerge]
        refine mergeRows_preserves (SameEvents table) (fun row _ before count next hbefore h ↦
          hbefore.trans ?_) 0 (.refl table)
        rcases mergeRow_eq_ok h with ⟨index, updated, -, -, -, rfl⟩ | ⟨-, -, device, -, hinsert⟩
        · exact sameEvents_modify _ _ _
        · exact sameEvents_insert hinsert
  | applyAddressChanges buffer =>
      rcases applyAddressChanges_cases table buffer with hsame | ⟨outcomes, hmoves⟩
      · rw [TableOperation.apply, hsame]
        exact .refl table
      · rw [TableOperation.apply, hmoves]
        refine relocateAll_preserves (SameEvents table) (fun before old new next hbefore h ↦
          hbefore.trans ?_) outcomes 0 (.refl table)
        obtain ⟨index, -, -, -, -, rfl⟩ := changeAddress_eq_ok h
        exact sameEvents_modify _ _ _
  | listen listener => exact ⟨rfl, fun _ ↦ rfl⟩
  | enableEvents enabled => exact absurd rfl (h enabled)

end TargetTable

namespace Engine

variable {τ : Type} {engine : Engine τ} {Heard : Bool → InitState → List Arrival → Prop}

/-- What listeners of the table have heard, oldest first. -/
def arrivals (engine : Engine τ) : List Arrival :=
  engine.journal.toList.filterMap Notice.arrival?

/-- A relation between whether arrivals are announced, how far initialization has come and what
listeners have heard, in a session with the standard actions. -/
structure Hears (Heard : Bool → InitState → List Arrival → Prop) (engine : Engine τ) : Prop where
  heard : Heard engine.table.eventsEnabled engine.bringUp.state engine.arrivals
  /-- All that was announced has been heard. -/
  flushed : engine.table.arrivals = #[]
  policy : engine.bringUp.policy = {}
  listening : engine.bringUp.listening = true

/-- A relation may be weakened. -/
theorem Hears.imp {Other : Bool → InitState → List Arrival → Prop} (h : Hears Heard engine)
    (himp : ∀ enabled state arrivals, Heard enabled state arrivals → Other enabled state arrivals) :
    Hears Other engine :=
  ⟨himp _ _ _ h.heard, h.flushed, h.policy, h.listening⟩

/-- Only an arrival that is reported is heard. -/
theorem arrivals_report {notice : Notice} (h : notice.arrival? = none) (engine : Engine τ) :
    (report notice engine).arrivals = engine.arrivals := by
  simp only [arrivals, report, Array.toList_push, List.filterMap_append, List.filterMap_cons, h,
    List.filterMap_nil, List.append_nil]

section Stable

variable (hmore : ∀ state arrivals new, Heard true state arrivals →
  Heard true state (arrivals ++ new))

include hmore

/-- Listeners hear more only while arrivals are announced. -/
theorem Hears.withTable (h : Hears Heard engine) {table : TargetTable}
    (hsame : engine.table.SameEvents table) : Hears Heard (engine.withTable table) := by
  refine ⟨?_, rfl, h.policy, h.listening⟩
  have hheard := h.heard
  show Heard table.eventsEnabled engine.bringUp.state
    ((engine.journal ++ table.arrivals.map Notice.arrival).toList.filterMap Notice.arrival?)
  rw [hsame.enabled, Array.toList_append, List.filterMap_append]
  cases henabled : engine.table.eventsEnabled with
  | true => exact hmore _ _ _ (henabled ▸ hheard)
  | false =>
      rw [hsame.silent henabled, h.flushed]
      simpa [arrivals, henabled] using hheard

omit hmore in
/-- Posting an event is heard by nobody. -/
theorem Hears.post (event : InitEvent) (engine : Engine τ) (h : Hears Heard engine) :
    Hears Heard (Engine.post event engine).2 := by
  unfold Engine.post
  split
  · exact ⟨h.heard, h.flushed, h.policy, h.listening⟩
  · exact h

/-- What happens beside initialization lets listeners hear only what is announced. -/
theorem stable_hears : Stable (Hears Heard : Engine τ → Prop) := by
  intro before after hchange h
  cases hchange with
  | post event => exact h.post event before
  | table operation hupdate =>
      refine h.withTable hmore (TargetTable.sameEvents_apply ?_ _)
      rintro enabled rfl
      cases hupdate
  | report notice hanswer harrival =>
      exact ⟨(arrivals_report harrival before).symm ▸ h.heard, h.flushed, h.policy, h.listening⟩
  | _ => exact ⟨h.heard, h.flushed, h.policy, h.listening⟩

/-- What initialization does lets listeners hear only what is announced. -/
theorem durable_hears : Durable (Hears Heard : Engine τ → Prop) where
  stable := stable_hears hmore
  step before after hstep h := by
    cases hstep with
    | mergeCapability buffer =>
        have hsame : before.table.SameEvents
            ((TableOperation.mergeCapability buffer).apply before.table) :=
          TargetTable.sameEvents_apply (by nofun) _
        exact h.withTable hmore hsame
    | _ => exact ⟨h.heard, h.flushed, h.policy, h.listening⟩

/-- What becomes of answers is no matter for listeners. -/
theorem beside_hears : Beside (Hears Heard : Engine τ → Prop) where
  stable := stable_hears hmore
  tracker _ _ _ h := ⟨h.heard, h.flushed, h.policy, h.listening⟩
  vendorHook _ _ h := ⟨h.heard, h.flushed, h.policy, h.listening⟩
  heard engine label response h :=
    have harrivals : (report (.response label response) engine).arrivals = engine.arrivals :=
      arrivals_report rfl engine
    ⟨harrivals.symm ▸ h.heard, h.flushed, h.policy, h.listening⟩

end Stable

variable [Transport τ] {turn : Turn τ}

omit [Transport τ] in
/-- What listeners hear has nothing to do with the queue. -/
theorem sparesOrders_hears : SparesOrders (Hears Heard : Engine τ → Prop) :=
  fun _ _ _ h ↦ ⟨h.heard, h.flushed, h.policy, h.listening⟩

/-- Arrivals are not announced, and nothing more has been heard. -/
def Silently (told : List Arrival) (enabled : Bool) (_ : InitState) (heard : List Arrival) :
    Prop :=
  enabled = false ∧ heard = told

/-- Arrivals are not announced, and nothing more has been heard, in one state of initialization. -/
def SilentlyIn (state : InitState) (told : List Arrival) (enabled : Bool) (current : InitState)
    (heard : List Arrival) : Prop :=
  enabled = false ∧ current = state ∧ heard = told

section Runs

variable (hmore : ∀ state arrivals new, Heard true state arrivals →
  Heard true state (arrivals ++ new))

include hmore

/-- No action but the last announces anything or enables announcements. -/
theorem Hears.performStandard (hturn : ∀ moment, EngineM.Preserves (Hears Heard) (turn moment))
    {action : InitAction} (haction : action ≠ .ready) (h : Hears Heard engine) :
    Hears Heard ((Engine.performStandard turn action).exec engine).2 := by
  have hdurable : Durable (Hears Heard : Engine τ → Prop) := durable_hears hmore
  have hpolling : EngineOp.Preserves (Hears Heard) (startBulkIn turn) :=
    hdurable.startBulkIn hturn fun _ _ h ↦ ⟨h.heard, h.flushed, h.policy, h.listening⟩
  exact hdurable.performStandard hturn Hears.post hpolling
    (fun _ _ _ _ h ↦ ⟨h.heard, h.flushed, h.policy, h.listening⟩)
    (fun hready ↦ absurd hready haction) engine h

variable (hdisabled : ∀ enabled state arrivals, state.isStartable = false →
  Heard enabled state arrivals → Heard false state arrivals)

include hdisabled

omit hmore in
/-- A run that cannot start announces nothing. -/
theorem Hears.exec_runBringUp_of_not_startable (h : Hears Heard engine)
    (hstate : engine.bringUp.state.isStartable = false) :
    Hears Heard ((runBringUp turn).exec engine).2 := by
  rw [(Engine.exec_runBringUp_of_not_startable turn hstate).1]
  exact ⟨hdisabled _ _ _ hstate h.heard, h.flushed, h.policy, h.listening⟩

/-- While a run is on its way nothing can start another. -/
theorem hears_application
    (hpinned : ∀ enabled state arrivals, Heard enabled state arrivals → state.isStartable = false)
    (moment : Moment) : EngineM.Preserves (Hears Heard) ((Turn.application : Turn τ) moment) :=
  Sustained.application (P := fun _ ↦ Hears Heard) (fun _ hturn ↦ sustained_beside
    (beside_hears hmore) sparesOrders_hears
    (fun _ _ h ↦ ⟨h.heard, h.flushed, h.policy, h.listening⟩) (hturn [])
    fun _ h ↦ h.exec_runBringUp_of_not_startable hdisabled (hpinned _ _ _ h.heard)) [] moment

end Runs

/-- A start by a busy thread posts nothing but a failure: what it has asked for comes later. -/
theorem posted_start_busy (engine : Engine τ) :
    ∀ event ∈ ((performStandard Turn.busy .start).exec engine).2.bringUp.posted,
      event ∈ engine.bringUp.posted ∨ ∃ error, event = .fail error := by
  show ∀ event ∈ ((postOutcome (submitControlIn Turn.busy .getI3cCapability .capabilityReport)
    none).exec ((setFailure none).exec engine).2).2.bringUp.posted, _
  rw [exec_postOutcome, EngineOp.exec_submitControlIn, call]
  rcases (Transport.submitControlIn .getI3cCapability 0 maxControlInLength .capabilityReport).run
    ((setFailure none).exec engine).2.transport with ⟨error | ⟨⟩, transport⟩
  · intro event hevent
    dsimp only [post] at hevent
    split at hevent
    · rcases List.mem_append.1 hevent with hposted | hfail
      · exact .inl hposted
      · exact .inr ⟨_, List.mem_singleton.1 hfail⟩
    · exact .inl hevent
  · exact fun event hevent ↦ .inl hevent

/-- Where arrivals are announced nothing is claimed about what is heard. -/
theorem silentlyIn_true {told : List Arrival} {state : InitState} (current : InitState)
    (arrivals new : List Arrival) (h : SilentlyIn state told true current arrivals) :
    SilentlyIn state told true current (arrivals ++ new) :=
  nomatch h.1

/-- A run by a busy thread that starts waits in vain for what it has asked for, and announces
nothing. -/
theorem hears_runBringUp_busy {told : List Arrival} (h : Hears (Silently told) engine.cleared)
    (hstate : engine.bringUp.state.isStartable = true) :
    Hears (SilentlyIn .failed told) ((runBringUp Turn.busy).exec engine).2 := by
  have hinv : RunInvariant Turn.busy fun _ (next : Engine τ) ↦
      Hears (SilentlyIn .capabilityRequested told) next ∧
          (∀ event ∈ next.bringUp.posted, ∃ error, event = .fail error) ∨
        Hears (SilentlyIn .failed told) next := by
    refine ⟨?policy, ?listening, ?dropped, ?taken⟩
    case policy => exact fun h ↦ h.elim (·.1.policy) (·.policy)
    case listening => exact fun h ↦ h.elim (·.1.listening) (·.listening)
    case dropped =>
      rintro - engine (⟨h, hposted⟩ | h) - -
      · exact .inl ⟨⟨h.heard, h.flushed, h.policy, h.listening⟩,
          fun event hevent ↦ hposted event (List.mem_of_mem_tail hevent)⟩
      · exact .inr ⟨h.heard, h.flushed, h.policy, h.listening⟩
    case taken =>
      rintro - engine transition (⟨h, hposted⟩ | h) hnonterminal htransition -
      · -- What comes next is a failure, be it that nothing was posted.
        obtain ⟨error, hnext⟩ : ∃ error, engine.nextEvent = .fail error := by
          unfold nextEvent
          cases hevents : engine.bringUp.posted with
          | nil => exact ⟨_, rfl⟩
          | cons event others => exact hposted event (hevents ▸ List.mem_cons_self)
        rw [hnext, h.heard.2.1] at htransition
        obtain rfl := List.mem_singleton.1 htransition
        exact .inr ⟨⟨h.heard.1, rfl, h.heard.2.2⟩, h.flushed, h.policy, h.listening⟩
      · rw [h.heard.2.1] at hnonterminal
        cases hnonterminal
  have hstart : Hears (Silently told) ((performStandard Turn.busy .start).exec engine.cleared).2 :=
    h.performStandard (fun _ _ _ h ↦ nomatch h.1) (fun _ ↦ .pure _) nofun
  obtain ⟨-, after, -, hrun, hafter, hterminal⟩ := hinv.exec_runBringUp hstate h.policy
    (.inl ⟨⟨⟨hstart.heard.1, rfl, hstart.heard.2⟩, hstart.flushed, hstart.policy,
      hstart.listening⟩, fun event hevent ↦
        (posted_start_busy engine.cleared event hevent).resolve_left List.not_mem_nil⟩)
  rw [hrun]
  refine hafter.resolve_left fun ⟨hrequested, _⟩ ↦ ?_
  rw [hrequested.heard.2.1] at hterminal
  cases hterminal

omit [Transport τ] in
/-- A run that is about to start has turned announcements off, and is heard by nobody. -/
theorem Hears.cleared {told : List Arrival} (h : Hears (Silently told) engine) :
    Hears (Silently told) engine.cleared :=
  ⟨⟨rfl, h.heard.2⟩, h.flushed, h.policy, h.listening⟩

/-- Where arrivals are announced nothing is claimed about what is heard, in any state. -/
theorem silently_true {told : List Arrival} (state : InitState) (arrivals new : List Arrival)
    (h : Silently told true state arrivals) : Silently told true state (arrivals ++ new) :=
  nomatch h.1

/-- While nothing is announced the event thread does not announce anything either if it runs
initialization itself. -/
theorem silently_runBringUp_busy (told : List Arrival) :
    EngineOp.Preserves (Hears (Silently told)) (runBringUp (Turn.busy : Turn τ)) := by
  intro engine h
  cases hstate : engine.bringUp.state.isStartable with
  | false =>
      exact h.exec_runBringUp_of_not_startable (fun _ _ _ _ hheard ↦ ⟨rfl, hheard.2⟩) hstate
  | true =>
      exact (hears_runBringUp_busy h.cleared hstate).imp fun _ _ _ hheard ↦ ⟨hheard.1, hheard.2.2⟩

/-- While the application waits with announcements off nothing is heard. -/
theorem waiting_silently (told : List Arrival) (moment : Moment) :
    EngineM.Preserves (Hears (Silently told)) ((Turn.waiting : Turn τ) moment) := by
  have hbusy : Sustained (Turn.busy : Turn τ) fun _ ↦ Hears (Silently told) :=
    sustained_beside (beside_hears silently_true) sparesOrders_hears
      (fun _ _ h ↦ ⟨h.heard, h.flushed, h.policy, h.listening⟩) (fun _ ↦ .pure _)
      (silently_runBringUp_busy told)
  exact hbusy.waiting [] moment

/-- Nothing that happens outside initialization announces anything while arrivals are not
announced. -/
theorem silently_happen (told : List Arrival) {event : Event τ} (hevent : event ≠ .call .bringUp) :
    EngineM.Preserves (Hears (Silently told)) (happen event) :=
  beside_happen (beside_hears silently_true) sparesOrders_hears
    (fun _ _ h ↦ ⟨h.heard, h.flushed, h.policy, h.listening⟩) (silently_runBringUp_busy told) hevent

/-- Arrivals are announced exactly while initialization is ready. -/
def Orderly (engine : Engine τ) : Prop :=
  Hears (fun enabled state _ ↦ enabled = true ↔ state = .ready) engine

namespace Orderly

omit [Transport τ] in
/-- Before initialization is ready nothing is announced. -/
theorem silently (h : Orderly engine) (hstate : engine.bringUp.state ≠ .ready) :
    Hears (Silently engine.arrivals) engine := by
  refine ⟨⟨?_, rfl⟩, h.flushed, h.policy, h.listening⟩
  rw [← Bool.not_eq_true]
  exact fun henabled ↦ hstate (h.heard.1 henabled)

omit [Transport τ] in
/-- A run begins silently. -/
theorem cleared (h : Orderly engine) : Hears (Silently engine.arrivals) engine.cleared :=
  ⟨⟨rfl, rfl⟩, h.flushed, h.policy, h.listening⟩

end Orderly

/-- If the event thread runs initialization itself the run fails, if it starts at all. -/
theorem orderly_runBringUp_busy : EngineOp.Preserves Orderly (runBringUp (Turn.busy : Turn τ)) := by
  intro engine h
  cases hstate : engine.bringUp.state.isStartable with
  | false =>
      refine Hears.exec_runBringUp_of_not_startable (fun _ state _ hstate _ ↦ ?_) h hstate
      refine iff_of_false Bool.false_ne_true ?_
      rintro rfl
      cases hstate
  | true =>
      refine (hears_runBringUp_busy (Orderly.cleared h) hstate).imp fun enabled _ _ hheard ↦ ?_
      exact iff_of_false (Bool.eq_false_iff.1 hheard.1) (hheard.2.1 ▸ nofun)

/-- Whatever happens outside initialization. -/
theorem orderly_happen {event : Event τ} (hevent : event ≠ .call .bringUp) :
    EngineM.Preserves Orderly (happen event) :=
  beside_happen (beside_hears fun _ _ _ ↦ id) sparesOrders_hears
    (fun _ _ h ↦ ⟨h.heard, h.flushed, h.policy, h.listening⟩) orderly_runBringUp_busy hevent

/-- A run of the application that has started: arrivals are announced exactly if it has come to a
good end, and nothing more has been heard. -/
def Running (told : List Arrival) (enabled : Bool) (state : InitState) (heard : List Arrival) :
    Prop :=
  (enabled = true ↔ state = .ready) ∧ heard = told ∧ state ≠ .idle

/-- What the last action of a run is, and that no run begins anew. -/
theorem transitions_ready {state : InitState} {event : InitEvent}
    (hstate : state.isTerminal = false) : ∀ transition ∈ transitions state event,
      (transition.action = .ready ↔ transition.target = .ready) ∧ transition.target ≠ .idle := by
  cases state <;> cases event <;> simp_all [transitions, InitState.isTerminal]

section Application

variable {told : List Arrival}

omit [Transport τ] in
/-- Nothing is announced during a run of the application until its last action. -/
theorem Hears.silentlyIn (h : Hears (Running told) engine)
    (hstate : engine.bringUp.state.isTerminal = false) :
    engine.bringUp.state.isStartable = false ∧
      Hears (SilentlyIn engine.bringUp.state told) engine := by
  obtain ⟨hready, htold, hidle⟩ := h.heard
  refine ⟨InitState.isStartable_eq_false hstate hidle, ⟨?_, rfl, htold⟩, h.flushed, h.policy,
    h.listening⟩
  rw [← Bool.not_eq_true, hready]
  intro hcurrent
  rw [hcurrent] at hstate
  cases hstate

/-- While a run is on its way and announcements are off, nothing is heard and no other run
starts. -/
theorem application_silentlyIn {state : InitState} (hstate : state.isStartable = false)
    (moment : Moment) : EngineM.Preserves (Hears (SilentlyIn state told))
      ((Turn.application : Turn τ) moment) :=
  hears_application silentlyIn_true (fun _ _ _ _ h ↦ ⟨rfl, h.2⟩)
    (fun _ _ _ h ↦ h.2.1 ▸ hstate) moment

/-- A run announces nothing until it has come to a good end, and turns announcements on then. -/
theorem runInvariant_running :
    RunInvariant Turn.application fun _ ↦ Hears (τ := τ) (Running told) where
  policy h := h.policy
  listening h := h.listening
  dropped h _ _ := ⟨h.heard, h.flushed, h.policy, h.listening⟩
  taken {accepted engine} transition h hstate htransition hfulfilled := by
    obtain ⟨hpinned, hsilent⟩ := h.silentlyIn hstate
    obtain ⟨hlast, hidle⟩ := transitions_ready hstate transition htransition
    by_cases haction : transition.action = .ready
    · rw [taken, haction]
      exact ⟨⟨iff_of_true rfl (hlast.1 haction), hsilent.heard.2.2, hidle⟩, h.flushed, h.policy,
        h.listening⟩
    · have hdropped : Hears (SilentlyIn engine.bringUp.state told) engine.dropPosted :=
        ⟨hsilent.heard, h.flushed, h.policy, h.listening⟩
      have hafter := hdropped.performStandard silentlyIn_true (application_silentlyIn hpinned)
        haction
      have hdisabled := Bool.eq_false_iff.1 hafter.heard.1
      exact ⟨⟨iff_of_false hdisabled fun htarget ↦ haction (hlast.2 htarget), hafter.heard.2.2,
        hidle⟩, hafter.flushed, hafter.policy, hafter.listening⟩

/-- A start by the application waits for the event thread only. -/
theorem Hears.performStandard_start (h : Hears (Silently told) engine) :
    Hears (Silently told) ((Engine.performStandard Turn.application .start).exec engine).2 := by
  show Hears (Silently told) ((Engine.performStandard Turn.waiting .start).exec engine).2
  exact h.performStandard silently_true (waiting_silently told) nofun

/-- A run that has started is heard by nobody until it comes to a good end. -/
theorem Orderly.running_started (h : Orderly engine) :
    Hears (Running engine.arrivals) (engine.cleared.taken Turn.application startTransition) := by
  have hstart := h.cleared.performStandard_start
  have hdisabled := Bool.eq_false_iff.1 hstart.heard.1
  exact ⟨⟨iff_of_false hdisabled nofun, hstart.heard.2, nofun⟩, hstart.flushed, hstart.policy,
    hstart.listening⟩

/-- A run of the application announces nothing, and at its end arrivals are announced exactly if
initialization is ready. -/
theorem Orderly.exec_runBringUp (h : Orderly engine) :
    Orderly ((runBringUp Turn.application).exec engine).2 ∧
      ((runBringUp Turn.application).exec engine).2.arrivals = engine.arrivals := by
  cases hstate : engine.bringUp.state.isStartable with
  | false =>
      rw [(exec_runBringUp_of_not_startable Turn.application hstate).1]
      refine ⟨⟨iff_of_false Bool.false_ne_true fun hready ↦ ?_, h.flushed, h.policy, h.listening⟩,
        rfl⟩
      have hterminal : InitState.isStartable .ready = false := hready ▸ hstate
      cases hterminal
  | true =>
      obtain ⟨-, after, -, hrun, hafter, -⟩ :=
        runInvariant_running.exec_runBringUp hstate h.policy h.running_started
      rw [hrun]
      exact ⟨hafter.imp fun _ _ _ ↦ And.left, hafter.heard.2.1⟩

/-- It does not matter to a run what the application would let happen while arrivals are
announced. -/
theorem Orderly.exec_runBringUp_congr (h : Orderly engine) {other : Turn τ}
    (hother : ∀ moment (engine : Engine τ), engine.table.eventsEnabled = false →
      (other moment).exec engine = (Turn.application moment).exec engine) :
    (runBringUp other).exec engine = (runBringUp Turn.application).exec engine := by
  cases hstate : engine.bringUp.state.isStartable with
  | false =>
      rw [(exec_runBringUp_of_not_startable other hstate).1,
        (exec_runBringUp_of_not_startable Turn.application hstate).1]
  | true =>
      refine runInvariant_running.exec_runBringUp_congr (fun transition hrunning hstate _ _ ↦ ?_)
        hstate h.policy ?_ h.running_started
      · obtain ⟨hpinned, hsilent⟩ := hrunning.silentlyIn hstate
        refine exec_performStandard_congr (durable_hears silentlyIn_true)
          (application_silentlyIn hpinned)
          (fun moment engine h ↦ hother moment engine h.heard.1)
          (fun _ _ h ↦ ⟨h.heard, h.flushed, h.policy, h.listening⟩)
          (fun _ _ h ↦ ⟨h.heard, h.flushed, h.policy, h.listening⟩)
          ⟨hsilent.heard, hsilent.flushed, hsilent.policy, hsilent.listening⟩
      · -- A start waits for the event thread only.
        show (performStandard (fun _ ↦ other .initRequest) .start).exec engine.cleared =
          (performStandard (fun _ ↦ Turn.waiting .initRequest) .start).exec engine.cleared
        exact exec_performStandard_congr (durable_hears silently_true)
          (fun _ ↦ waiting_silently engine.arrivals .initRequest)
          (fun _ engine h ↦ hother .initRequest engine h.heard.1)
          (fun _ _ h ↦ ⟨h.heard, h.flushed, h.policy, h.listening⟩)
          (fun _ _ h ↦ ⟨h.heard, h.flushed, h.policy, h.listening⟩) h.cleared

end Application

omit [Transport τ] in
/-- Nothing has been announced in a session that was just opened. -/
theorem silent_ofTransport {transport : τ} {options : SessionOptions} {session : Engine τ}
    (h : Session.ofTransport transport options = .ok session) :
    session.table.eventsEnabled = false ∧ session.table.arrivals = #[] := by
  refine table_ofTransport h (P := fun table ↦ table.eventsEnabled = false ∧ table.arrivals = #[])
    ⟨rfl, rfl⟩ fun table device next htable hinsert ↦ ?_
  have hsame := TargetTable.sameEvents_insert hinsert
  exact ⟨hsame.enabled.trans htable.1, (hsame.silent htable.1).trans htable.2⟩

omit [Transport τ] in
/-- A session that was opened announces nothing before it is initialized. -/
theorem orderly_ofTransport {transport : τ} {options : SessionOptions} {session : Engine τ}
    (h : Session.ofTransport transport options = .ok session) (hpolicy : options.policy = {}) :
    Orderly session := by
  obtain ⟨hdisabled, hflushed⟩ := silent_ofTransport h
  obtain ⟨table, rfl⟩ := exists_of_ofTransport h
  exact ⟨iff_of_false (Bool.eq_false_iff.1 hdisabled) nofun, hflushed, hpolicy, rfl⟩

/-- Whatever happens, arrivals are announced exactly while initialization is ready. -/
theorem orderly_after (h : Orderly engine) (events : List (Event τ)) :
    Orderly (engine.after events) := by
  refine after_induction (P := fun _ ↦ Orderly) h fun before event later _ hbefore ↦ ?_
  by_cases hevent : event = .call .bringUp
  · rw [hevent, exec_happen_bringUp]
    exact hbefore.exec_runBringUp.1
  · exact orderly_happen hevent _ hbefore

/-- In every history of a session with the standard actions, whatever its hooks do, arrivals are
announced exactly while initialization is ready. They are not announced in any state in which a run
lets something happen, so it does not matter what the thread would let happen if they were. A run
announces nothing, and neither does anything that happens while initialization is not ready. -/
theorem arrivals_only_while_ready {transport : τ} {options : SessionOptions} {session : Engine τ}
    (h : Session.ofTransport transport options = .ok session) (hpolicy : options.policy = {})
    (events : List (Event τ)) :
    let engine := session.after events
    (engine.table.eventsEnabled = true ↔ engine.bringUp.state = .ready) ∧
    (∀ other : Turn τ,
      (∀ moment (engine : Engine τ), engine.table.eventsEnabled = false →
        (other moment).exec engine = (Turn.application moment).exec engine) →
      (perform other .bringUp).exec engine = (Session.call .bringUp).exec engine) ∧
    ((happen (.call .bringUp)).exec engine).2.arrivals = engine.arrivals ∧
    (engine.bringUp.state ≠ .ready → ∀ event : Event τ,
      ((happen event).exec engine).2.arrivals = engine.arrivals) := by
  intro engine
  have horderly : Orderly engine := orderly_after (orderly_ofTransport h hpolicy) events
  have hrun : ((happen (.call .bringUp)).exec engine).2.arrivals = engine.arrivals := by
    rw [exec_happen_bringUp]
    exact horderly.exec_runBringUp.2
  refine ⟨horderly.heard, fun other hother ↦ ?_, hrun, fun hstate event ↦ ?_⟩
  · show (settled (runBringUp other)).exec engine =
      (settled (runBringUp Turn.application)).exec engine
    rw [exec_settled, exec_settled, horderly.exec_runBringUp_congr hother]
  · by_cases hevent : event = .call .bringUp
    · rw [hevent, hrun]
    · exact (silently_happen engine.arrivals hevent engine (horderly.silently hstate)).heard.2

/-- A session whose application is told of targets that join the bus; its device managed the bus
until initializing the bus failed the second time. -/
def lostListener : List (Event ScriptedTransport) :=
  [.call (.onHotJoin (some "joined")), .call .bringUp, .call .bringUp]

/-- After the second run nothing is announced any more. -/
theorem silent_lostListener :
    Session.ofTransport lostBus.transport {} = .ok lostBus ∧
      (lostBus.after (lostListener.take 2)).table.eventsEnabled = true ∧
      (lostBus.after lostListener).table.eventsEnabled = false ∧
      ∀ event, ((happen event).exec (lostBus.after lostListener)).2.arrivals =
        (lostBus.after lostListener).arrivals := by
  have hopened : Session.ofTransport lostBus.transport {} = .ok lostBus := rfl
  have hready : (lostBus.after (lostListener.take 2)).bringUp.state = .ready := by decide +kernel
  have hfailed : (lostBus.after lostListener).bringUp.state ≠ .ready := by decide +kernel
  -- The rest holds of any session; on this one the checker would run it to compare terms.
  generalize lostBus = session at hopened hready hfailed ⊢
  obtain ⟨henabled, -⟩ := arrivals_only_while_ready hopened rfl (lostListener.take 2)
  obtain ⟨hdisabled, -, -, hsilent⟩ := arrivals_only_while_ready hopened rfl lostListener
  refine ⟨hopened, henabled.2 hready, ?_, hsilent hfailed⟩
  exact Bool.eq_false_iff.2 fun henabled ↦ hfailed (hdisabled.1 henabled)

end Engine

end I3cHost
