import I3cHost.Proofs.BringUp.Arrivals
import I3cHost.Proofs.BringUp.Requests
import I3cHost.Proofs.BringUp.Staging

/-!
# The order of the requests of initialization

A run of initialization comes to a state only after the requests that lead there have been made in
order, each once (`Stage`). What a run that ends well has done can therefore be read off its stage
(`requests_of_bringUp`).
-/

namespace I3cHost

namespace Engine

variable {τ : Type} {engine : Engine τ} [Transport τ]

/-- What a run has done since some state, by the events that it has accepted and the state of
initialization that it has come to. -/
inductive Stage (turn : Turn τ) (start : Engine τ) :
    List InitEvent → InitState → Engine τ → Prop
  | asked {idle engine : Engine τ} (hidle : Interlude turn start idle)
      (hasks : Issues turn idle (.submitControlIn .getI3cCapability 0 maxControlInLength) engine) :
      Stage turn start [] .capabilityRequested engine
  | piped {accepted : List InitEvent} {capable engine : Engine τ} (report : Bytes)
      (h : Stage turn start accepted .capabilityRequested capable)
      (hpolls : IssuesUnless turn capable.tracker.receiving capable
        (.startBulkIn capable.bulkInSize) engine) :
      Stage turn start (accepted ++ [.capabilityReceived report]) .pipelineStarting engine
  | standby {accepted : List InitEvent} {piped engine : Engine τ}
      (h : Stage turn start accepted .pipelineStarting piped) (hrest : Interlude turn piped engine)
      (hincapable : ∃ capability, engine.device.capability = some capability ∧
        capability.isControllerCapable = false) :
      Stage turn start (accepted ++ [.pipelineStarted]) .standby engine
  | initiated {accepted : List InitEvent} {piped located engine : Engine τ}
      (h : Stage turn start accepted .pipelineStarting piped)
      (hpolls : IssuesUnless turn piped.pipes.interruptStarted piped .startInterruptIn located)
      (hasks : Issues turn located
        (.controlOut .initializeI3cBus (if located.table.hasStatic then 1 else 0) []) engine) :
      Stage turn start (accepted ++ [.pipelineStarted]) .busInitRequested engine
  | listing {accepted : List InitEvent} {initiated engine : Engine τ}
      (h : Stage turn start accepted .busInitRequested initiated)
      (hasks : Issues turn initiated
        (.submitControlIn .getTargetDeviceTable 0 maxControlInLength) engine) :
      Stage turn start (accepted ++ [.busInitStatus .success]) .tableRequested engine
  | configured {accepted : List InitEvent} {listed engine : Engine τ} {table : TargetTable}
      (listing : Bytes) (added : Nat) (data : Bytes)
      (h : Stage turn start accepted .tableRequested listed)
      (hmerge : listed.table.mergeListing listing = (.ok added, table))
      (hasks : IssuesUnless turn table.addresses.isEmpty (listed.withTable table)
        (.controlOut .setTargetDeviceConfig 0 data) engine) :
      Stage turn start (accepted ++ [.tableReceived listing]) .configRequested engine
  | refreshing {accepted : List InitEvent} {configured engine : Engine τ}
      (h : Stage turn start accepted .configRequested configured)
      (hasks : Issues turn configured
        (.submitControlIn .getTargetDeviceTable 0 maxControlInLength) engine) :
      Stage turn start (accepted ++ [.configApplied]) .tableRefreshRequested engine
  | merged {accepted : List InitEvent} {relisted engine : Engine τ} {table : TargetTable}
      (listing : Bytes) (added : Nat)
      (h : Stage turn start accepted .tableRefreshRequested relisted)
      (hmerge : relisted.table.mergeListing listing = (.ok added, table))
      (hrest : Interlude turn (relisted.withTable table) engine) :
      Stage turn start (accepted ++ [.tableReceived listing]) .finalizing engine
  | ready {accepted : List InitEvent} {merged engine : Engine τ}
      (h : Stage turn start accepted .finalizing merged) (hrest : Interlude turn merged engine) :
      Stage turn start (accepted ++ [.tableMerged]) .ready engine

/-- A run has done no more for it when other things have happened and something has been noted. -/
theorem Stage.trans {turn : Turn τ} {start after : Engine τ} {accepted : List InitEvent}
    {state : InitState} (h : Stage turn start accepted state engine) (hstate : state ≠ .standby)
    (hafter : Interlude turn engine after) : Stage turn start accepted state after := by
  cases h with
  | asked hidle hasks => exact .asked hidle (hasks.trans hafter)
  | piped report h hpolls => exact .piped report h (hpolls.trans hafter)
  | standby => exact absurd rfl hstate
  | initiated h hpolls hasks => exact .initiated h hpolls (hasks.trans hafter)
  | listing h hasks => exact .listing h (hasks.trans hafter)
  | configured listing added data h hmerge hasks =>
      exact .configured listing added data h hmerge (hasks.trans hafter)
  | refreshing h hasks => exact .refreshing h (hasks.trans hafter)
  | merged listing added h hmerge hrest => exact .merged listing added h hmerge (hrest.trans hafter)
  | ready h hrest => exact .ready h (hrest.trans hafter)

/-- It is of no account how far initialization has come. -/
theorem Stage.progress {turn : Turn τ} {start : Engine τ} {accepted : List InitEvent}
    {state : InitState} (h : Stage turn start accepted state engine) (change : BringUp → BringUp) :
    Stage turn start accepted state (engine.onBringUp change) := by
  by_cases hstate : state = .standby
  · subst hstate
    cases h with
    | standby h hrest hincapable => exact .standby h (hrest.note (.progress _ _)) hincapable
  · exact h.trans hstate (.note .rest (.progress _ _))

/-- A stage of a run; once the report has been taken over the capability of the device is known. -/
def Informed (turn : Turn τ) (start : Engine τ) (accepted : List InitEvent) (state : InitState)
    (engine : Engine τ) : Prop :=
  Stage turn start accepted state engine ∧
    (state = .pipelineStarting → engine.device.capability.isSome = true)

/-- Polling for answers does not make the capability of the device unknown. -/
theorem known_startBulkIn : EngineOp.Preserves
    (HooksInWith Hook.SparesBringUp (fun engine ↦ engine.device.capability.isSome = true) [])
    (startBulkIn (Turn.application : Turn τ)) :=
  startBulkIn_preserves
    (sparing_application (beside_capability fun capability ↦ capability.isSome = true)
      (fun _ _ _ h ↦ h) (fun _ _ h ↦ h) [])
    (fun _ engine h ↦ ⟨ofLedger_hooksIn engine _ rfl h.1, h.2⟩)
    (fun engine _ h ↦ ⟨ofLedger_hooksIn engine _ rfl h.1, h.2⟩)
    fun engine _ h ↦ ⟨ofLedger_hooksIn engine _ rfl h.1, h.2⟩

/-- Nothing has to be known of the device at any other stage. -/
theorem Stage.informed {turn : Turn τ} {start : Engine τ} {accepted : List InitEvent}
    {state : InitState} (h : Stage turn start accepted state engine)
    (hstate : state ≠ .pipelineStarting) : Informed turn start accepted state engine :=
  ⟨h, fun heq ↦ absurd heq hstate⟩

/-- Each operation that succeeds has made its requests. -/
theorem Informed.succeeds {start after : Engine τ} {accepted : List InitEvent} {state : InitState}
    {event : InitEvent} {transition : Transition} (hengine : Attending engine)
    (hleads : Leads engine.device state event transition)
    (h : Informed Turn.application start accepted state engine)
    (hexec : (transition.action.operation Turn.application).exec engine = (.ok (), after)) :
    Informed Turn.application start (accepted ++ [event]) transition.target after := by
  obtain ⟨hstage, hknown⟩ := h
  cases hleads with
  | takeCapability buffer =>
      obtain ⟨⟨⟩, capable, happly, hpolls⟩ := EngineOp.exec_bind_eq_ok hexec
      obtain ⟨hrest, hcapable⟩ := interlude_of_applyCapability happly
      refine ⟨.piped buffer (hstage.trans (by decide) hrest) (issues_of_startBulkIn hpolls),
        fun _ ↦ ?_⟩
      have happlied := (durable_attending.applyCapability buffer).after hengine happly
      exact (known_startBulkIn.after ⟨happlied.1, hcapable⟩ hpolls).2
  | initializeBus guard =>
      obtain ⟨⟨⟩, located, hpolls, hasks⟩ := EngineOp.exec_bind_eq_ok hexec
      exact Stage.informed (.initiated hstage (issues_of_startInterruptIn hpolls)
        (issues_of_initializeBus hasks)) (by simp)
  | stayInStandby guard hincapable =>
      obtain ⟨capability, hcapability⟩ := Option.isSome_iff_exists.1 (hknown rfl)
      cases hexec
      refine Stage.informed
        (.standby hstage (.note .rest (.role _ _)) ⟨capability, hcapability, ?_⟩) (by simp)
      simpa [holdsStandard, hcapability] using hincapable
  | busInitialized guard =>
      exact Stage.informed (.listing (hstage.trans (by decide) (.note .rest (.role _ _)))
        (issues_of_submitControlIn hexec)) (by simp)
  | takeListing buffer =>
      obtain ⟨⟨⟩, merged, hmerged, hconfigures⟩ := EngineOp.exec_bind_eq_ok hexec
      obtain ⟨added, table, hmerge, rfl⟩ := merged_of_mergeListing hmerged
      obtain ⟨data, hasks⟩ := issues_of_configureTargets hconfigures
      exact Stage.informed (.configured buffer added data hstage hmerge hasks) (by simp)
  | configApplied =>
      exact Stage.informed (.refreshing hstage (issues_of_submitControlIn hexec)) (by decide)
  | refreshListing buffer =>
      obtain ⟨added, table, hmerge, rfl⟩ := merged_of_mergeListing hexec
      exact Stage.informed (.merged buffer added hstage hmerge .rest) (by simp)
  | ready =>
      cases hexec
      exact Stage.informed (.ready hstage (.note .rest (.announce _ true))) (by decide)

/-- Operations may fail for any reason. -/
theorem staging_informed (start : Engine τ) :
    Staging Turn.application (Informed Turn.application start) fun _ _ ↦ True where
  considerate := considerate_application
  progress change h := ⟨h.1.progress change, h.2⟩
  succeeds := Informed.succeeds
  fails _ _ _ _ := trivial
  lasting _ _ := trivial

/-- A run of the application that ends well has come to its last state by its stages. -/
theorem stage_of_bringUp (hhooks : HooksIn Hook.SparesBringUp [] engine)
    (hpolicy : engine.bringUp.policy = {}) (hlistening : engine.bringUp.listening = true)
    {after : Engine τ} (hdone : (Session.call .bringUp).exec engine = (.done, after)) :
    (after.bringUp.state = .ready ∨ after.bringUp.state = .standby) ∧
      Stage Turn.application engine engine.accepted after.bringUp.state after := by
  have hrun := exec_runBringUp_of_done hdone
  have hstate := isStartable_of_exec_runBringUp hrun
  have hsilenced : Interlude (Turn.application : Turn τ) engine engine.cleared :=
    .note (.note .rest (.progress engine _)) (.announce _ false)
  obtain ⟨accepted, last, hcourse, hexec, hlast⟩ :=
    (staging_informed engine).exec_runBringUp hhooks hpolicy hlistening hstate
      (fun after hasks ↦ Stage.informed (.asked (hsilenced.note (.progress _ _))
        (issues_of_submitControlIn hasks)) (by decide)) fun _ _ _ ↦ trivial
  obtain ⟨hconclusion, rfl⟩ := Prod.mk.inj (hexec.symm.trans hrun)
  have haccepted : engine.accepted = accepted := congrArg Prod.fst hcourse
  rcases hlast with ⟨hstage, hended⟩ | hfailed
  · exact ⟨hended, haccepted ▸ hstage.1⟩
  · rw [conclusion, hfailed.state] at hconclusion
    cases hconclusion

/-- In every history of a session with the standard actions, when a call that initializes the device
succeeds and no hook that could run during the call initializes the device, too: the call ends in
standby, where the device is no primary controller and has not been told to initialize the bus; or
it ends in ready. Then it has made these requests by itself, in this order: for the capability
report, to poll for answers unless they were being received, to poll for notifications unless that
had been started, to initialize the bus, with static addresses first exactly if some I3C target in
the table had one, for the listing of targets, to configure the targets unless none in the merged
table had an address, and for the listing again. Both listings have been merged. -/
theorem requests_of_bringUp {transport : τ} {options : SessionOptions} {session : Engine τ}
    (h : Session.ofTransport transport options = .ok session) (hpolicy : options.policy = {})
    {events : List (Event τ)} (hhooks : HooksIn Hook.SparesBringUp [] (session.after events))
    {after : Engine τ}
    (hdone : (Session.call .bringUp).exec (session.after events) = (.done, after)) :
    let engine := session.after events
    (after.bringUp.state = .standby ∧
      (∃ capability, after.device.capability = some capability ∧
        capability.isControllerCapable = false) ∧
      ∃ made, after.trace.toList = engine.trace.toList ++ made ∧
        ∀ value data, .controlOut .initializeI3cBus value data ∉ made) ∨
    (after.bringUp.state = .ready ∧
      ∃ (idle capable piped located initiated listed configured relisted : Engine τ)
        (merged remerged : TargetTable) (report listing relisting data : Bytes)
        (added readded : Nat),
        engine.accepted = [.capabilityReceived report, .pipelineStarted, .busInitStatus .success,
          .tableReceived listing, .configApplied, .tableReceived relisting, .tableMerged] ∧
        Interlude Turn.application engine idle ∧
        Issues Turn.application idle
          (.submitControlIn .getI3cCapability 0 maxControlInLength) capable ∧
        IssuesUnless Turn.application capable.tracker.receiving capable
          (.startBulkIn capable.bulkInSize) piped ∧
        IssuesUnless Turn.application piped.pipes.interruptStarted piped
          .startInterruptIn located ∧
        Issues Turn.application located
          (.controlOut .initializeI3cBus (if located.table.hasStatic then 1 else 0) []) initiated ∧
        Issues Turn.application initiated
          (.submitControlIn .getTargetDeviceTable 0 maxControlInLength) listed ∧
        listed.table.mergeListing listing = (.ok added, merged) ∧
        IssuesUnless Turn.application merged.addresses.isEmpty (listed.withTable merged)
          (.controlOut .setTargetDeviceConfig 0 data) configured ∧
        Issues Turn.application configured
          (.submitControlIn .getTargetDeviceTable 0 maxControlInLength) relisted ∧
        relisted.table.mergeListing relisting = (.ok readded, remerged) ∧
        Interlude Turn.application (relisted.withTable remerged) after ∧
        Initiated engine
          ([.submitControlIn .getI3cCapability 0 maxControlInLength] ++
            (if capable.tracker.receiving then [] else [.startBulkIn capable.bulkInSize]) ++
            (if piped.pipes.interruptStarted then [] else [.startInterruptIn]) ++
            [.controlOut .initializeI3cBus (if located.table.hasStatic then 1 else 0) []])
          after) := by
  intro engine
  have horderly : Orderly engine := orderly_after (orderly_ofTransport h hpolicy) events
  obtain ⟨hended, hstage⟩ :=
    stage_of_bringUp hhooks horderly.policy horderly.listening hdone
  have hpolling {idle capable piped : Engine τ} (hidle : Interlude Turn.application engine idle)
      (hasks : Issues Turn.application idle
        (.submitControlIn .getI3cCapability 0 maxControlInLength) capable)
      (hpolls : IssuesUnless Turn.application capable.tracker.receiving capable
        (.startBulkIn capable.bulkInSize) piped) :
      HooksIn Hook.SparesBringUp [] piped ∧ Initiated engine
        ([.submitControlIn .getI3cCapability 0 maxControlInLength] ++
          (if capable.tracker.receiving then [] else [.startBulkIn capable.bulkInSize])) piped := by
    obtain ⟨hidleHooks, hnothing⟩ := hidle.initiated hhooks
    obtain ⟨hcapableHooks, hasked⟩ := hasks.initiated hidleHooks
    obtain ⟨hpipedHooks, hpolled⟩ := hpolls.initiated hcapableHooks
    exact ⟨hpipedHooks, (hnothing.trans hasked).trans hpolled⟩
  generalize engine.accepted = accepted at hstage ⊢
  rcases hended with hready | hstandby
  · rw [hready] at hstage
    refine .inr ⟨hready, ?_⟩
    cases hstage with
    | ready hfinal hrest =>
    cases hfinal with
    | merged relisting readded hrelisted hremerge hmerged =>
    cases hrelisted with
    | refreshing hconfigured hrefresh =>
    cases hconfigured with
    | configured listing added data hlisted hmerge hconfig =>
    cases hlisted with
    | listing hinitiated hlist =>
    cases hinitiated with
    | initiated hpiped hnotifies hinitiates =>
    cases hpiped with
    | piped report hcapable hpolls =>
    cases hcapable with
    | asked hidle hasks =>
    obtain ⟨hpipedHooks, hpolled⟩ := hpolling hidle hasks hpolls
    obtain ⟨hlocatedHooks, hnotified⟩ := hnotifies.initiated hpipedHooks
    obtain ⟨htoldHooks, htold⟩ := hinitiates.initiated hlocatedHooks
    obtain ⟨hlistedHooks, hlisted⟩ := hlist.initiated htoldHooks
    -- Merging a listing makes no request.
    obtain ⟨hconfiguredHooks, hconfigured⟩ := hconfig.initiated (hlistedHooks.withTable _)
    obtain ⟨hrelistedHooks, hrelisted⟩ := hrefresh.initiated hconfiguredHooks
    have hsettled := hmerged.trans hrest
    obtain ⟨-, hafter⟩ := hsettled.initiated (hrelistedHooks.withTable _)
    refine ⟨_, _, _, _, _, _, _, _, _, _, report, listing, relisting, data, added, readded, rfl,
      hidle, hasks, hpolls, hnotifies, hinitiates, hlist, hmerge, hconfig, hrefresh, hremerge,
      hsettled, ?_⟩
    have hconfigured : Initiated _ [] _ := ite_self (α := List TransportCall) [] ▸ hconfigured
    exact ((hpolled.trans hnotified).trans htold).then_nothing
      (((hlisted.then_nothing hconfigured).then_nothing hrelisted).then_nothing hafter)
  · rw [hstandby] at hstage
    refine .inl ⟨hstandby, ?_⟩
    cases hstage with
    | standby hpiped hrest hincapable =>
    cases hpiped with
    | piped report hcapable hpolls =>
    cases hcapable with
    | asked hidle hasks =>
    obtain ⟨hpipedHooks, hpolled⟩ := hpolling hidle hasks hpolls
    obtain ⟨made, hmade, hinitiates⟩ := hpolled.then_nothing (hrest.initiated hpipedHooks).2
    refine ⟨hincapable, made, hmade, fun value data hmem ↦ ?_⟩
    have hkept : .controlOut .initializeI3cBus value data ∈ made.filter (·.initiates) :=
      List.mem_filter.2 ⟨hmem, rfl⟩
    rw [hinitiates] at hkept
    split at hkept <;> simp at hkept

/-- The first run of this session ends in ready, so it has accepted these events. -/
theorem accepted_lostBus :
    Session.ofTransport lostBus.transport {} = .ok lostBus ∧
      HooksIn Hook.SparesBringUp [] (lostBus.after []) ∧
      (Session.call .bringUp).exec (lostBus.after []) = (.done, lostBus.after [.call .bringUp]) ∧
      ∃ report listing relisting, lostBus.accepted = [.capabilityReceived report, .pipelineStarted,
        .busInitStatus .success, .tableReceived listing, .configApplied, .tableReceived relisting,
        .tableMerged] := by
  have hopened : Session.ofTransport lostBus.transport {} = .ok lostBus := rfl
  have hhooks : HooksIn Hook.SparesBringUp [] (lostBus.after []) := hooksIn_ofTransport hopened _
  have hsucceeds : lostBus.runSucceeds = true := by decide +kernel
  have hready : (lostBus.after [.call .bringUp]).bringUp.state = .ready := by decide +kernel
  -- The rest holds of any session; on this one the checker would run it to compare terms.
  generalize lostBus = session at hopened hhooks hsucceeds hready ⊢
  have hdone := exec_of_runSucceeds hsucceeds
  refine ⟨hopened, hhooks, hdone, ?_⟩
  rcases requests_of_bringUp hopened rfl hhooks hdone with ⟨hstandby, -⟩ | ⟨-, hmade⟩
  · rw [hready] at hstandby
    cases hstandby
  · obtain ⟨-, -, -, -, -, -, -, -, -, -, report, listing, relisting, -, -, -, haccepted, -⟩ :=
      hmade
    exact ⟨report, listing, relisting, haccepted⟩

end Engine

end I3cHost
