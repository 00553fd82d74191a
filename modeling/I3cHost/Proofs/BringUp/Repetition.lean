import I3cHost.Proofs.BringUp.Survey
import I3cHost.Proofs.Target.Repetition

/-!
# Initializing a device again

If nothing else changes the table, what initialization learns is a matter of the device's answers
alone. So when a device that has been initialized gives the same answers again, all that it reports
is accepted once more, and the only thing that can go wrong is that by now some target has neither a
static address nor a known identifier (`Refused.of_replies`). What is learned from reports that the
table agrees with is what was known before (`Surveyed.relearned`).
-/

namespace I3cHost

namespace TargetTable

variable {table next : TargetTable} {buffer : Bytes} {added : Nat}

/-- Whether a table agrees with all that an event of initialization reports of targets. -/
def agreesWith (table : TargetTable) : InitEvent → Bool
  | .capabilityReceived buffer => (CapabilityReport.decode buffer).toOption.all fun report ↦
      report.targets.all table.agreesWithEntry
  | .tableReceived buffer => (TargetListing.decode buffer).toOption.all fun listing ↦
      listing.rows.all table.agreesWithRow
  | _ => true

/-- Entries do not change whether all targets can be given an address: a target that an entry finds
can be, before and after, and so can one that is inserted. -/
theorem isIdentifiable_mergeEntry {entry : CapabilityEntry} {count : Nat}
    (h : table.mergeEntry entry = .ok (count, next)) :
    next.isIdentifiable = table.isIdentifiable := by
  have hknown {device : TargetDevice}
      (h : device.capability.staticAddress ≠ 0 ∨ device.validPid = true) :
      device.isIdentifiable = true := by
    rcases h with hstatic | hvalid
    · simp [TargetDevice.isIdentifiable, bne_iff_ne.2 hstatic]
    · simp [TargetDevice.isIdentifiable, hvalid]
  rcases mergeEntry_cases h with ⟨place, hplace, rfl⟩ | hinsert
  · obtain ⟨hindex, hfound⟩ := positionOfEntry_eq_some hplace
    have hbefore : table.devices[place].isIdentifiable = true :=
      hknown (hfound.imp_left fun ⟨hstatic, hmatch⟩ ↦ hmatch ▸ hstatic)
    have hafter : (table.devices[place].applyCapabilityEntry entry).isIdentifiable = true :=
      hknown (hfound.imp And.left fun hvalid ↦ by simp [TargetDevice.applyCapabilityEntry, hvalid])
    have hview : (table.devices.modify place (·.applyCapabilityEntry entry)).map
        (·.isIdentifiable) = table.devices.map (·.isIdentifiable) :=
      map_modify (List.getElem?_eq_getElem hindex) (hafter.trans hbefore.symm)
    have hall (devices : List TargetDevice) :
        devices.all (·.isIdentifiable) = (devices.map (·.isIdentifiable)).all id := by
      rw [List.all_map]
      rfl
    exact (hall _).trans ((congrArg (·.all id) hview).trans (hall _).symm)
  · obtain ⟨-, -, hreachable, rfl⟩ := insert_eq_ok_iff.1 hinsert
    have hlast : (TargetDevice.ofCapabilityEntry entry).isIdentifiable = true := by
      revert hreachable
      have haddress : (TargetDevice.ofCapabilityEntry entry).address = 0 := by
        simp [TargetDevice.ofCapabilityEntry, TargetDevice.applyCapabilityEntry]
      rw [TargetDevice.isUnreachable, TargetDevice.isIdentifiable, haddress]
      generalize TargetDevice.ofCapabilityEntry entry = device
      cases device.type <;> cases device.validPid <;> simp
    simp [isIdentifiable, hlast]

/-- A capability report does not change whether all targets can be given an address. -/
theorem isIdentifiable_mergeCapability (h : table.mergeCapability buffer = (.ok added, next)) :
    next.isIdentifiable = table.isIdentifiable := by
  rcases mergeCapability_cases table buffer with ⟨error, hrefused⟩ | ⟨entries, hmerge⟩
  · rw [hrefused] at h
    cases h
  · have hkept : (table.mergeEntries 0 entries).2.isIdentifiable = table.isIdentifiable :=
      mergeEntries_preserves (fun next ↦ next.isIdentifiable = table.isIdentifiable)
        (fun _ _ _ _ _ hbefore hstep ↦ (isIdentifiable_mergeEntry hstep).trans hbefore) 0 rfl
    rwa [← hmerge, h] at hkept

/-- A listing that is accepted can be read, and its rows are merged. -/
theorem exists_of_mergeListing (h : table.mergeListing buffer = (.ok added, next)) :
    ∃ listing, TargetListing.decode buffer = .ok listing ∧
      (∀ row ∈ listing.rows, isUnaddressable row = false) ∧
      table.mergeRows 0 listing.rows = (.ok added, next) := by
  cases hdecode : TargetListing.decode buffer with
  | error error =>
      rw [mergeListing, hdecode] at h
      cases h
  | ok listing =>
      obtain ⟨hrows, hmerge⟩ := mergeListing_eq_ok hdecode h
      exact ⟨listing, rfl, hrows, hmerge⟩

/-- Merging a report that a table agrees with changes nothing. -/
theorem mergeCapability_agreeing (other : TargetTable)
    (hmerge : other.mergeCapability buffer = (.ok added, next))
    (h : table.agreesWith (.capabilityReceived buffer) = true) :
    table.mergeCapability buffer = (.ok 0, table) := by
  unfold mergeCapability at hmerge ⊢
  split at hmerge
  · cases hmerge
  next report hdecode =>
    split at hmerge
    · cases hmerge
    next hreachable =>
      rw [agreesWith, hdecode] at h
      rw [if_neg hreachable]
      exact mergeEntries_agreeing (List.all_eq_true.1 h) 0

/-- Merging two listings with a configuration in between leaves a table that came of this as it was,
if it agrees with both. -/
theorem mergeListing_again {first listed : TargetTable} {listing relisting : Bytes} {readded : Nat}
    {config : TargetConfig} {maxIbiPayload : UInt32} (hfirst : Integrity first.devices)
    (hmerge : first.mergeListing listing = (.ok added, listed))
    (hremerge : (listed.configured config maxIbiPayload).mergeListing relisting =
      (.ok readded, table))
    (hlisting : table.agreesWith (.tableReceived listing) = true)
    (hrelisting : table.agreesWith (.tableReceived relisting) = true) :
    ∃ again, table.mergeListing listing = (.ok 0, again) ∧
      (again.configured config maxIbiPayload).mergeListing relisting = (.ok 0, table) := by
  obtain ⟨rows, hdecode, hrows, hmerge⟩ := exists_of_mergeListing hmerge
  obtain ⟨rerows, hredecode, hrerows, hremerge⟩ := exists_of_mergeListing hremerge
  rw [agreesWith, hdecode] at hlisting
  rw [agreesWith, hredecode] at hrelisting
  rw [mergeListing_of_rows hdecode hrows]
  obtain ⟨again, hagain, htable⟩ := remerge hfirst (List.forall_mem_append.2 ⟨hrows, hrerows⟩)
    (List.forall_mem_append.2
      ⟨TargetListing.type_of_decode hdecode, TargetListing.type_of_decode hredecode⟩)
    hmerge hremerge (List.forall_mem_append.2
      ⟨List.all_eq_true.1 hlisting, List.all_eq_true.1 hrelisting⟩)
  exact ⟨again, hagain, by rw [mergeListing_of_rows hredecode hrerows, htable]⟩

end TargetTable

namespace Inventory

variable {inventory next : Inventory} {buffer : Bytes}

/-- A report that was taken over once always is. -/
theorem withReport_accepted (h : inventory.withReport buffer = .ok next) (other : Inventory) :
    ∃ next, other.withReport buffer = .ok next := by
  obtain ⟨report, added, table, hdecode, hmerge, -⟩ := withReport_eq_ok_iff.1 h
  obtain ⟨added, table, hmerge⟩ := TargetTable.mergeCapability_accepted hmerge other.table
  exact ⟨_, withReport_eq_ok_iff.2 ⟨report, added, table, hdecode, hmerge, rfl⟩⟩

/-- Whether a listing is accepted does not depend on what is known. -/
theorem withListing_accepted (h : inventory.withListing buffer = .ok next) (other : Inventory) :
    ∃ next, other.withListing buffer = .ok next := by
  obtain ⟨added, table, hmerge, -⟩ := withListing_eq_ok_iff.1 h
  obtain ⟨added, table, hmerge⟩ := TargetTable.mergeListing_accepted hmerge other.table
  exact ⟨_, withListing_eq_ok_iff.2 ⟨added, table, hmerge, rfl⟩⟩

/-- What a report says of the device is known once it has been taken over, and it does not change
whether all targets can be given an address. -/
theorem known_of_withReport (h : inventory.withReport buffer = .ok next) :
    next.capability.isSome = true ∧ next.table.isIdentifiable = inventory.table.isIdentifiable := by
  obtain ⟨report, added, table, -, hmerge, rfl⟩ := withReport_eq_ok_iff.1 h
  exact ⟨rfl, TargetTable.isIdentifiable_mergeCapability hmerge⟩

/-- Targets are configured once a listing has been merged, if the capability of the device is
known. -/
theorem survey_takeListing_accepted
    (h : (InitAction.takeListing buffer).survey inventory = .ok next)
    {other : Inventory} (hother : other.capability.isSome = true) :
    ∃ next, (InitAction.takeListing buffer).survey other = .ok next := by
  obtain ⟨added, table, -, hmerge, -, -⟩ := InitAction.survey_takeListing_eq_ok_iff.1 h
  obtain ⟨added, table, hmerge⟩ := TargetTable.mergeListing_accepted hmerge other.table
  obtain ⟨capability, hcapability⟩ := Option.isSome_iff_exists.1 hother
  exact ⟨_, InitAction.survey_takeListing_eq_ok_iff.2
    ⟨added, table, capability, hmerge, hcapability, rfl⟩⟩

end Inventory

namespace Surveyed

variable {start known : Inventory} {accepted : List InitEvent}

/-- A run that still waits for the capability report has accepted nothing. -/
theorem of_capabilityRequested (h : Surveyed start accepted .capabilityRequested known) :
    accepted = [] ∧ known = start := by
  cases h with
  | asked => exact ⟨rfl, rfl⟩
  | next _ _ hleads _ => cases hleads

/-- A run that starts to poll knows what the device is capable of. -/
theorem of_pipelineStarting (h : Surveyed start accepted .pipelineStarting known) :
    ∃ report, accepted = [.capabilityReceived report] ∧ start.withReport report = .ok known := by
  cases h with
  | next h _ hleads hreport =>
      cases hleads with
      | takeCapability report =>
          obtain ⟨rfl, rfl⟩ := h.of_capabilityRequested
          exact ⟨report, rfl, hreport⟩

/-- A run that has told the device to initialize the bus knows that the device can. -/
theorem of_busInitRequested (h : Surveyed start accepted .busInitRequested known) :
    ∃ report, accepted = [.capabilityReceived report, .pipelineStarted] ∧
      start.withReport report = .ok known ∧ known.table.isIdentifiable = true ∧
      known.capability.any (·.isControllerCapable) = true := by
  cases h with
  | next h hdevice hleads hinitiated =>
      cases hleads with
      | initializeBus _ hcapable =>
          obtain ⟨report, rfl, hreport⟩ := h.of_pipelineStarting
          obtain ⟨hidentifiable, rfl⟩ := Inventory.identified_eq_ok_iff.1 hinitiated
          exact ⟨report, rfl, hreport, hidentifiable, hdevice ▸ hcapable⟩

/-- A run that waits for the first listing has taken over a report of a capable device. -/
theorem of_tableRequested (h : Surveyed start accepted .tableRequested known) :
    ∃ report, accepted = [.capabilityReceived report, .pipelineStarted, .busInitStatus .success] ∧
      start.withReport report = .ok known ∧ known.table.isIdentifiable = true ∧
      known.capability.any (·.isControllerCapable) = true := by
  cases h with
  | next h _ hleads hsame =>
      cases hleads with
      | busInitialized =>
          cases hsame
          obtain ⟨report, rfl, hknown⟩ := h.of_busInitRequested
          exact ⟨report, rfl, hknown⟩

/-- A run that waits for the second listing has taken over the first one. -/
theorem of_tableRefreshRequested (h : Surveyed start accepted .tableRefreshRequested known) :
    ∃ report listing capable, accepted = [.capabilityReceived report, .pipelineStarted,
        .busInitStatus .success, .tableReceived listing, .configApplied] ∧
      start.withReport report = .ok capable ∧ capable.table.isIdentifiable = true ∧
      capable.capability.any (·.isControllerCapable) = true ∧
      (InitAction.takeListing listing).survey capable = .ok known := by
  cases h with
  | next h _ hleads hsame =>
      cases hleads with
      | configApplied =>
          cases hsame
          cases h with
          | next h _ hleads hlisting =>
              cases hleads with
              | takeListing listing =>
                  obtain ⟨report, rfl, hreport, hidentifiable, hcapable⟩ := h.of_tableRequested
                  exact ⟨report, listing, _, rfl, hreport, hidentifiable, hcapable, hlisting⟩

/-- What a run has learned when it comes to its end in ready. -/
theorem of_ready (h : Surveyed start accepted .ready known) :
    ∃ report listing relisting capable configured relisted,
      accepted = [.capabilityReceived report, .pipelineStarted, .busInitStatus .success,
        .tableReceived listing, .configApplied, .tableReceived relisting, .tableMerged] ∧
      start.withReport report = .ok capable ∧ capable.table.isIdentifiable = true ∧
      capable.capability.any (·.isControllerCapable) = true ∧
      (InitAction.takeListing listing).survey capable = .ok configured ∧
      configured.withListing relisting = .ok relisted ∧ known = relisted.announcing := by
  cases h with
  | next h _ hleads hready =>
      cases hleads with
      | ready =>
          cases hready
          cases h with
          | next h _ hleads hrelisting =>
              cases hleads with
              | refreshListing relisting =>
                  obtain ⟨report, listing, capable, rfl, hreport, hidentifiable, hcapable,
                    hlisting⟩ := h.of_tableRefreshRequested
                  exact ⟨report, listing, relisting, capable, _, _, rfl, hreport, hidentifiable,
                    hcapable, hlisting, hrelisting, rfl⟩

/-- A run comes to its end in standby with a device that cannot manage the bus. -/
theorem of_standby (h : Surveyed start accepted .standby known) :
    ∃ report, accepted = [.capabilityReceived report, .pipelineStarted] ∧
      start.withReport report = .ok known ∧
      known.capability.any (·.isControllerCapable) = false := by
  cases h with
  | next h hdevice hleads hsame =>
      cases hleads with
      | stayInStandby _ hincapable =>
          cases hsame
          obtain ⟨report, rfl, hreport⟩ := h.of_pipelineStarting
          exact ⟨report, rfl, hreport, hdevice ▸ hincapable⟩

end Surveyed

/-- What a device answers in a run, by the events that the run accepts: what completions post of
them. -/
def answersOf (accepted : List InitEvent) : List InitEvent :=
  accepted.filter (·.isReported)

/-- Without events there are no answers. -/
@[simp] theorem answersOf_nil : answersOf [] = [] :=
  rfl

/-- An event is an answer if completions post it. -/
@[simp] theorem answersOf_cons (event : InitEvent) (accepted : List InitEvent) :
    answersOf (event :: accepted) =
      if event.isReported then event :: answersOf accepted else answersOf accepted :=
  List.filter_cons

section Again

variable {first start last again : Inventory} {heard accepted : List InitEvent} {error : HostError}

/-- Answers with which a device has been initialized are all accepted again. If the transport does
not fail, a run fails only because some target cannot be given an address. -/
theorem Refused.of_answers (hfirst : Surveyed first heard .ready last)
    (hanswers : answersOf accepted <+: answersOf heard) (h : Refused start accepted error) :
    (∃ fault, error = .transport fault) ∨
      start.table.isIdentifiable = false ∧ error = .validation .unidentifiableDevice := by
  obtain ⟨report, listing, relisting, capable, configured, relisted, rfl, hreport, -, -, hlisting,
    hrelisting, -⟩ := hfirst.of_ready
  cases h with
  | transport _ fault => exact .inl ⟨fault, rfl⟩
  | survey h _ hleads hrefused later =>
      right
      cases hleads with
      | takeCapability buffer =>
          obtain ⟨rfl, rfl⟩ := h.of_capabilityRequested
          obtain ⟨rfl, -⟩ : buffer = report ∧ _ := by
            simpa [InitEvent.isReported] using hanswers
          obtain ⟨next, hnext⟩ := Inventory.withReport_accepted hreport _
          cases hnext.symm.trans hrefused
      | initializeBus =>
          obtain ⟨buffer, rfl, hbuffer⟩ := h.of_pipelineStarting
          rw [← (Inventory.known_of_withReport hbuffer).2]
          change Inventory.identified _ = _ at hrefused
          unfold Inventory.identified at hrefused
          split at hrefused
          next => cases hrefused
          next hunidentifiable =>
            cases hrefused
            exact ⟨Bool.not_eq_true _ ▸ hunidentifiable, rfl⟩
      | takeListing buffer =>
          obtain ⟨other, rfl, hother, -⟩ := h.of_tableRequested
          obtain ⟨-, rfl, -⟩ : _ ∧ buffer = listing ∧ _ := by
            simpa [InitEvent.isReported] using hanswers
          obtain ⟨next, hnext⟩ := Inventory.survey_takeListing_accepted hlisting
            (Inventory.known_of_withReport hother).1
          cases hnext.symm.trans hrefused
      | refreshListing buffer =>
          obtain ⟨other, relisted, -, rfl, -⟩ := h.of_tableRefreshRequested
          obtain ⟨-, -, rfl, -⟩ : _ ∧ _ ∧ buffer = relisting ∧ _ := by
            simpa [InitEvent.isReported] using hanswers
          obtain ⟨next, hnext⟩ := Inventory.withListing_accepted hrelisting _
          cases hnext.symm.trans hrefused
      | _ => cases hrefused

/-- With the same answers a run does not come to its end in standby, if it came to its end in ready
before. -/
theorem Surveyed.not_standby (hfirst : Surveyed first heard .ready last)
    (hanswers : answersOf accepted <+: answersOf heard) :
    ¬ Surveyed start accepted .standby again := by
  intro h
  obtain ⟨report, listing, relisting, capable, configured, relisted, rfl, hreport, -, hcapable,
    -⟩ := hfirst.of_ready
  obtain ⟨other, rfl, hother, hincapable⟩ := h.of_standby
  obtain rfl : other = report := by simpa [InitEvent.isReported] using hanswers
  obtain ⟨_, _, _, hdecode, -, rfl⟩ := Inventory.withReport_eq_ok_iff.1 hreport
  obtain ⟨_, _, _, hdecodeOther, -, rfl⟩ := Inventory.withReport_eq_ok_iff.1 hother
  cases hdecode.symm.trans hdecodeOther
  cases hcapable.symm.trans hincapable

/-- A run that has come to its end in ready has not heard of any failure. -/
theorem Surveyed.not_failure (hfirst : Surveyed first heard .ready last) :
    ∀ event ∈ answersOf heard, event.isFailure = false := by
  obtain ⟨report, listing, relisting, capable, configured, relisted, rfl, -⟩ := hfirst.of_ready
  simp [InitEvent.isReported, InitEvent.isFailure]

/-- What a run learns from the answers from which a table was learned is that table, if it agrees
with them. -/
theorem Surveyed.relearned (hsound : first.Sound) (hfirst : Surveyed first heard .ready last)
    (hagrees : ∀ event ∈ heard, last.table.agreesWith event = true)
    (hstart : start.table = { last.table with eventsEnabled := false })
    (hanswers : answersOf accepted <+: answersOf heard)
    (hagain : Surveyed start accepted .ready again) : again.table = last.table := by
  obtain ⟨report, listing, relisting, capable, configured, relisted, rfl, hreport, -, -, hlisting,
    hrelisting, rfl⟩ := hfirst.of_ready
  obtain ⟨_, _, _, recapable, reconfigured, rerelisted, rfl, hreport', -, -, hlisting',
    hrelisting', rfl⟩ := hagain.of_ready
  obtain ⟨rfl, rfl, rfl⟩ : _ = report ∧ _ = listing ∧ _ = relisting := by
    simpa [InitEvent.isReported] using hanswers
  have hcapable : capable.Sound := hsound.withReport hreport
  have hrelisted : relisted.Sound := (hcapable.survey (by simp) hlisting).withListing hrelisting
  -- What the first run made of the table.
  obtain ⟨content, _, reported, hdecode, hmerge, rfl⟩ := Inventory.withReport_eq_ok_iff.1 hreport
  obtain ⟨_, listed, _, hlist, hcapability, rfl⟩ :=
    InitAction.survey_takeListing_eq_ok_iff.1 hlisting
  cases hcapability
  obtain ⟨_, table, hrelist, rfl⟩ := Inventory.withListing_eq_ok_iff.1 hrelisting
  have hbefore : start.table = table := by
    rw [hstart]
    obtain ⟨devices, enabled, listener, arrivals⟩ := table
    obtain rfl : enabled = false := hrelisted.disabled
    rfl
  -- Whether it agrees with reports is a matter of the targets in the table.
  have hagrees (event) (h : event ∈ _) : table.agreesWith event = true := hagrees event h
  -- What the second run makes of it.
  obtain ⟨_, _, _, hdecode', hmerge', rfl⟩ := Inventory.withReport_eq_ok_iff.1 hreport'
  cases hdecode.symm.trans hdecode'
  rw [hbefore, TargetTable.mergeCapability_agreeing _ hmerge (hagrees _ (by simp))] at hmerge'
  cases hmerge'
  obtain ⟨_, _, _, hlist', hcapability, rfl⟩ :=
    InitAction.survey_takeListing_eq_ok_iff.1 hlisting'
  cases hcapability
  obtain ⟨relisted, hlistAgain, hrelistAgain⟩ :=
    TargetTable.mergeListing_again hcapable.integrity hlist hrelist (hagrees _ (by simp))
      (hagrees _ (by simp))
  cases hlistAgain.symm.trans hlist'
  obtain ⟨_, _, hrelist', rfl⟩ := Inventory.withListing_eq_ok_iff.1 hrelisting'
  cases hrelistAgain.symm.trans hrelist'
  rfl

end Again

deriving instance DecidableEq for TargetTable

/-- How a run ends: the events that it has accepted, its result, the state that it has come to, and
the table that it leaves behind. -/
structure Ending where
  accepted : List InitEvent
  result : HostResult Unit
  state : InitState
  table : TargetTable
  deriving DecidableEq

namespace Engine

variable {τ : Type} [Transport τ] {engine : Engine τ}

def ending (turn : Turn τ) (engine : Engine τ) : Ending :=
  let (accepted, last) := (runCourse turn).exec engine
  ⟨accepted, last.conclusion, last.bringUp.state, last.table⟩

/-- A run of the application ends as it would if nothing else changed the table meanwhile. -/
def TableUndisturbed (engine : Engine τ) : Prop :=
  ending Turn.application.sparingTable engine = ending Turn.application engine

instance : Decidable (TableUndisturbed engine) :=
  inferInstanceAs (Decidable (ending _ engine = ending _ engine))

/-- A run of the application that nothing else disturbs comes to an end. It has surveyed the events
that it has accepted, or completions have reported a failure, or a survey or the transport has
failed. -/
theorem TableUndisturbed.surveyed (h : TableUndisturbed engine) (horderly : Orderly engine)
    (hhooks : HooksIn Hook.SparesBringUp [] engine)
    (hintegrity : TargetTable.Integrity engine.table.devices)
    (hstate : engine.bringUp.state.isStartable = true) :
    ∃ after, (Session.call .bringUp).exec engine = (.ofResult after.conclusion, after) ∧
      ((∃ known, Surveyed engine.cleared.inventory engine.accepted after.bringUp.state known ∧
          known.table = after.table ∧
          (after.bringUp.state = .ready ∨ after.bringUp.state = .standby)) ∨
        after.bringUp.state = .failed ∧
          ((∃ event ∈ answersOf engine.accepted, event.isFailure = true) ∨
            ∃ error, .fail error ∈ engine.accepted ∧ after.conclusion = .error error ∧
              Refused engine.cleared.inventory engine.accepted error)) := by
  obtain ⟨accepted, after, hcourse, hrun, -⟩ :=
    runInvariant_running.exec_runBringUp hstate horderly.policy horderly.running_started
  obtain ⟨surveyed, last, hsparing, hlast⟩ := reserved_sparingTable.exec_runBringUp hhooks
    horderly.policy horderly.listening hstate ⟨hintegrity, rfl, horderly.flushed⟩
  have haccepted : engine.accepted = accepted := congrArg Prod.fst hcourse
  simp only [TableUndisturbed, ending, hsparing, hcourse, Ending.mk.injEq] at h
  obtain ⟨rfl, hconclusion, hended, htable⟩ := h
  refine ⟨after, ?_, ?_⟩
  · show (settled (runBringUp Turn.application)).exec engine = _
    rw [exec_settled, hrun]
  rw [haccepted, ← hended, ← hconclusion, ← htable]
  rcases hlast with ⟨hsurveyed, hgood⟩ | hfailed
  · exact .inl ⟨_, hsurveyed, rfl, hgood⟩
  · refine .inr ⟨hfailed.state, hfailed.cause.imp ?_ ?_⟩
    · rintro ⟨event, hevent, hreported, hfailure⟩
      exact ⟨event, List.mem_filter.2 ⟨hevent, hreported⟩, hfailure⟩
    · rintro ⟨error, herror, hfailure, hreason⟩
      refine ⟨error, herror, ?_, hreason⟩
      rw [conclusion, hfailed.state, hfailure]
      rfl

/-- A run that gets the answers again with which a device has been initialized comes to its end in
ready, or fails because some target cannot be given an address. -/
theorem TableUndisturbed.repeated (h : TableUndisturbed engine) (horderly : Orderly engine)
    (hhooks : HooksIn Hook.SparesBringUp [] engine)
    (hintegrity : TargetTable.Integrity engine.table.devices)
    (hstate : engine.bringUp.state.isStartable = true) {first last : Inventory}
    {heard : List InitEvent} (hfirst : Surveyed first heard .ready last)
    (hanswers : answersOf engine.accepted <+: answersOf heard) :
    ∃ after, (Session.call .bringUp).exec engine = (.ofResult after.conclusion, after) ∧
      ((engine.table.isIdentifiable = true ∧ after.bringUp.state = .ready ∧
          ∃ known, Surveyed engine.cleared.inventory engine.accepted .ready known ∧
            known.table = after.table) ∨
        engine.table.isIdentifiable = false ∧ after.bringUp.state = .failed ∧
          after.conclusion = .error (.validation .unidentifiableDevice)) := by
  obtain ⟨after, hexec, hended⟩ := h.surveyed horderly hhooks hintegrity hstate
  refine ⟨after, hexec, ?_⟩
  have hfailure (event) (hevent : event ∈ answersOf engine.accepted) : event.isFailure = false :=
    hfirst.not_failure event (hanswers.subset hevent)
  rcases hended with ⟨known, hknown, htable, hready | hstandby⟩ | ⟨hfailed, hcause⟩
  · rw [hready] at hknown
    obtain ⟨report, _, _, capable, _, _, -, hreport, hidentifiable, -⟩ := hknown.of_ready
    have hsame := (Inventory.known_of_withReport hreport).2
    exact .inl ⟨hsame.symm.trans hidentifiable, hready, known, hknown, htable⟩
  · rw [hstandby] at hknown
    exact absurd hknown (hfirst.not_standby hanswers)
  · rcases hcause with ⟨event, hevent, hfails⟩ | ⟨error, herror, hconclusion, hrefused⟩
    · exact absurd ((hfailure event hevent).symm.trans hfails) Bool.false_ne_true
    · rcases hrefused.of_answers hfirst hanswers with ⟨fault, rfl⟩ | ⟨hunidentifiable, rfl⟩
      · -- What the transport reports would be an answer that was not given before.
        exact absurd (hfailure _ (List.mem_filter.2 ⟨herror, rfl⟩)) nofun
      · exact .inr ⟨hunidentifiable, hfailed, hconclusion⟩

/-- A call that initializes a device succeeds in ready, and a later call finds the table as the
first has left it and gets the same answers as far as it gets, no failure among them. Nothing else
changes the table during the two calls. -/
structure Repeats (engine first again : Engine τ) : Prop where
  undisturbed : TableUndisturbed engine
  done : (Session.call .bringUp).exec engine = (.done, first)
  ready : first.bringUp.state = .ready
  table : again.table = first.table
  undisturbedAgain : TableUndisturbed again
  answers : answersOf again.accepted <+: answersOf engine.accepted

/-- In every history of a session with the standard actions, let a call that initializes the device
be repeated while no hook that could run initializes the device, too. If all targets in the table
can be given an address the second call succeeds in ready, and it leaves the table as it was if the
table agrees with the answers. If some target has neither a static address nor a known identifier
the second call fails for that reason. -/
theorem bringUp_again {transport : τ} {options : SessionOptions} {session : Engine τ}
    (h : Session.ofTransport transport options = .ok session) (hpolicy : options.policy = {})
    {events later : List (Event τ)} {first : Engine τ}
    (hrepeats : Repeats (session.after events) first (first.after later))
    (hhooks : HooksIn Hook.SparesBringUp [] (session.after events))
    (hhooksAgain : HooksIn Hook.SparesBringUp [] (first.after later)) :
    let engine := session.after events
    let again := first.after later
    (again.table.isIdentifiable = true → ∃ after,
      (Session.call .bringUp).exec again = (.done, after) ∧ after.bringUp.state = .ready ∧
        ((∀ event ∈ engine.accepted, again.table.agreesWith event = true) →
          after.table = again.table)) ∧
    (again.table.isIdentifiable = false → ∃ after,
      (Session.call .bringUp).exec again =
          (.failed (.validation .unidentifiableDevice), after) ∧
        after.bringUp.state = .failed) := by
  intro engine again
  obtain ⟨hundisturbed, hdone, hready, htable, hundisturbedAgain, hanswers⟩ := hrepeats
  have hfirst : first = session.after (events ++ [.call .bringUp]) := by
    rw [after_append]
    exact (congrArg Prod.snd hdone).symm
  have hagain : again = session.after ((events ++ [.call .bringUp]) ++ later) := by
    rw [after_append, ← hfirst]
  have horderly (events : List (Event τ)) : Orderly (session.after events) :=
    orderly_after (orderly_ofTransport h hpolicy) events
  have hagainOrderly : Orderly again := hagain ▸ horderly _
  have hagainIntegrity : TargetTable.Integrity again.table.devices :=
    hagain ▸ integrity_after h _
  have hagainReady : again.bringUp.state = .ready := by
    have hfirstOrderly : Orderly first := hfirst ▸ horderly _
    rw [← hagainOrderly.heard, htable, hfirstOrderly.heard]
    exact hready
  -- What the first run has learned.
  obtain ⟨_, hexec, hended⟩ := hundisturbed.surveyed (horderly events) hhooks
    (integrity_after h events) (isStartable_of_exec_runBringUp (exec_runBringUp_of_done hdone))
  obtain ⟨-, rfl⟩ := Prod.mk.inj (hexec.symm.trans hdone)
  obtain ⟨known, hknown, hknownTable, -⟩ := hended.resolve_right fun ⟨hfailed, _⟩ ↦ by
    rw [hready] at hfailed
    cases hfailed
  rw [hready] at hknown
  -- What the second run makes of the same answers.
  obtain ⟨after, hexecAgain, hendedAgain⟩ := hundisturbedAgain.repeated hagainOrderly
    hhooksAgain hagainIntegrity (by rw [hagainReady]; rfl) hknown hanswers
  refine ⟨fun hidentifiable ↦ ?_, fun hunidentifiable ↦ ?_⟩
  · rcases hendedAgain with ⟨-, hreadyAgain, relearned, hrelearned, hafter⟩ | ⟨hunidentifiable, -⟩
    · refine ⟨after, ?_, hreadyAgain, fun hagrees ↦ ?_⟩
      · rw [hexecAgain, conclusion, hreadyAgain]
        rfl
      · have hknownAgain : known.table = again.table := hknownTable.trans htable.symm
        rw [← hafter, ← hknownAgain]
        exact hknown.relearned ⟨integrity_after h events, rfl, (horderly events).flushed⟩
          (hknownAgain ▸ hagrees) (hknownAgain ▸ rfl) hanswers hrelearned
    · cases hidentifiable.symm.trans hunidentifiable
  · rcases hendedAgain with ⟨hidentifiable, -⟩ | ⟨-, hfailed, hconclusion⟩
    · cases hidentifiable.symm.trans hunidentifiable
    · exact ⟨after, by rw [hexecAgain, hconclusion]; rfl, hfailed⟩

/-- A run that succeeds is repeated at once. -/
theorem repeats_at_once (hsucceeds : engine.runSucceeds = true) :
    let first := engine.after [.call .bringUp]
    first.bringUp.state = .ready → TableUndisturbed engine → TableUndisturbed first →
      answersOf first.accepted <+: answersOf engine.accepted → Repeats engine first first :=
  fun hready hundisturbed hundisturbedAgain hanswers ↦ ⟨hundisturbed, exec_of_runSucceeds hsucceeds,
    hready, rfl, hundisturbedAgain, hanswers⟩

/-- A session whose device lists the same two targets every time. -/
def steadyBus : Engine ScriptedTransport :=
  opened (twoTargetDevice [capableReply] [busReply .success])

/-- The second run leaves the table of two targets as it was. -/
theorem repeated_steadyBus :
    let first := steadyBus.after [.call .bringUp]
    Session.ofTransport steadyBus.transport {} = .ok steadyBus ∧
      Repeats steadyBus first first ∧ HooksIn Hook.SparesBringUp [] steadyBus ∧
      HooksIn Hook.SparesBringUp [] first ∧
      ∃ after, (Session.call .bringUp).exec first = (.done, after) ∧
        after.bringUp.state = .ready ∧ after.table = first.table := by
  have hopened : Session.ofTransport steadyBus.transport {} = .ok steadyBus := rfl
  have hsucceeds : steadyBus.runSucceeds = true := by decide +kernel
  have hready : (steadyBus.after [.call .bringUp]).bringUp.state = .ready := by decide +kernel
  have hundisturbed : TableUndisturbed steadyBus := by decide +kernel
  have hundisturbedAgain : TableUndisturbed (steadyBus.after [.call .bringUp]) := by decide +kernel
  have hanswers : answersOf (steadyBus.after [.call .bringUp]).accepted <+:
      answersOf steadyBus.accepted := by decide +kernel
  have hidentifiable : (steadyBus.after [.call .bringUp]).table.isIdentifiable = true := by
    decide +kernel
  have hagrees : ∀ event ∈ steadyBus.accepted,
      (steadyBus.after [.call .bringUp]).table.agreesWith event = true := by decide +kernel
  -- The rest holds of any session; on this one the checker would run it to compare terms.
  generalize steadyBus = session at *
  intro first
  have hrepeats : Repeats (session.after []) first (first.after []) :=
    repeats_at_once hsucceeds hready hundisturbed hundisturbedAgain hanswers
  have hhooks : HooksIn Hook.SparesBringUp [] session := hooksIn_ofTransport hopened _
  have hhooksAgain : HooksIn Hook.SparesBringUp [] first :=
    hooksIn_after hookClosed_sparesBringUp hhooks (by simp [Event.hooks, Call.hooks])
  obtain ⟨hagain, -⟩ := bringUp_again hopened rfl hrepeats hhooks hhooksAgain
  obtain ⟨after, hdone, hready, htable⟩ := hagain hidentifiable
  exact ⟨hopened, hrepeats, hhooks, hhooksAgain, after, hdone, hready, htable hagrees⟩

/-- A device that manages the bus, with the targets that it knows beforehand and its listings. -/
def reportingDevice (entries : List CapabilityEntry) (listings : List (List TargetRow)) :
    ScriptedTransport where
  control
    | .getI3cCapability =>
        let report := CapabilityReport.ofTargets .primaryController {} 32 entries
        [{ data := (Message.toBytes report).toOption }]
    | .initializeI3cBus => [busReply .success]
    | .getTargetDeviceTable => listings.map fun rows ↦
        { data := (Message.toBytes (⟨rows⟩ : TargetListing)).toOption }
    | _ => []

/-- A session whose device lists a target at an address, but without an identifier. -/
def unnamedTarget : Engine ScriptedTransport :=
  opened (reportingDevice [] [[{ address := 8 }]])

/-- A session in which one of two targets has the address of the other when they are listed the
second time. -/
def movedTargets : Engine ScriptedTransport :=
  let listing : List TargetRow :=
    [{ address := 3, pid := .ofNat 0x33 }, { address := 2, pid := .ofNat 0x22 }]
  let relisting : List TargetRow :=
    [{ address := 1, pid := .ofNat 0x33 }, { address := 3, pid := .ofNat 0x22 }]
  opened (reportingDevice [] [listing, relisting, listing, relisting])

/-- A session whose device reports one target at two static addresses, and another one without an
identifier at the first of them. -/
def renamedTarget : Engine ScriptedTransport :=
  opened (reportingDevice [{ staticAddress := 0x10, pid := .ofNat 1 },
    { staticAddress := 0x20, pid := .ofNat 1 }, { staticAddress := 0x10 }] [[]])

/-- The second call fails if a target without an identifier was listed. It succeeds, but does not
leave the table as it was, if targets have moved to addresses of each other between two listings, or
if one entry of the report is at odds with another. -/
theorem not_repeated :
    (∀ engine ∈ [unnamedTarget, movedTargets, renamedTarget],
      Session.ofTransport engine.transport {} = .ok engine ∧
        Repeats engine (engine.after [.call .bringUp]) (engine.after [.call .bringUp])) ∧
    (unnamedTarget.after [.call .bringUp]).runFails = true ∧
    ∀ engine ∈ [movedTargets, renamedTarget],
      let first := engine.after [.call .bringUp]
      first.runSucceeds = true ∧ answersOf first.accepted = answersOf engine.accepted ∧
        (first.after [.call .bringUp]).table ≠ first.table := by
  refine ⟨List.forall_mem_cons.2 ⟨⟨rfl, ?_⟩, List.forall_mem_cons.2 ⟨⟨rfl, ?_⟩,
    List.forall_mem_singleton.2 ⟨rfl, ?_⟩⟩⟩, ?_, ?_⟩
  · apply repeats_at_once <;> decide +kernel
  · apply repeats_at_once <;> decide +kernel
  · apply repeats_at_once <;> decide +kernel
  · decide +kernel
  · decide +kernel

end Engine

end I3cHost
