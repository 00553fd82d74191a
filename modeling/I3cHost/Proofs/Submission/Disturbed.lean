import Mathlib.Data.List.Perm.Subperm
import I3cHost.Proofs.Engine.Hooks
import I3cHost.Proofs.Submission.Undisturbed

/-!
# Submissions during which answers arrive

Answers may arrive, or their stream may end, while a transfer is under way that then fails. What
was answered meanwhile cannot be withdrawn, so its command stays queued without a callback. A
failed submission is undone exactly if every request of the batch still waits when the transfer is
over, and the batch has no two commands under one identifier.
-/

namespace I3cHost.Engine

variable {τ : Type} {engine opened after : Engine τ} {dependent : Bool}

/-- A submission has been undone: the commands are queued as before, each with its callback, and no
request is tracked that was not tracked before. -/
structure Undone (before after : Engine τ) : Prop where
  queue : after.queue = before.queue
  tracked : ∀ kind, Tracker.countOf kind after.tracker.requests.toList ≤
    Tracker.countOf kind before.tracker.requests.toList

/-- As long as nothing has been submitted there is nothing to undo. -/
theorem During.undone (h : During engine [] opened) : engine.Undone opened where
  queue := h.queue
  tracked kind := Nat.le_trans (Nat.le_add_right _ _) (h.progress.origin kind)

/-- Tracking a batch brings no hooks. -/
theorem HooksSpareQueue.trackQueued (h : engine.HooksSpareQueue) (first : UInt16)
    (dependent : Bool) : (engine.trackQueued first dependent).HooksSpareQueue :=
  (h.hooksIn.trackQueued first dependent).hooksSpareQueue fun _ ↦ id

variable [Transport τ] {turn : Turn τ}

/-- Preparing a submission preserves whatever the event thread preserves, if it does not depend on
the transport. -/
theorem prepare_preserves {P : Engine τ → Prop} (hturn : turn.Ordinary) (hP : OfLedger P)
    (hdeliver : EngineM.Preserves P (deliver Turn.busy .bufferQuery)) (dependent : Bool) :
    EngineOp.Preserves P (prepare turn dependent) := by
  intro engine h
  show P ((prepare turn dependent).exec engine).2
  rcases exec_prepare_cases turn dependent engine with ⟨error, hprepare⟩ | ⟨bytes, hready⟩
  · rwa [hprepare]
  · rw [hready.exec_prepare]
    exact hturn.preserves (.inl rfl) hdeliver engine.asked (hP engine engine.asked rfl h)

/-- Preparing a submission changes neither the queue nor, apart from answers, the tracker. -/
theorem during_prepare (hturn : turn.Ordinary) (dependent : Bool)
    (hspare : engine.HooksSpareQueue) :
    During engine [] ((prepare turn dependent).exec engine).2 :=
  prepare_preserves hturn ofLedger_during (deliver_preserves hspare _) dependent engine
    hspare.during

/-- What is sent carries a command with a callback each. -/
theorem holdsCallbacks_of_exec_prepare (hturn : turn.Ordinary) (hspare : engine.HooksSpareQueue)
    {bytes : Bytes} (hprepare : (prepare turn dependent).exec engine = (.ok bytes, opened)) :
    opened.queue.HoldsCallbacks := by
  have hduring := during_prepare hturn dependent hspare
  rw [hprepare] at hduring
  exact hduring.queue ▸ (ensureSendable_eq_ok_iff.1 (ready_of_exec_prepare hprepare).sendable).2

/-- The invariant of the time of the transfer, seen from the state in which the batch is tracked. -/
theorem during_transferred (hturn : turn.Ordinary) (hspare : engine.HooksSpareQueue)
    (first : UInt16) (dependent : Bool) (bytes : Bytes) :
    During (engine.trackQueued first dependent) []
      (engine.transferred turn first dependent bytes) := by
  have htracked := hspare.trackQueued first dependent
  exact hturn.preserves (.inr rfl) (deliver_preserves htracked _) _
    (ofLedger_during (engine.trackQueued first dependent) _ rfl htracked.during)

section Transferred

variable (first : UInt16) (dependent : Bool) (bytes : Bytes) (hturn : turn.Ordinary)
  (hspare : engine.HooksSpareQueue) (hcallbacks : engine.queue.HoldsCallbacks)

include hturn hspare hcallbacks

/-- Of the requests under an identifier of the batch, that of the batch is answered last. -/
theorem getLast?_waitingUnder (hsize : engine.queue.size ≤ 65536) {index : Nat}
    {command : Command (Hook τ)} {callback : Hook τ}
    (hcommand : engine.queue.commands[index]? = some command)
    (hcallback : command.callback = some callback)
    (hne : (engine.transferred turn first dependent bytes).tracker.waitingUnder
      (CommandQueue.idAt first index) ≠ []) :
    ((engine.transferred turn first dependent bytes).tracker.waitingUnder
      (CommandQueue.idAt first index)).getLast? =
        some (CommandQueue.requestAt first dependent index callback) := by
  have hlatest := (during_transferred hturn hspare first dependent bytes).progress.latest
    (CommandQueue.idAt first index)
  rw [tracker_trackQueued, Tracker.waitingUnder_track,
    CommandQueue.filter_handOver hcallbacks hsize hcommand hcallback] at hlatest
  rw [List.getLast?_eq_some_getLast hne, hlatest.getLast hne, List.getLast_concat]

/-- Withdrawing gives every command its callback back exactly if every request of the batch still
waits. -/
theorem queue_withdrawQueued_eq_iff :
    ((engine.transferred turn first dependent bytes).withdrawQueued first).queue = engine.queue ↔
      engine.queue.size ≤ 65536 ∧ ∀ request ∈ (engine.queue.handOver first dependent).1,
        request ∈ (engine.transferred turn first dependent bytes).tracker.requests := by
  have hduring := during_transferred hturn hspare first dependent bytes
  rw [queue_withdrawQueued, hduring.queue, queue_trackQueued, CommandQueue.size_keptQueue,
    CommandQueue.takeBack_withdraw_eq_iff hcallbacks]
  refine and_congr_right fun hsize ↦ ?_
  constructor
  · intro hback request hrequest
    obtain ⟨index, command, callback, hcommand, hcallback, rfl⟩ :=
      (CommandQueue.mem_handOver hcallbacks first dependent).1 hrequest
    have hregained := hback index command hcommand
    -- The callback came back from some request that waits.
    have hne : (engine.transferred turn first dependent bytes).tracker.waitingUnder
        (CommandQueue.idAt first index) ≠ [] := by
      intro hnil
      rw [hnil, hcallback] at hregained
      cases hregained
    have hlast := getLast?_waitingUnder first dependent bytes hturn hspare hcallbacks hsize hcommand
      hcallback hne
    exact (Tracker.mem_waitingUnder.1 (List.mem_of_getLast? hlast)).1
  · intro hbatch index command hcommand
    obtain ⟨callback, hcallback⟩ := hcallbacks.exists_callback hcommand
    have htracked := hbatch _ ((CommandQueue.mem_handOver hcallbacks first dependent).2
      ⟨index, command, callback, hcommand, hcallback, rfl⟩)
    have hwaiting := Tracker.mem_waitingUnder.2 ⟨htracked, rfl, rfl⟩
    rw [getLast?_waitingUnder first dependent bytes hturn hspare hcallbacks hsize hcommand hcallback
      (List.ne_nil_of_mem hwaiting), hcallback]
    rfl

/-- If every request of the batch still waits, withdrawing leaves only requests tracked that were
tracked before. -/
theorem tracked_withdrawQueued (hsize : engine.queue.size ≤ 65536)
    (hbatch : ∀ request ∈ (engine.queue.handOver first dependent).1,
      request ∈ (engine.transferred turn first dependent bytes).tracker.requests)
    (kind : UInt16 → Bool → Hook τ → Bool) :
    Tracker.countOf kind ((engine.transferred turn first dependent bytes).withdrawQueued
        first).tracker.requests.toList ≤
      Tracker.countOf kind engine.tracker.requests.toList := by
  have hduring := during_transferred hturn hspare first dependent bytes
  -- As many requests are withdrawn as the batch has, so none of its requests is left.
  have hsubset : (engine.queue.handOver first dependent).1.toList ⊆
      ((engine.transferred turn first dependent bytes).tracker.withdraw first
        engine.queue.size).1.toList := by
    intro request hrequest
    rw [Tracker.withdraw_eq, Array.mem_toList_iff, Array.mem_filter]
    rw [Array.mem_toList_iff] at hrequest
    exact ⟨hbatch request hrequest, CommandQueue.belongs_of_mem_handOver hcallbacks hrequest⟩
  have hwithdrawn : Tracker.countOf kind (engine.queue.handOver first dependent).1.toList ≤
      Tracker.countOf kind ((engine.transferred turn first dependent bytes).tracker.withdraw first
        engine.queue.size).1.toList :=
    ((CommandQueue.nodup_handOver hcallbacks hsize first dependent).subperm hsubset).countP_le _
  have horigin := hduring.progress.origin kind
  rw [tracker_trackQueued, Tracker.track, Array.toList_append, Tracker.countOf_append,
    Tracker.countOf_withdraw kind _ first engine.queue.size] at horigin
  rw [tracker_withdrawQueued, hduring.queue, queue_trackQueued, CommandQueue.size_keptQueue]
  omega

end Transferred

/-- A failed submission is undone exactly if no transfer was made, or no two commands had one
identifier and every request of the batch still waits when the transfer is over: whatever was
answered meanwhile is lost to its command. -/
theorem submit_error_undone_iff (hturn : turn.Ordinary) (hspare : engine.HooksSpareQueue)
    {error : HostError} (h : (submit turn dependent).exec engine = (.error error, after)) :
    engine.Undone after ↔ ∀ bytes opened,
      (prepare turn dependent).exec engine = (.ok bytes, opened) → engine.queue.size ≤ 65536 ∧
        ∀ request ∈ (engine.queue.handOver engine.tracker.nextId dependent).1, request ∈
          (opened.transferred turn engine.tracker.nextId dependent bytes).tracker.requests := by
  have hduring := during_prepare hturn dependent hspare
  rw [exec_submit] at h
  rcases hprepare : (prepare turn dependent).exec engine with ⟨cause | bytes, opened⟩
  · rw [hprepare] at h hduring
    obtain ⟨-, rfl⟩ := Prod.mk.inj h
    exact iff_of_true hduring.undone (by rintro _ _ ⟨⟩)
  rw [hprepare] at h hduring
  have hcallbacks : opened.queue.HoldsCallbacks :=
    hduring.queue ▸ (ensureSendable_eq_ok_iff.1 (ready_of_exec_prepare hprepare).sendable).2
  have hopened := hduring.hooksSpareQueue hspare
  have hqueue := queue_withdrawQueued_eq_iff engine.tracker.nextId dependent bytes hturn hopened
    hcallbacks
  dsimp only at h
  split at h
  next => cases h
  next =>
    obtain ⟨-, rfl⟩ := Prod.mk.inj h
    rw [hduring.queue] at hqueue
    constructor
    · rintro hundone _ _ ⟨⟩
      exact hqueue.1 hundone.queue
    · intro hwaiting
      obtain ⟨hsize, hbatch⟩ := hwaiting bytes opened rfl
      refine ⟨hqueue.2 ⟨hsize, hbatch⟩, fun kind ↦ ?_⟩
      rw [← hduring.queue] at hsize hbatch
      exact Nat.le_trans (tracked_withdrawQueued _ _ _ hturn hopened hcallbacks hsize hbatch kind)
        (hduring.undone.tracked kind)

/-- Keeping an answer takes no calls. -/
theorem onlyDecides_keeper (label : String) : (keeper label).OnlyDecides :=
  rfl

/-- No callback of the batch makes calls, nor that of an older request. -/
theorem hooksIn_wrappingBatch (replies : List BulkOutReply) :
    HooksIn Hook.OnlyDecides [] (wrappingBatch replies) where
  queued := by simp [wrappingBatch, onlyDecides_keeper]
  tracked := by simp [wrappingBatch, onlyDecides_keeper]
  inHand := List.forall_mem_nil _
  vendor := by simp [wrappingBatch]

/-- A transfer that stalls after the answer to an older request has arrived. -/
def elsewhereThenStalled : BulkOutReply where
  early := [.bulkIn (.ok [0, 0, 0, 0, 7, 0, 1, 0, 0, 0, 0, 0])]
  error := some .stall

set_option maxRecDepth 1024 in
/-- The answer to an older request does not keep the batch from being undone. -/
theorem undone_wrappingBatch :
    let stalled := wrappingBatch [elsewhereThenStalled]
    let (result, after) := (submit Turn.application false).exec stalled
    result = .error (.transport .stall) ∧ after.answers.length = 1 ∧ stalled.Undone after := by
  have hfails : ((submit Turn.application false).exec (wrappingBatch [elsewhereThenStalled])).1 =
      .error (.transport .stall) := by
    decide +kernel
  have hspare := (hooksIn_wrappingBatch [elsewhereThenStalled]).hooksSpareQueue fun _ ↦
    sparesQueue_of_onlyDecides
  refine ⟨hfails, by decide +kernel,
    (submit_error_undone_iff Turn.ordinary_application hspare (Prod.ext hfails rfl)).2
      fun bytes opened hprepare ↦ ⟨by decide, ?_⟩⟩
  obtain rfl : _ = opened := congrArg Prod.snd hprepare
  -- The batch stands between the answer that was kept before and the one that came meanwhile.
  have hbatch : ((transferred Turn.application 65535 false bytes
      ((prepare Turn.application false).exec
        (wrappingBatch [elsewhereThenStalled])).2).tracker.requests.toList.drop 1).take 4 =
      ((wrappingBatch [elsewhereThenStalled]).queue.handOver 65535 false).1.toList := by
    with_unfolding_all rfl
  intro request hrequest
  replace hrequest := hbatch ▸ Array.mem_toList_iff.2 hrequest
  exact Array.mem_toList_iff.1 (List.mem_of_mem_drop (List.mem_of_mem_take hrequest))

/-- A session in which one command waits to be sent to a device that has room for it. -/
def oneRead (replies : List BulkOutReply) : Engine ScriptedTransport where
  transport :=
    { control := fun _ ↦ [{ data := some [0, 16, 0, 0] }]
      bulkOut := replies }
  tracker := { receiving := true }
  queue := ⟨#[
    { kind := .regular
      target := 8
      transfer := .read 4
      callback := some { label := "reader", keep := fun _ ↦ true } }]⟩
  pipes := { bulkInAttached := true }

/-- The only callback makes no calls. -/
theorem hooksIn_oneRead (replies : List BulkOutReply) :
    HooksIn Hook.OnlyDecides [] (oneRead replies) where
  queued := by
    simp only [oneRead, List.mem_toArray, List.mem_singleton]
    rintro _ rfl _ ⟨⟩
    rfl
  tracked := by simp [oneRead]
  inHand := List.forall_mem_nil _
  vendor := by simp [oneRead]

/-- A reply to a transfer that fails after the answer to its only command has arrived. -/
def answeredThenStalled : BulkOutReply where
  early := [.bulkIn (.ok [0, 0, 0, 0, 0, 0, 1, 0, 0, 0, 0, 0])]
  error := some .stall

/-- The request whose answer is kept stays tracked although its submission failed, and the command
has lost its callback, so that the queue cannot be sent again. -/
theorem not_undone_answered :
    let (result, after) := (submit Turn.application false).exec (oneRead [answeredThenStalled])
    result = .error (.transport .stall) ∧ ¬ (oneRead [answeredThenStalled]).Undone after ∧
      after.tracker.trackedCount = 1 ∧ after.queue.withoutCallback? = some 0 ∧
      ((submit Turn.application false).exec after).1 =
        .error (.validation (.missingCallback 0)) := by
  refine ⟨by decide +kernel, fun hundone ↦ ?_, by decide +kernel, by decide +kernel,
    by decide +kernel⟩
  have hlost := congrArg CommandQueue.withoutCallback? hundone.queue
  revert hlost
  decide +kernel

end I3cHost.Engine
