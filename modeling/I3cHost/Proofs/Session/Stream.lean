import I3cHost.Proofs.Session.History
import I3cHost.Proofs.Submission.Disturbed
import I3cHost.Transport.Scripted

/-!
# When the stream of answers ends

The end of the stream fails every request that waits, and nothing is submitted after it, so nobody
should wait for ever (`NoneStranded`). But a submission makes sure that answers are received before
it asks the device for room, and not again before it tracks its requests. If the stream ends in
between, the requests are tracked and sent all the same, and stay without an answer.
-/

namespace I3cHost

namespace Engine

variable {τ : Type} {engine after : Engine τ}

/-- No request waits for an answer unless answers are received. -/
def NoneStranded (engine : Engine τ) : Prop :=
  engine.tracker.receiving = false → ∀ request ∈ engine.tracker.requests, request.isPending = false

/-- As long as answers are received no request is stranded. -/
theorem noneStranded_of_receiving (h : engine.tracker.receiving = true) : engine.NoneStranded :=
  fun hnot ↦ absurd (h.symm.trans hnot) nofun

/-- No request is stranded by changes that end no stream and add no request that waits. -/
theorem NoneStranded.mono (h : engine.NoneStranded)
    (hreceiving : after.tracker.receiving = engine.tracker.receiving)
    (hrequests : ∀ request ∈ after.tracker.requests, request.isPending = true →
      request ∈ engine.tracker.requests) : after.NoneStranded := by
  intro hnot request hrequest
  rw [← Bool.not_eq_true]
  intro hpending
  have hanswered := h (hreceiving ▸ hnot) request (hrequests request hrequest hpending)
  rw [hpending] at hanswered
  cases hanswered

/-- Whether a request is stranded depends on the tracker. -/
theorem ofAccount_noneStranded : OfAccount (NoneStranded : Engine τ → Prop) := by
  intro before after haccount h
  simp only [account, ledger, Prod.mk.injEq] at haccount
  obtain ⟨⟨-, -, hrequests, -⟩, hreceiving, -⟩ := haccount
  exact h.mono hreceiving fun request hrequest _ ↦ hrequests ▸ hrequest

/-- Taking an answer strands no request. -/
theorem noneStranded_takeRetained (h : engine.NoneStranded) (id : UInt16) :
    (takeRetained id engine).2.NoneStranded := by
  unfold takeRetained
  split
  next response tracker htake =>
    have hreceiving : tracker.receiving = engine.tracker.receiving := by
      obtain ⟨_, _, _, -, rfl, -⟩ := Tracker.takeRetained_eq_some htake
      rfl
    exact h.mono hreceiving fun _ hother _ ↦ Tracker.mem_of_takeRetained htake hother
  next => exact h

variable [Transport τ] {turn : Turn τ} {dependent : Bool}

/-- Polling that could not be started receives no answers, but nothing was submitted meanwhile. -/
theorem noneStranded_startBulkIn (hidle : ∀ engine, ((turn .polling).exec engine).2 = engine) :
    EngineOp.Preserves NoneStranded (startBulkIn turn) := by
  intro engine h
  show NoneStranded (EngineOp.exec (startBulkIn turn) engine).2
  unfold startBulkIn
  rw [EngineOp.exec_bind, EngineOp.exec_get]
  dsimp only
  split
  next => exact h
  next hreceiving =>
    have hnone := h (Bool.not_eq_true _ ▸ hreceiving)
    simp only [EngineOp.exec_bind, EngineOp.exec_modify, EngineOp.exec_modifyGet,
      EngineOp.exec_liftM, hidle]
    split
    next => exact fun _ ↦ hnone
    next => exact noneStranded_of_receiving rfl

/-- Answers are still received once the device has reported that it has room. -/
def StreamLasts (turn : Turn τ) (dependent : Bool) (engine : Engine τ) : Prop :=
  ∀ bytes opened, (prepare turn dependent).exec engine = (.ok bytes, opened) →
    opened.tracker.receiving = true

/-- Nothing ends the stream while the event thread is busy. -/
theorem streamLasts_busy (dependent : Bool) (engine : Engine τ) :
    engine.StreamLasts Turn.busy dependent := by
  intro bytes opened hprepare
  have hready := ready_of_exec_prepare hprepare
  rw [hready.exec_prepare] at hprepare
  obtain ⟨-, rfl⟩ := Prod.mk.inj hprepare
  exact hready.isReceiving

section Submission

variable (hturn : ∀ moment, EngineM.Preserves NoneStranded (turn moment))

include hturn

/-- A submission strands nobody if the stream does not end before its requests are tracked. -/
theorem noneStranded_submit (h : engine.NoneStranded) (hlasts : engine.StreamLasts turn dependent) :
    ((submit turn dependent).exec engine).2.NoneStranded := by
  apply ofAccount_noneStranded.permanent.stable.submit hturn h
  · intro bytes opened hprepare _
    exact noneStranded_of_receiving (hlasts bytes opened hprepare)
  · exact fun _ _ _ htracked ↦ htracked
  · intro bytes opened _ htransferred
    exact htransferred.mono rfl fun _ hrequest _ ↦ hrequest
  · intro bytes opened _ htransferred
    exact htransferred.mono rfl fun _ hrequest _ ↦ (Array.mem_filter.1 hrequest).1

/-- A call strands nobody, provided that the stream lasts if the call is a submission. -/
theorem noneStranded_perform {call : Call (Hook τ) τ}
    (hpolling : call = .bringUp → EngineOp.Preserves NoneStranded (startBulkIn turn))
    (h : engine.NoneStranded)
    (hlasts : ∀ dependent, call = .submit dependent → engine.StreamLasts turn dependent) :
    ((perform turn call).exec engine).2.NoneStranded := by
  refine ofAccount_noneStranded.perform_cases hturn h hpolling ?enqueue ?clear ?submit ?takeRetained
    ?onVendor
  case enqueue =>
    intro command copies _
    obtain ⟨accepted, -, heq, -⟩ := enqueueCopies_eq command copies engine
    rw [heq]
    exact h
  case clear => exact fun _ ↦ h
  case submit => exact fun dependent hcall ↦ noneStranded_submit hturn h (hlasts dependent hcall)
  case takeRetained => exact fun id _ ↦ noneStranded_takeRetained h id
  case onVendor => exact fun _ _ ↦ h

end Submission

/-- Whatever a hook does, nothing ends the stream meanwhile. -/
theorem noneStranded_perform_busy (call : Call (Hook τ) τ) :
    EngineM.Preserves NoneStranded (perform Turn.busy call) := by
  intro engine h
  have hpolling : EngineOp.Preserves NoneStranded (startBulkIn (Turn.busy : Turn τ)) :=
    noneStranded_startBulkIn fun _ ↦ rfl
  exact noneStranded_perform (fun _ ↦ .pure _) (fun _ ↦ hpolling) h
    fun dependent _ ↦ streamLasts_busy dependent engine

/-- Dealing with completions strands nobody: the end of the stream fails all requests that wait. -/
theorem sustained_noneStranded :
    Sustained Turn.busy fun _ ↦ (NoneStranded : Engine τ → Prop) where
  stable _ := ofAccount_noneStranded.permanent.stable
  take {_ engine _ _ tracker} h htake := by
    have hreceiving : tracker.receiving = engine.tracker.receiving := by
      obtain ⟨_, _, -, rfl, -⟩ := Tracker.takePending_eq_some htake
      rfl
    exact h.mono hreceiving fun other hother _ ↦ (Tracker.mem_of_takePending htake).2 other hother
  takeAll receiving _ _ := by
    intro _ request hrequest
    simpa using (Array.mem_filter.1 hrequest).2
  answer {_ engine request response} _ h := by
    have hrun : ((runHook Turn.busy request.callback response).exec engine).2.NoneStranded :=
      ofAccount_noneStranded.permanent.stable.runHook
        (fun call _ ↦ noneStranded_perform_busy call) response (fun _ ↦ id) engine h
    refine hrun.mono (Tracker.receiving_settle _ _ _ _) fun other hother hpending ↦ ?_
    -- The request comes back at most together with its answer.
    rcases Tracker.mem_of_mem_settle hother with htracked | rfl
    · exact htracked
    · cases hpending
  vendor _ payload :=
    ofAccount_noneStranded.permanent.stable.resolveVendor (fun _ _ ↦ trivial) (fun h _ ↦ h)
      (fun _ _ call _ ↦ noneStranded_perform_busy call) payload

/-- A call of the application strands nobody, provided that the stream lasts if the call is a
submission, and that initialization hands out no completion before polling has started. -/
theorem noneStranded_call {call : Call (Hook τ) τ}
    (hpolling : call = .bringUp → ∀ transport : τ, Transport.next? .polling transport = none)
    (h : engine.NoneStranded) (hlasts : ∀ dependent, call = .submit dependent →
      engine.StreamLasts Turn.application dependent) :
    ((Session.call call).exec engine).2.NoneStranded := by
  have hwaiting (moment : Moment) :
      EngineM.Preserves NoneStranded ((Turn.waiting : Turn τ) moment) :=
    sustained_noneStranded.waiting [] moment
  by_cases hcall : call = .bringUp
  · have hidle : ∀ engine : Engine τ, ((Turn.application .polling).exec engine).2 = engine :=
      fun engine ↦ deliver_of_none _ (hpolling hcall engine.transport)
    have happlication (moment : Moment) :
        EngineM.Preserves NoneStranded ((Turn.application : Turn τ) moment) := by
      cases moment with
      | polling => exact fun engine h ↦ (hidle engine).symm ▸ h
      | _ => exact hwaiting _
    exact noneStranded_perform happlication (fun _ ↦ noneStranded_startBulkIn hidle) h hlasts
  · -- Only initialization starts polling, so the event thread deals with all completions.
    have heq : perform Turn.application call = perform Turn.waiting call := by
      cases call <;> first | rfl | exact absurd rfl hcall
    show ((perform Turn.application call).exec engine).2.NoneStranded
    rw [heq]
    refine noneStranded_perform hwaiting (fun h ↦ absurd h hcall) h fun dependent hsubmit ↦ ?_
    exact hlasts dependent hsubmit

/-- If the stream has ended by the time the device has reported that it has room, and the device
accepts the transfer, then the requests of the submission are stranded. -/
theorem stranded_submit (hturn : turn.Ordinary) (hspare : engine.HooksSpareQueue) {bytes : Bytes}
    {opened : Engine τ} (hprepare : (prepare turn dependent).exec engine = (.ok bytes, opened))
    (hended : opened.tracker.receiving = false)
    (haccepted : (opened.trackQueued engine.tracker.nextId dependent).acceptance bytes = .ok ())
    (hidle : Transport.next? .bulkOut
      ((opened.trackQueued engine.tracker.nextId dependent).sent bytes).transport = none) :
    ¬ ((submit turn dependent).exec engine).2.NoneStranded := by
  have hduring := during_prepare hturn dependent hspare
  rw [hprepare] at hduring
  have hsendable := (ready_of_exec_prepare hprepare).sendable
  rw [← hduring.queue] at hsendable
  obtain ⟨hnonempty, hcallbacks⟩ := ensureSendable_eq_ok_iff.1 hsendable
  have hpositive : 0 < opened.queue.commands.size := by
    simpa [CommandQueue.isEmpty, Array.size_pos_iff] using hnonempty
  obtain ⟨callback, hcallback⟩ :=
    hcallbacks.exists_callback (Array.getElem?_eq_getElem hpositive)
  have hbatch := (CommandQueue.mem_handOver hcallbacks engine.tracker.nextId dependent).2
    ⟨0, _, callback, Array.getElem?_eq_getElem hpositive, hcallback, rfl⟩
  rw [exec_submit, hprepare]
  simp only [haccepted, transferred, hturn.idle (.inr rfl) hidle]
  intro hnone
  -- The request for the first command waits, and nothing has answered it.
  have hanswered := hnone hended _ (Array.mem_append_right opened.tracker.requests hbatch)
  cases hanswered

/-- After any history in which no stream ends between a submission's first check and its tracking,
and no completion is handed out before polling has started, nobody is stranded. If the stream does
end there in the next submission, the requests of that are, unless they are answered still. -/
theorem noneStranded_after {events : List (Event τ)} (h : engine.NoneStranded)
    (hpolling : .call .bringUp ∈ events → ∀ transport : τ,
      Transport.next? .polling transport = none)
    (hlasts : ∀ before dependent later, events = before ++ .call (.submit dependent) :: later →
      (engine.after before).StreamLasts Turn.application dependent) :
    (engine.after events).NoneStranded ∧
      ∀ dependent bytes opened, (engine.after events).HooksSpareQueue →
        (prepare Turn.application dependent).exec (engine.after events) = (.ok bytes, opened) →
        opened.tracker.receiving = false →
        let tracked := opened.trackQueued (engine.after events).tracker.nextId dependent
        tracked.acceptance bytes = .ok () →
        Transport.next? .bulkOut (tracked.sent bytes).transport = none →
        ¬ (engine.after (events ++ [.call (.submit dependent)])).NoneStranded := by
  constructor
  · refine after_induction (P := fun _ ↦ NoneStranded) h
      fun before event later hevents hbefore ↦ ?_
    cases event with
    | call request =>
        refine noneStranded_call ?_ hbefore ?_
        · rintro rfl
          exact hpolling (hevents ▸ List.mem_append_right before List.mem_cons_self)
        · rintro dependent rfl
          exact hlasts before dependent later hevents
    | completion completion => exact sustained_noneStranded.happen_completion completion _ hbefore
    | failure => exact sustained_noneStranded.happen_failure _ hbefore
  · intro dependent bytes opened hspare hprepare hended tracked haccepted hidle
    have hstranded := stranded_submit Turn.ordinary_application hspare hprepare hended haccepted
      hidle
    rw [← exec_perform_submit] at hstranded
    rw [after_concat]
    exact hstranded

end Engine

namespace Engine

variable {τ : Type}

instance (engine : Engine τ) : Decidable engine.NoneStranded :=
  inferInstanceAs (Decidable (_ → ∀ request ∈ engine.tracker.requests, _))

/-- A queue in which one command waits to be sent. -/
def singleRead : CommandQueue (Hook τ) :=
  ⟨#[reader]⟩

/-- A session in which one command waits to be sent, to a device that has room for it. -/
def roomy (meanwhile : List Completion) : Engine RoomyTransport where
  transport := { meanwhile }
  tracker := { receiving := true }
  queue := singleRead
  pipes := { bulkInAttached := true }

/-- The end of the stream after a submission strands nothing. -/
theorem noneStranded_roomy :
    ((roomy []).after [.call .bringUp, .call (.submit false),
      .completion (.bulkIn (.error .cancelled))]).NoneStranded := by
  refine (noneStranded_after (noneStranded_of_receiving rfl) (fun _ _ ↦ rfl) ?_).1
  intro before dependent later hevents
  -- The only submission comes second.
  obtain ⟨rfl, rfl⟩ : before = [.call .bringUp] ∧ dependent = false := by
    rcases before with _ | ⟨first, _ | ⟨second, _ | ⟨third, rest⟩⟩⟩ <;> simp_all
  intro bytes opened hprepare
  have hreceiving : ((prepare Turn.application false).exec
      ((roomy []).after [.call .bringUp])).2.tracker.receiving = true := by
    decide +kernel
  rwa [hprepare] at hreceiving

/-- A session in which one command waits to be sent, and so does the hook for vendor-specific
transfers for one to send it. Such a transfer comes while polling is started, in vain. -/
def refusedPolling : Engine ScriptedTransport where
  transport :=
    { control := fun
        | .getBufferAvailable => [{ data := some [0, 16, 0, 0] }]
        | .getI3cCapability =>
            [{ data := some [16, 0, 1, 0, 1, 1, 1, 0, 6, 0, 0, 0, 32, 0, 0, 0] }]
        | _ => []
      startBulkIn :=
        [{ during := [.bulkIn (.ok [2, 0, 0, 0, 1, 2, 3, 4])], error := some .disconnected }] }
  vendorHook := some { label := "vendor", followUp := [.submit false] }
  queue := singleRead

/-- A request is stranded if the stream ends while the device is asked for room, and also if it is
submitted while polling is started in vain. -/
theorem stranded_cancelled_refused :
    ¬ ((roomy [.bulkIn (.error .cancelled)]).after [.call (.submit false)]).NoneStranded ∧
      ¬ (refusedPolling.after [.call .bringUp]).NoneStranded := by
  constructor
  · decide +kernel
  · decide +kernel

end Engine

end I3cHost
