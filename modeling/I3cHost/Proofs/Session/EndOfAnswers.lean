import I3cHost.Proofs.BringUp.Actions
import I3cHost.Proofs.Session.AnyOrder
import I3cHost.Proofs.Session.Callbacks

/-!
# After the end of the answers

When no more answers can arrive, every request that waits is told that its transfer failed, in
tracking order, and those that are kept come behind all others (`exec_answerAll`). From then on
nothing is sent before polling for answers is started again, and nobody waits before something is
sent (`sinceEnd_after`). So submissions are refused until polling is started again, and also after
a start that fails (`refusesUntilRestart_after`), and answers are dropped until somebody waits for
them (`answers_ended`).
-/

namespace I3cHost.Engine

variable {τ : Type} {engine after : Engine τ} {before : List TransportCall}
  {old : List (TrackedRequest (Hook τ))} {restarted : Bool}

/-- The requests that wait, in tracking order. -/
def awaiting (engine : Engine τ) : List (TrackedRequest (Hook τ)) :=
  engine.tracker.requests.toList.filter (·.isPending)

/-- The requests that wait are tracked, and have no answer. -/
theorem mem_awaiting {request : TrackedRequest (Hook τ)} : request ∈ engine.awaiting ↔
    request ∈ engine.tracker.requests ∧ request.isPending = true := by
  rw [awaiting, List.mem_filter, Array.mem_toList_iff]

/-- Of calls made since no answers were received, a start of polling for answers comes with any
transfer and if answers are received, and a transfer if any request waits but the old ones. -/
structure OnlyAfterRestart (old : List (TrackedRequest (Hook τ))) (made : List TransportCall)
    (engine : Engine τ) : Prop where
  receiving : engine.tracker.receiving = true → ∃ size, .startBulkIn size ∈ made
  sent : ∀ bytes, .bulkOut bytes ∈ made → ∃ size, .startBulkIn size ∈ made
  waiting : ∀ request ∈ engine.tracker.requests, request.isPending = true →
    request ∈ old ∨ ∃ bytes, .bulkOut bytes ∈ made

namespace OnlyAfterRestart

variable {made : List TransportCall} (h : OnlyAfterRestart old made engine)

include h

/-- Without a start of polling no answers are received and nothing is sent. -/
theorem of_not_restarted (hstopped : ∀ size, .startBulkIn size ∉ made) :
    engine.tracker.receiving = false ∧ ∀ bytes, .bulkOut bytes ∉ made := by
  constructor
  · rw [← Bool.not_eq_true]
    intro hreceived
    obtain ⟨size, hsize⟩ := h.receiving hreceived
    exact hstopped size hsize
  · intro bytes hbytes
    obtain ⟨size, hsize⟩ := h.sent bytes hbytes
    exact hstopped size hsize

/-- Without a transfer nobody waits but those who did before. -/
theorem mem_old (hunsent : ∀ bytes, .bulkOut bytes ∉ made) :
    ∀ request ∈ engine.awaiting, request ∈ old := by
  intro request hrequest
  obtain ⟨htracked, hpending⟩ := mem_awaiting.1 hrequest
  obtain hold | ⟨bytes, hbytes⟩ := h.waiting request htracked hpending
  · exact hold
  · exact absurd hbytes (hunsent bytes)

end OnlyAfterRestart

/-- Since no answers were received, when some calls had been made and some requests waited, nothing
was sent before polling was started again, and nobody else waits before something is sent. If it is
said that polling was started again, then it was. -/
def SinceEnd (before : List TransportCall) (old : List (TrackedRequest (Hook τ)))
    (restarted : Bool) (engine : Engine τ) : Prop :=
  ∃ made, engine.trace.toList = before ++ made ∧
    (restarted = true → ∃ size, .startBulkIn size ∈ made) ∧ engine.OnlyAfterRestart old made

namespace SinceEnd

/-- When no answers are received. -/
theorem of_not_receiving (hreceiving : engine.tracker.receiving = false) :
    SinceEnd engine.trace.toList engine.awaiting false engine := by
  refine ⟨[], (List.append_nil _).symm, nofun, fun hreceived ↦ ?_, fun _ ↦ nofun,
    fun request hrequest hpending ↦ .inl (mem_awaiting.2 ⟨hrequest, hpending⟩)⟩
  cases hreceiving.symm.trans hreceived

/-- The same calls have been made, answers are received at most as before, and no request begins to
wait. -/
theorem mono (h : SinceEnd before old restarted engine) (htrace : after.trace = engine.trace)
    (hreceiving : after.tracker.receiving = true → engine.tracker.receiving = true)
    (hrequests : ∀ request ∈ after.tracker.requests, request.isPending = true →
      request ∈ engine.tracker.requests) : SinceEnd before old restarted after := by
  obtain ⟨made, hmade, hrestarted, honly⟩ := h
  exact ⟨made, htrace ▸ hmade, hrestarted, fun hreceived ↦ honly.receiving (hreceiving hreceived),
    honly.sent,
    fun request hrequest hpending ↦ honly.waiting request (hrequests _ hrequest hpending) hpending⟩

/-- Only the calls that were made and the tracker matter. -/
theorem of_same (h : SinceEnd before old restarted engine) (htrace : after.trace = engine.trace)
    (htracker : after.tracker = engine.tracker) : SinceEnd before old restarted after :=
  h.mono htrace (htracker ▸ id) fun _ hrequest _ ↦ htracker ▸ hrequest

/-- A call on the transport. Nothing is sent before polling has been started again. -/
theorem push (h : SinceEnd before old restarted engine) {record : TransportCall}
    (hrecord : record.transfer? = none ∨ restarted = true) (transport : τ) :
    SinceEnd before old restarted
      { engine with transport, trace := engine.trace.push record } := by
  obtain ⟨made, hmade, hrestarted, honly⟩ := h
  have hstays : (∃ size, .startBulkIn size ∈ made) → ∃ size, .startBulkIn size ∈ made ++ [record] :=
    fun ⟨size, hsize⟩ ↦ ⟨size, List.mem_append_left _ hsize⟩
  refine ⟨made ++ [record], ?_, fun hyes ↦ hstays (hrestarted hyes),
    fun hreceived ↦ hstays (honly.receiving hreceived), fun bytes hbytes ↦ ?_,
    fun request hrequest hpending ↦ ?_⟩
  · rw [Array.toList_push, hmade, List.append_assoc]
  · rcases List.mem_append.1 hbytes with hearlier | hnow
    · exact hstays (honly.sent bytes hearlier)
    · obtain rfl := List.mem_singleton.1 hnow
      rcases hrecord with hother | hyes
      · cases hother
      · exact hstays (hrestarted hyes)
  · exact (honly.waiting request hrequest hpending).imp_right fun ⟨bytes, hbytes⟩ ↦
      ⟨bytes, List.mem_append_left _ hbytes⟩

/-- A call that is no transfer, or any call once polling was started again. -/
theorem call [Transport τ] {α : Type} {record : TransportCall}
    (h : SinceEnd before old restarted engine)
    (hrecord : record.transfer? = none ∨ restarted = true)
    (operation : StateM τ (TransportResult α)) :
    SinceEnd before old restarted (Engine.call record operation engine).2 :=
  h.push hrecord _

/-- Answers are received only if polling was started again. -/
theorem of_receiving (h : SinceEnd before old restarted engine)
    (hreceiving : engine.tracker.receiving = true) : SinceEnd before old true engine := by
  obtain ⟨made, hmade, -, honly⟩ := h
  exact ⟨made, hmade, fun _ ↦ honly.receiving hreceiving, honly⟩

/-- That polling was started again need not be said. -/
theorem forget (h : SinceEnd before old true engine) : SinceEnd before old restarted engine := by
  obtain ⟨made, hmade, hrestarted, honly⟩ := h
  exact ⟨made, hmade, fun _ ↦ hrestarted rfl, honly⟩

/-- Posting an event is no call. -/
theorem post (h : SinceEnd before old restarted engine) (event : InitEvent) :
    SinceEnd before old restarted (Engine.post event engine).2 := by
  unfold Engine.post
  split
  · exact h.of_same rfl rfl
  · exact h

/-- Requests are tracked only for a transfer. -/
theorem trackQueued_sent [Transport τ] (h : SinceEnd before old true engine) (first : UInt16)
    (dependent : Bool) (bytes : Bytes) :
    SinceEnd before old true ((engine.trackQueued first dependent).sent bytes) := by
  obtain ⟨made, hmade, hrestarted, honly⟩ := h
  obtain ⟨size, hsize⟩ := hrestarted rfl
  have hagain : ∃ size, .startBulkIn size ∈ made ++ [.bulkOut bytes] :=
    ⟨size, List.mem_append_left _ hsize⟩
  refine ⟨made ++ [.bulkOut bytes], ?_, fun _ ↦ hagain, fun _ ↦ hagain, fun _ _ ↦ hagain,
    fun _ _ _ ↦ .inr ⟨bytes, List.mem_append_right _ List.mem_cons_self⟩⟩
  rw [trace_sent, Array.toList_push, ← List.append_assoc, ← hmade]
  rfl

end SinceEnd

/-- Initialization sends nothing to the bulk endpoint. -/
theorem permanent_sinceEnd : Permanent (SinceEnd before old restarted : Engine τ → Prop) where
  durable := {
    stable engine after hchange h := by
      cases hchange with
      | call transport record htransfer => exact h.push (.inl htransfer) transport
      | post event => exact h.post event
      | _ => exact h.of_same rfl rfl
    step engine after hstep h := by
      cases hstep with
      | call transport record htransfer => exact h.push (.inl htransfer) transport
      | _ => exact h.of_same rfl rfl }
  post event _ h := h.post event
  role _ _ h := h.of_same rfl rfl
  events _ _ h := h.of_same rfl rfl
  progress _ _ _ h := h.of_same rfl rfl

variable [Transport τ] {turn : Turn τ} {dependent : Bool}

section Calls

variable (hturn : ∀ restarted moment,
  EngineM.Preserves (SinceEnd before old restarted) (turn moment))

include hturn

/-- Polling for answers is started again, even if it ends at once. -/
theorem SinceEnd.startBulkIn (h : SinceEnd before old restarted engine) :
    SinceEnd before old restarted ((Engine.startBulkIn turn).exec engine).2 := by
  rw [exec_startBulkIn]
  split
  · exact h
  · obtain ⟨made, hmade, -, honly⟩ := h
    have hagain : ∃ size, .startBulkIn size ∈ made ++ [.startBulkIn engine.bulkInSize] :=
      ⟨_, List.mem_append_right _ List.mem_cons_self⟩
    have hcalled : SinceEnd before old true engine.pollAnswers.2 := by
      refine ⟨made ++ [.startBulkIn engine.bulkInSize], ?_, fun _ ↦ hagain, fun _ ↦ hagain,
        fun _ _ ↦ hagain, fun request hrequest hpending ↦ ?_⟩
      · rw [← List.append_assoc, ← hmade]
        exact Array.toList_push
      · exact (honly.waiting request hrequest hpending).imp_right fun ⟨bytes, hbytes⟩ ↦
          ⟨bytes, List.mem_append_left _ hbytes⟩
    have hwaited := hturn true .polling _ hcalled
    rcases hpoll : engine.pollAnswers with ⟨error | ⟨⟩, called⟩
    · rw [hpoll] at hwaited
      exact .forget (hwaited.mono rfl nofun fun _ hrequest _ ↦ hrequest)
    · rw [hpoll] at hwaited
      exact hwaited.forget

/-- A submission that is not refused at once was made after polling had been started again. -/
theorem SinceEnd.submit (h : SinceEnd before old restarted engine) :
    SinceEnd before old restarted ((Engine.submit turn dependent).exec engine).2 := by
  have hprepares (restarted : Bool) :
      EngineOp.Preserves (SinceEnd before old restarted) (prepare turn dependent) :=
    permanent_sinceEnd.stable.prepare (hturn restarted) dependent
  obtain ⟨error, refused, hprepare, hsubmit⟩ | ⟨bytes, opened, hprepare, hsubmit⟩ :=
    exec_submit_cases turn dependent engine
  · rw [hsubmit]
    exact (hprepares restarted).after h hprepare
  · have hopened : SinceEnd before old true opened :=
      (hprepares true).after (h.of_receiving (ready_of_exec_prepare hprepare).isReceiving) hprepare
    have htransferred : SinceEnd before old true
        (opened.transferred turn engine.tracker.nextId dependent bytes) :=
      hturn true .bulkOut _ (hopened.trackQueued_sent _ dependent bytes)
    rcases hsubmit with hsubmit | ⟨error, hsubmit⟩
    · rw [hsubmit]
      exact .forget (htransferred.mono rfl id fun _ hrequest _ ↦ hrequest)
    · rw [hsubmit]
      exact .forget (htransferred.mono rfl id fun _ hrequest _ ↦ (Array.mem_filter.1 hrequest).1)

omit hturn in
/-- While no answers are received, a vendor-specific request is refused before anything is asked of
the device. -/
theorem exec_submitVendor_of_ended (hreceiving : engine.tracker.receiving = false)
    (payload : Bytes) : (submitVendor turn payload).exec engine =
      (.error (.state .responsesNotReceived), engine) := by
  unfold submitVendor Tracker.ensureReceiving
  rw [EngineOp.exec_bind, EngineOp.exec_get]
  dsimp only
  rw [hreceiving, EngineOp.exec_bind]
  rfl

/-- A vendor-specific transfer is made only once answers are received again. -/
theorem SinceEnd.submitVendor (h : SinceEnd before old restarted engine) (payload : Bytes) :
    SinceEnd before old restarted ((Engine.submitVendor turn payload).exec engine).2 := by
  cases hreceiving : engine.tracker.receiving with
  | false =>
      rw [exec_submitVendor_of_ended hreceiving]
      exact h
  | true =>
      have hsubmitted : EngineOp.Preserves (SinceEnd before old true)
          (Engine.submitVendor turn payload) :=
        permanent_sinceEnd.stable.submitVendor (hturn true) payload
          fun _ _ _ hopened ↦ hopened.call (.inr rfl) _
      exact (hsubmitted engine (h.of_receiving hreceiving)).forget

/-- Every call of an application: it sends something only once answers are received again. -/
theorem sinceEnd_perform (call : Call (Hook τ) τ) :
    EngineM.Preserves (SinceEnd before old restarted) (perform turn call) := by
  intro engine h
  refine permanent_sinceEnd.stable.perform_cases (hturn restarted) h ?bringUp ?submitVendor ?enqueue
    ?clear ?submit ?takeRetained ?onVendor
  case bringUp =>
    exact fun _ ↦ permanent_sinceEnd.runBringUp (hturn restarted)
      fun _ hengine ↦ hengine.startBulkIn hturn
  case submitVendor => exact fun payload _ _ hengine ↦ hengine.submitVendor hturn payload
  case enqueue =>
    intro command copies _
    obtain ⟨accepted, -, heq, -⟩ := enqueueCopies_eq command copies engine
    rw [heq]
    exact h.of_same rfl rfl
  case clear => exact fun _ ↦ h.of_same rfl rfl
  case submit => exact fun dependent _ ↦ h.submit hturn
  case takeRetained =>
    intro id _
    unfold takeRetained
    split
    next response tracker htake =>
      refine h.mono rfl ?_ fun _ hother _ ↦ Tracker.mem_of_takeRetained htake hother
      obtain ⟨_, _, _, -, rfl, -⟩ := Tracker.takeRetained_eq_some htake
      exact fun hreceiving ↦ hreceiving
    next => exact h
  case onVendor => exact fun _ _ ↦ h.of_same rfl rfl

/-- Whatever completions come, and whatever hooks do. -/
theorem sustained_sinceEnd (restarted : Bool) :
    Sustained turn fun _ ↦ (SinceEnd before old restarted : Engine τ → Prop) where
  stable _ := permanent_sinceEnd.stable
  take {_ engine _ _ tracker} h htake := by
    refine h.mono rfl ?_ fun other hother _ ↦ (Tracker.mem_of_takePending htake).2 other hother
    obtain ⟨_, _, -, rfl, -⟩ := Tracker.takePending_eq_some htake
    exact id
  takeAll receiving hreceiving h :=
    h.mono rfl hreceiving fun _ hrequest _ ↦ (Array.mem_filter.1 hrequest).1
  answer {_ engine request response} _ h := by
    have hrun : SinceEnd before old restarted
        ((runHook turn request.callback response).exec engine).2 :=
      permanent_sinceEnd.stable.runHook (fun call _ ↦ sinceEnd_perform hturn call) response
        (fun _ h ↦ h.of_same rfl rfl) engine h
    refine hrun.mono rfl ?_ fun other hother hpending ↦ ?_
    · exact (Tracker.receiving_settle _ _ _ _).symm ▸ id
    · rcases Tracker.mem_of_mem_settle hother with htracked | rfl
      · exact htracked
      · cases hpending
  vendor _ payload :=
    permanent_sinceEnd.stable.resolveVendor (fun _ _ ↦ trivial) (fun h _ ↦ h.of_same rfl rfl)
      (fun _ _ call _ ↦ sinceEnd_perform hturn call) payload

end Calls

/-- Whatever happens after answers have ended, nothing is sent before polling is started again, and
nobody waits before something is sent. -/
theorem sinceEnd_after (h : SinceEnd before old false engine) (events : List (Event τ)) :
    SinceEnd before old false (engine.after events) := by
  have happlication (restarted : Bool) (moment : Moment) :
      EngineM.Preserves (SinceEnd before old restarted) ((Turn.application : Turn τ) moment) :=
    Sustained.application_all (P := fun restarted _ ↦ SinceEnd before old restarted)
      (fun _ hturn restarted ↦ sustained_sinceEnd (fun other ↦ hturn other []) restarted) restarted
      [] moment
  have hbusy : Sustained Turn.busy fun _ ↦ (SinceEnd before old false : Engine τ → Prop) :=
    sustained_sinceEnd (fun _ _ ↦ .pure _) false
  refine after_induction (P := fun _ ↦ SinceEnd before old false) h fun _ event _ _ hbefore ↦ ?_
  cases event with
  | call call => exact sinceEnd_perform happlication call _ hbefore
  | completion completion => exact hbusy.happen_completion completion _ hbefore
  | failure => exact hbusy.happen_failure _ hbefore

/-- While no answers are received, a submission is refused before anything is asked of the device.
-/
theorem exec_submit_of_ended (hreceiving : engine.tracker.receiving = false) (turn : Turn τ)
    (dependent : Bool) : ∃ error, (submit turn dependent).exec engine = (.error error, engine) := by
  rcases exec_prepare_cases turn dependent engine with ⟨error, hprepare⟩ | ⟨bytes, hready⟩
  · refine ⟨error, ?_⟩
    rw [exec_submit, hprepare]
  · cases hreceiving.symm.trans hready.isReceiving

/-- No answers are received, and submissions of any kind are refused before anything is asked of the
device. They leave the session as it is. -/
structure RefusesRequests (engine : Engine τ) : Prop where
  receiving : engine.tracker.receiving = false
  commands : ∀ (turn : Turn τ) (dependent : Bool), ∃ error,
    (submit turn dependent).exec engine = (.error error, engine)
  vendorSpecific : ∀ (turn : Turn τ) (payload : Bytes),
    (submitVendor turn payload).exec engine = (.error (.state .responsesNotReceived), engine)

/-- From one state to another nothing is sent, and submissions are refused in the end, unless
polling for answers is started in between. -/
def RefusesUntilRestart (start last : Engine τ) : Prop :=
  ∃ made, last.trace.toList = start.trace.toList ++ made ∧
    ((∀ size, .startBulkIn size ∉ made) →
      (∀ bytes, .bulkOut bytes ∉ made) ∧ last.RefusesRequests)

/-- While no answers are received, submissions are refused. -/
theorem refusesRequests (hreceiving : engine.tracker.receiving = false) :
    engine.RefusesRequests where
  receiving := hreceiving
  commands := exec_submit_of_ended hreceiving
  vendorSpecific _ := exec_submitVendor_of_ended hreceiving

/-- Once no answers are received, whatever happens, submissions are refused until polling is started
again. -/
theorem refusesUntilRestart_after (hreceiving : engine.tracker.receiving = false)
    (events : List (Event τ)) : engine.RefusesUntilRestart (engine.after events) := by
  obtain ⟨made, hmade, -, honly⟩ := sinceEnd_after (.of_not_receiving hreceiving) events
  refine ⟨made, hmade, fun hstopped ↦ ?_⟩
  obtain ⟨hdeaf, hunsent⟩ := honly.of_not_restarted hstopped
  exact ⟨hunsent, refusesRequests hdeaf⟩

/-- After a start of polling that fails no answers are received. -/
theorem receiving_of_startBulkIn_error {turn : Turn τ} {error : HostError}
    (h : (startBulkIn turn).exec engine = (.error error, after)) :
    after.tracker.receiving = false := by
  rw [exec_startBulkIn] at h
  split at h
  next => cases h
  next =>
    split at h
    next => cases h
    next =>
      obtain ⟨-, rfl⟩ := Prod.mk.inj h
      rfl

/-- Answers are dropped if nobody waits for them. -/
theorem exec_handleBulkIn_of_unawaited {bytes : Bytes} {responses : List CommandResponse}
    (hdecode : BulkResponse.decode bytes = .ok (.regular responses))
    (hnone : ∀ response ∈ responses, ∀ request ∈ engine.awaiting, request.id ≠ response.id)
    (turn : Turn τ) : (handleBulkIn turn (.ok bytes)).exec engine = ((), engine) := by
  have hresolve {response : CommandResponse} (hresponse : response ∈ responses) :
      (resolve turn response).exec engine = ((), engine) := by
    have htake : engine.tracker.takePending response.id = none := by
      cases htaken : engine.tracker.takePending response.id with
      | none => rfl
      | some taken =>
          obtain ⟨_, _, hrequests, -, hwaits, -⟩ := Tracker.takePending_eq_some htaken
          obtain ⟨hid, hpending⟩ := Bool.and_eq_true_iff.1 hwaits
          refine absurd (beq_iff_eq.1 hid) (hnone response hresponse taken.1 ?_)
          exact mem_awaiting.2 ⟨(Tracker.mem_of_takePending htaken).1, hpending⟩
    rw [resolve, EngineM.exec_bind, EngineM.exec_modifyGet, takePending, htake]
    rfl
  have hall : (responses.forM (resolve turn)).exec engine = ((), engine) := by
    clear hdecode hnone
    induction responses with
    | nil => rfl
    | cons response responses ih =>
        show ((resolve turn response >>= fun _ ↦ responses.forM (resolve turn)).exec engine) = _
        rw [EngineM.exec_bind, hresolve List.mem_cons_self]
        exact ih fun hother ↦ hresolve (List.mem_cons_of_mem _ hother)
  simp only [handleBulkIn, handleBulkResponse, hdecode]
  exact congrArg (fun after ↦ ((), after.2)) hall

/-- A request whose callback only decides has heard the answer, and is settled. Nothing else
happens. -/
theorem exec_answer_deciding {request : TrackedRequest (Hook τ)}
    (h : request.callback.OnlyDecides) (turn : Turn τ) (response : CommandResponse)
    (engine : Engine τ) :
    let last := ((answer turn request response).exec engine).2
    last.tracker = engine.tracker.settle request response (request.callback.keep response) ∧
      last.answers = engine.answers ++ request.callback.hears response ∧
      last.trace = engine.trace := by
  intro last
  have hlast : last = onTracker
      (·.settle request response (request.callback.keep response))
      (if request.callback.quiet then engine
        else report (.response request.callback.label response) engine) := by
    rw [← exec_runHook h response engine]
    rfl
  rw [hlast, Hook.hears]
  cases request.callback.quiet with
  | true => exact ⟨rfl, (List.append_nil _).symm, rfl⟩
  | false => exact ⟨rfl, answers_report _ response engine, rfl⟩

/-- Requests whose callbacks only decide hear one after the other that their transfers failed. Those
that are kept come behind all others in the same order. -/
theorem exec_answerAll {requests : List (TrackedRequest (Hook τ))}
    (h : ∀ request ∈ requests, request.callback.OnlyDecides) (turn : Turn τ) (engine : Engine τ) :
    let last := ((requests.forM fun request ↦
      answer turn request (.transportFailure request.id)).exec engine).2
    last.tracker.receiving = engine.tracker.receiving ∧
      last.tracker.requests.toList = engine.tracker.requests.toList ++
        (requests.filter fun request ↦
          request.callback.keep (.transportFailure request.id)).map (fun request ↦
            { request with response := some (.transportFailure request.id) }) ∧
      last.answers = engine.answers ++
        requests.flatMap (fun request ↦ request.callback.hears (.transportFailure request.id)) ∧
      last.trace = engine.trace := by
  induction requests generalizing engine with
  | nil => exact ⟨rfl, (List.append_nil _).symm, (List.append_nil _).symm, rfl⟩
  | cons request requests ih =>
      obtain ⟨hfirst, hothers⟩ := List.forall_mem_cons.1 h
      obtain ⟨htracker, hheard, htrace⟩ :=
        exec_answer_deciding hfirst turn (.transportFailure request.id) engine
      obtain ⟨hreceiving, hkept, hanswers, hsame⟩ :=
        ih hothers ((answer turn request (.transportFailure request.id)).exec engine).2
      refine ⟨hreceiving.trans ?_, hkept.trans ?_, hanswers.trans ?_, hsame.trans htrace⟩
      · rw [htracker, Tracker.receiving_settle]
      · rw [htracker, Tracker.settle, List.filter_cons]
        split
        · rw [Array.toList_push, List.map_cons, List.append_assoc, List.singleton_append]
        · rfl
      · rw [hheard, List.flatMap_cons, List.append_assoc]

/-- When the device is lost or the stream of answers is cancelled, everybody who waits is told, and
nobody waits any more. -/
theorem exec_handleBulkIn_ended {reason : TransportError}
    (hreason : reason = .disconnected ∨ reason = .cancelled)
    (hdecide : ∀ request ∈ engine.awaiting, request.callback.OnlyDecides) (turn : Turn τ) :
    let ended := ((handleBulkIn turn (.error reason)).exec engine).2
    ended.tracker.receiving = false ∧ ended.awaiting = [] ∧ ended.trace = engine.trace ∧
      ended.answers = engine.answers ++ engine.awaiting.flatMap (fun request ↦
        request.callback.hears (.transportFailure request.id)) ∧
      ended.tracker.requests.toList = engine.tracker.requests.toList.filter (!·.isPending) ++
        (engine.awaiting.filter fun request ↦
          request.callback.keep (.transportFailure request.id)).map (fun request ↦
            { request with response := some (.transportFailure request.id) }) := by
  intro ended
  let taken : Engine τ :=
    { engine with tracker := { engine.tracker.takeAllPending.2 with receiving := false } }
  have hended : ended = ((engine.awaiting.forM fun request ↦
      answer turn request (.transportFailure request.id)).exec taken).2 := by
    have hawaiting : engine.awaiting = (engine.tracker.requests.filter (·.isPending)).toList := by
      rw [Array.toList_filter, awaiting]
    rw [hawaiting]
    obtain rfl | rfl := hreason <;> rfl
  obtain ⟨hreceiving, hkept, hanswers, htrace⟩ := exec_answerAll hdecide turn taken
  rw [← hended] at hreceiving hkept hanswers htrace
  have hfront : taken.tracker.requests.toList =
      engine.tracker.requests.toList.filter (!·.isPending) :=
    Array.toList_filter
  rw [hfront] at hkept
  refine ⟨hreceiving, ?_, htrace, hanswers, hkept⟩
  rw [awaiting, hkept, List.filter_append, List.filter_filter, List.append_eq_nil_iff,
    List.filter_eq_nil_iff, List.filter_eq_nil_iff]
  refine ⟨fun request _ ↦ ?_, fun request hrequest ↦ ?_⟩
  · rw [Bool.and_not_self]
    exact Bool.false_ne_true
  · obtain ⟨_, -, rfl⟩ := List.mem_map.1 hrequest
    exact Bool.false_ne_true

/-- The device is lost or the stream of answers is cancelled, while callbacks of requests that wait
only decide. Then answers are no longer received and nobody waits: the callback of every request
that waited has heard, in tracking order, that its transfer failed, and nothing was asked of the
device. Requests that were kept before stay in front, and those that are kept now come behind them
with this answer. Whatever happens later, nothing is sent before polling for answers is started
again, and as long as it is not, every submission is refused and leaves the session as it is. The
same holds after a start of polling that fails. Nobody waits before something is sent, and answers
that nobody waits for change nothing. -/
theorem answers_ended {reason : TransportError}
    (hreason : reason = .disconnected ∨ reason = .cancelled)
    (hdecide : ∀ request ∈ engine.awaiting, request.callback.OnlyDecides) (turn : Turn τ)
    (later : List (Event τ)) :
    let failed (request : TrackedRequest (Hook τ)) : CommandResponse :=
      { id := request.id, attempted := false, status := .transportFailure, hasData := false
        data := [] }
    let ended := ((handleBulkIn turn (.error reason)).exec engine).2
    let last := ended.after later
    ended.tracker.receiving = false ∧ ended.awaiting = [] ∧ ended.trace = engine.trace ∧
    ended.answers = engine.answers ++
      engine.awaiting.flatMap (fun request ↦ request.callback.hears (failed request)) ∧
    ended.tracker.requests.toList = engine.tracker.requests.toList.filter (!·.isPending) ++
      (engine.awaiting.filter fun request ↦ request.callback.keep (failed request)).map
        (fun request ↦ { request with response := some (failed request) }) ∧
    ended.RefusesUntilRestart last ∧
    (∀ turn error refused, (startBulkIn turn).exec last = (.error error, refused) →
      ∀ more, refused.RefusesUntilRestart (refused.after more)) ∧
    (∃ made, last.trace.toList = ended.trace.toList ++ made ∧
      ((∀ bytes, .bulkOut bytes ∉ made) → last.awaiting = [])) ∧
    ∀ turn bytes responses, BulkResponse.decode bytes = .ok (.regular responses) →
      (∀ response ∈ responses, ∀ request ∈ last.awaiting, request.id ≠ response.id) →
      (handleBulkIn turn (.ok bytes)).exec last = ((), last) := by
  intro failed ended last
  obtain ⟨hreceiving, hnone, htrace, hanswers, hkept⟩ :=
    exec_handleBulkIn_ended hreason hdecide turn
  have hrefuses : ended.RefusesUntilRestart last := refusesUntilRestart_after hreceiving later
  obtain ⟨made, hmade, -, honly⟩ := sinceEnd_after (.of_not_receiving hreceiving) later
  refine ⟨hreceiving, hnone, htrace, hanswers, hkept, hrefuses, ?_, ⟨made, hmade, fun hunsent ↦ ?_⟩,
    ?_⟩
  · intro turn error refused hfails
    exact refusesUntilRestart_after (receiving_of_startBulkIn_error hfails)
  · -- Nobody waited when the answers ended.
    refine List.eq_nil_iff_forall_not_mem.2 fun request hrequest ↦ ?_
    have hold := honly.mem_old hunsent request hrequest
    rw [hnone] at hold
    cases hold
  · intro turn bytes responses hdecode hunawaited
    exact exec_handleBulkIn_of_unawaited hdecode hunawaited turn

/-- A session in which a command waits to be sent, an answer was kept, and two requests wait under
one identifier. The callback of the first keeps it. Polling for answers cannot be started. -/
def severed : Engine ScriptedTransport where
  transport := { startBulkIn := [{ error := some .disconnected }] }
  tracker :=
    { requests :=
        #[{ id := 1, dependent := false, callback := { label := "earlier" }
            response := some (bareAnswer 1) },
          { id := 1, dependent := false, callback := { label := "keeper", keep := fun _ ↦ true } },
          { id := 1, dependent := true, callback := { label := "forgetful" } }]
      receiving := true }
  queue := ⟨#[reader]⟩
  pipes := { bulkInAttached := true }

/-- A submission is refused after the end of the answers, and another after polling could not be
started. -/
theorem answers_ended_severed :
    let ended := ((handleBulkIn Turn.busy (.error .cancelled)).exec severed).2
    let last := ended.after [.call (.submit false)]
    let refused := ((startBulkIn Turn.application).exec last).2
    (∀ request ∈ severed.awaiting, request.callback.OnlyDecides) ∧
    ended.answers = [("keeper", .transportFailure 1), ("forgetful", .transportFailure 1)] ∧
    ended.tracker.records =
      [⟨1, false, some (bareAnswer 1)⟩, ⟨1, false, some (.transportFailure 1)⟩] ∧
    last.RefusesRequests ∧ refused.trace = #[.startBulkIn 8192] ∧
    (refused.after [.call (.submit true)]).RefusesRequests ∧
    (handleBulkIn Turn.busy (.ok [0, 0, 0, 0, 1, 0, 1, 0, 0, 0, 0, 0])).exec last = ((), last) := by
  intro ended last refused
  have hdecide : ∀ request ∈ severed.awaiting, request.callback.OnlyDecides := by
    simp [severed, awaiting, TrackedRequest.isPending, Hook.OnlyDecides]
  have hlast : last.trace.toList = [] := by decide +kernel
  have hended : ended.trace.toList = [] := by decide +kernel
  have hrefused : refused.trace = #[.startBulkIn 8192] := by decide +kernel
  have hagain : (refused.after [.call (.submit true)]).trace = #[.startBulkIn 8192] := by
    decide +kernel
  have hfails : ((startBulkIn Turn.application).exec last).1 =
      .error (.transport .disconnected) := by
    decide +kernel
  obtain ⟨-, -, -, hanswers, -, ⟨first, hfirst, hstopped⟩, hrestart, ⟨made, hmade, hnone⟩,
    hdropped⟩ := answers_ended (.inr rfl) hdecide Turn.busy [.call (.submit false)]
  obtain ⟨second, hsecond, hstill⟩ :=
    hrestart Turn.application _ refused (Prod.ext hfails rfl) [.call (.submit true)]
  -- Nothing at all is asked of the device by the submissions.
  obtain rfl : first = [] := (List.append_eq_nil_iff.1 (hfirst.symm.trans hlast)).2
  obtain rfl : made = [] := (List.append_eq_nil_iff.1 (hmade.symm.trans hlast)).2
  obtain rfl : second = [] := by
    rw [hagain, hrefused] at hsecond
    exact List.self_eq_append_right.1 hsecond
  refine ⟨hdecide, hanswers, by decide +kernel, (hstopped fun _ ↦ List.not_mem_nil).2, hrefused,
    (hstill fun _ ↦ List.not_mem_nil).2,
    hdropped Turn.busy _ [bareAnswer 1] (by rfl) fun _ _ request hrequest ↦ ?_⟩
  rw [hnone fun _ ↦ List.not_mem_nil] at hrequest
  cases hrequest

end I3cHost.Engine
