import I3cHost.Proofs.Bulk.Malformed
import I3cHost.Proofs.Session.History
import I3cHost.Proofs.Submission.Early
import I3cHost.Proofs.Tracker.Resolution

/-!
# Answers in any order

A device may put its answers into transfers as it likes. While callbacks leave the tracked requests
alone and no two requests wait under one identifier, it does not matter for the tracked requests in
which order answers with different identifiers come and how they are split into transfers
(`received_perm`). A transfer that is malformed anywhere does nothing at all.
-/

namespace I3cHost

/-- Whether a call leaves the tracked requests alone. -/
def Call.sparesRequests {κ τ : Type} : Call κ τ → Bool
  | .submit _ => false
  | .takeRetained _ => false
  | _ => true

/-- A hook decides by the answer it hears whether the request is kept, and its calls leave the
tracked requests alone. -/
def Hook.SparesRequests {τ : Type} (hook : Hook τ) : Prop :=
  ∀ call ∈ hook.followUp, call.sparesRequests = true

/-- What is reported when a hook hears an answer. -/
def Hook.hears {τ : Type} (hook : Hook τ) (response : CommandResponse) :
    List (String × CommandResponse) :=
  if hook.quiet then [] else [(hook.label, response)]

/-- Transfers carry answers if these were split into groups in any way and order, and each group was
written as one transfer. -/
def CarryAnswers (transfers : List Bytes) (responses : List CommandResponse) : Prop :=
  ∃ groups : List (List CommandResponse), groups.flatten.Perm responses ∧
    List.Forall₂ (fun group bytes ↦
      Message.toBytes (.regular group : BulkResponse) = .ok bytes) groups transfers

namespace Engine

variable {τ : Type} {engine : Engine τ} {hook : Hook τ} {response : CommandResponse}
  {responses : List CommandResponse}

/-- The callback that is called with an answer, if a request waits for it. -/
def calledWith (response : CommandResponse) (engine : Engine τ) :
    List (Hook τ × CommandResponse) :=
  ((engine.takePending response.id).1.map (·.callback, response)).toList

/-- Every request that is tracked has a callback that leaves the tracked requests alone. -/
def CallbacksSpareRequests (engine : Engine τ) : Prop :=
  ∀ request ∈ engine.tracker.requests, request.callback.SparesRequests

variable [Transport τ]

/-- The callbacks that are called with answers, one after the other. -/
def calledWithAll : List CommandResponse → Engine τ → List (Hook τ × CommandResponse)
  | [], _ => []
  | response :: responses, engine =>
      engine.calledWith response ++
        ((resolve Turn.busy response).exec engine).2.calledWithAll responses

/-- The callbacks that are called because of transfers, one after the other. -/
def calledBy : List Bytes → Engine τ → List (Hook τ × CommandResponse)
  | [], _ => []
  | bytes :: transfers, engine =>
      (match BulkResponse.decode bytes with
        | .ok (.regular responses) => engine.calledWithAll responses
        | _ => []) ++ ((handleBulkIn Turn.busy (.ok bytes)).exec engine).2.calledBy transfers

/-- The state after transfers have been dealt with. -/
def received (transfers : List Bytes) (engine : Engine τ) : Engine τ :=
  ((receive (transfers.map .ok)).exec engine).2

/-- The calls of a hook leave the tracked requests alone, and so is what was heard. -/
theorem follow_sparesRequests (h : hook.SparesRequests) (engine : Engine τ) :
    ((follow Turn.busy hook).exec engine).2.tracker.requests = engine.tracker.requests ∧
      ((follow Turn.busy hook).exec engine).2.answers = engine.answers := by
  have haccount : OfAccount fun after : Engine τ ↦
      after.tracker.requests = engine.tracker.requests ∧ after.answers = engine.answers := by
    intro before after haccount h
    simp only [account, ledger, Prod.mk.injEq] at haccount
    exact ⟨haccount.1.2.2.1.trans h.1, haccount.2.2.trans h.2⟩
  refine haccount.permanent.stable.follow (fun call hcall before hbefore ↦ ?_) engine ⟨rfl, rfl⟩
  have hspares := h call hcall
  have hbusy (moment : Moment) : EngineM.Preserves (fun after : Engine τ ↦
      after.tracker.requests = engine.tracker.requests ∧ after.answers = engine.answers)
      (Turn.busy moment) :=
    .pure _
  refine haccount.perform_cases hbusy hbefore ?polling ?enqueue ?clear ?submit ?takeRetained
    ?onVendor
  case polling =>
    exact fun _ ↦ haccount.permanent.durable.startBulkIn hbusy fun _ _ hengine ↦ hengine
  case enqueue =>
    intro command copies _
    obtain ⟨accepted, -, heq, -⟩ := enqueueCopies_eq command copies before
    rw [heq]
    exact hbefore
  case clear => exact fun _ ↦ hbefore
  case submit => rintro _ rfl; cases hspares
  case takeRetained => rintro _ rfl; cases hspares
  case onVendor => exact fun _ _ ↦ hbefore

/-- Such a hook leaves the tracked requests alone, and hears the answer. -/
theorem exec_runHook_sparing (h : hook.SparesRequests) (response : CommandResponse)
    (engine : Engine τ) :
    ((runHook Turn.busy hook response).exec engine).2.tracker.requests =
        engine.tracker.requests ∧
      ((runHook Turn.busy hook response).exec engine).2.answers =
        engine.answers ++ hook.hears response := by
  unfold runHook Hook.hears
  split
  · rw [List.append_nil]
    exact follow_sparesRequests h engine
  · have hfollow := follow_sparesRequests h (report (.response hook.label response) engine)
    rwa [answers_report] at hfollow

/-- A request that is answered comes back behind all others if its callback keeps it. -/
theorem exec_answer {request : TrackedRequest (Hook τ)} (h : request.callback.SparesRequests)
    (hwaits : request.waitsUnder response.id = true) (engine : Engine τ) :
    ((answer Turn.busy request response).exec engine).2.tracker.requests.toList =
        engine.tracker.requests.toList ++ request.left Hook.keep [response] ∧
      ((answer Turn.busy request response).exec engine).2.answers =
        engine.answers ++ request.callback.hears response := by
  obtain ⟨hrequests, hanswers⟩ := exec_runHook_sparing h response engine
  refine ⟨?_, hanswers⟩
  rw [TrackedRequest.left, TrackedRequest.reply_cons_self hwaits, ← hrequests]
  simp only [answer, EngineM.exec_bind, EngineM.exec_modify, onTracker, Tracker.settle]
  split <;> simp

/-- An answer that no request waits for is dropped. -/
theorem resolve_of_none (h : engine.tracker.takePending response.id = none) :
    engine.calledWith response = [] ∧
      ((resolve Turn.busy response).exec engine).2 = engine := by
  rw [calledWith, resolve, EngineM.exec_bind, EngineM.exec_modifyGet, takePending, h]
  exact ⟨rfl, rfl⟩

/-- An answer is handed to the request that is taken out for it. -/
theorem resolve_of_some {request : TrackedRequest (Hook τ)} {tracker : Tracker (Hook τ)}
    (h : engine.tracker.takePending response.id = some (request, tracker)) :
    engine.calledWith response = [(request.callback, response)] ∧
      ((resolve Turn.busy response).exec engine).2 =
        ((answer Turn.busy request response).exec { engine with tracker }).2 := by
  rw [calledWith, resolve, EngineM.exec_bind, EngineM.exec_modifyGet, takePending, h]
  exact ⟨rfl, rfl⟩

/-- An answer is dealt with as if its callback did nothing but decide. -/
theorem resolves_exec (h : engine.CallbacksSpareRequests) (response : CommandResponse) :
    Resolves Hook.keep response engine.tracker.requests.toList (engine.calledWith response)
        ((resolve Turn.busy response).exec engine).2.tracker.requests.toList ∧
      ((resolve Turn.busy response).exec engine).2.answers =
        engine.answers ++ (engine.calledWith response).flatMap fun call ↦ call.1.hears call.2 := by
  cases htake : engine.tracker.takePending response.id with
  | none =>
      obtain ⟨hcalled, hafter⟩ := resolve_of_none htake
      rw [hcalled, hafter]
      refine ⟨.dropped fun request hrequest ↦ ?_, (List.append_nil _).symm⟩
      rw [← Bool.not_eq_true, TrackedRequest.waitsUnder, Bool.and_eq_true, beq_iff_eq]
      rintro ⟨hid, hpending⟩
      obtain ⟨_, _, hfound⟩ :=
        Tracker.exists_takePending (Array.mem_toList_iff.1 hrequest) hpending
      rw [hid, htake] at hfound
      cases hfound
  | some taken =>
      obtain ⟨request, tracker⟩ := taken
      obtain ⟨hcalled, hafter⟩ := resolve_of_some htake
      obtain ⟨hrequest, -⟩ := Tracker.mem_of_takePending htake
      obtain ⟨front, back, hrequests, rfl, hwaits, hfront⟩ := Tracker.takePending_eq_some htake
      have hsame : request.called [response] = [(request.callback, response)] := by
        rw [TrackedRequest.called, TrackedRequest.reply_cons_self hwaits]
        rfl
      obtain ⟨hleft, hanswers⟩ := exec_answer (h request hrequest) hwaits
        { engine with tracker := { engine.tracker with requests := (front ++ back).toArray } }
      rw [hcalled, hafter]
      constructor
      · rw [hleft, hrequests, ← hsame]
        exact .handed hfront hwaits
      · rw [hanswers, List.flatMap_singleton]
        rfl

/-- Requests that are kept keep their callbacks. -/
theorem CallbacksSpareRequests.resolve (h : engine.CallbacksSpareRequests)
    (response : CommandResponse) :
    ((Engine.resolve Turn.busy response).exec engine).2.CallbacksSpareRequests := by
  intro request hrequest
  obtain ⟨original, horiginal, hcallback⟩ :=
    (resolves_exec h response).1.exists_callback (Array.mem_toList_iff.2 hrequest)
  exact hcallback ▸ h original (Array.mem_toList_iff.1 horiginal)

/-- Answers are dealt with as if callbacks did nothing but decide. -/
theorem resolvesAll_exec (h : engine.CallbacksSpareRequests) (responses : List CommandResponse) :
    ResolvesAll Hook.keep responses engine.tracker.requests.toList
        (engine.calledWithAll responses)
        ((responses.forM (resolve Turn.busy)).exec engine).2.tracker.requests.toList ∧
      ((responses.forM (resolve Turn.busy)).exec engine).2.answers = engine.answers ++
        (engine.calledWithAll responses).flatMap fun call ↦ call.1.hears call.2 := by
  induction responses generalizing engine with
  | nil => exact ⟨.nil, (List.append_nil _).symm⟩
  | cons response responses ih =>
      obtain ⟨hfirst, hheard⟩ := resolves_exec h response
      obtain ⟨hlater, hlast⟩ := ih (h.resolve response)
      refine ⟨.cons hfirst hlater, hlast.trans ?_⟩
      rw [hheard, calledWithAll, List.flatMap_append, List.append_assoc]

/-- Answers may be dealt with in two portions. -/
theorem calledWithAll_append (first later : List CommandResponse) (engine : Engine τ) :
    engine.calledWithAll (first ++ later) = engine.calledWithAll first ++
      ((first.forM (resolve Turn.busy)).exec engine).2.calledWithAll later := by
  induction first generalizing engine with
  | nil => rfl
  | cons response first ih =>
      rw [List.cons_append, calledWithAll, ih, calledWithAll, List.append_assoc]
      rfl

/-- What a transfer of answers carries is dealt with one by one. A transfer without any answer is
refused, so it makes no difference. -/
theorem exec_handleBulkIn_regular {group : List CommandResponse} {bytes : Bytes}
    (hbytes : Message.toBytes (.regular group : BulkResponse) = .ok bytes)
    (hreportable : ∀ response ∈ group, response.Reportable) (engine : Engine τ) :
    ((handleBulkIn Turn.busy (.ok bytes)).exec engine).2 =
        ((group.forM (resolve Turn.busy)).exec engine).2 ∧
      (match BulkResponse.decode bytes with
        | .ok (.regular responses) => engine.calledWithAll responses
        | _ => []) = engine.calledWithAll group := by
  obtain rfl := Except.ok.inj ((BulkResponse.toBytes_regular group).symm.trans hbytes)
  cases group with
  | nil => exact ⟨rfl, rfl⟩
  | cons response others =>
      have hdecode := BulkResponse.decode_layout (List.cons_ne_nil response others) hreportable
      rw [hdecode]
      refine ⟨?_, rfl⟩
      simp only [handleBulkIn, handleBulkResponse, hdecode]
      rfl

/-- How answers are split into transfers makes no difference. -/
theorem received_eq {groups : List (List CommandResponse)} {transfers : List Bytes}
    (h : List.Forall₂ (fun group bytes ↦
      Message.toBytes (.regular group : BulkResponse) = .ok bytes) groups transfers)
    (hreportable : ∀ response ∈ groups.flatten, response.Reportable) (engine : Engine τ) :
    engine.received transfers = ((groups.flatten.forM (resolve Turn.busy)).exec engine).2 ∧
      engine.calledBy transfers = engine.calledWithAll groups.flatten := by
  induction h generalizing engine with
  | nil => exact ⟨rfl, rfl⟩
  | @cons group bytes groups transfers hbytes _ ih =>
      rw [List.flatten_cons] at hreportable ⊢
      obtain ⟨hgroup, hgroups⟩ := List.forall_mem_append.1 hreportable
      obtain ⟨hafter, hcalled⟩ := exec_handleBulkIn_regular hbytes hgroup engine
      obtain ⟨hlast, hothers⟩ := ih hgroups ((handleBulkIn Turn.busy (.ok bytes)).exec engine).2
      constructor
      · rw [List.forM_eq_forM, List.forM_append, EngineM.exec_bind, ← List.forM_eq_forM, ← hafter]
        exact hlast
      · rw [calledBy, hcalled, calledWithAll_append, ← hafter, hothers]

/-- While requests wait under different identifiers and callbacks leave the tracked requests alone,
it does not matter in which order answers with different identifiers come and how they are split
into transfers: the same callbacks are called with the same answers, and apart from their order the
same requests stay tracked, each with its answer if it was kept. The callbacks that are called are
the ones that report so, unless they are quiet. A transfer with a malformed block is refused and
changes nothing, whatever else it carries. -/
theorem received_perm
    (hdistinct : ((engine.tracker.requests.toList.filter (·.isPending)).map (·.id)).Nodup)
    (hspare : engine.CallbacksSpareRequests) (hids : (responses.map (·.id)).Nodup)
    (hreportable : ∀ response ∈ responses, response.Reportable)
    {transfers others : List Bytes} (htransfers : CarryAnswers transfers responses)
    (hothers : CarryAnswers others responses) :
    (engine.calledBy transfers).Perm (engine.calledBy others) ∧
      (engine.received transfers).tracker.requests.toList.Perm
        (engine.received others).tracker.requests.toList ∧
      (engine.received transfers).answers = engine.answers ++
        (engine.calledBy transfers).flatMap (fun call ↦ call.1.hears call.2) ∧
      ∀ bytes, MalformedTransfer bytes → ∀ turn : Turn τ, ∃ error,
        (handleBulkResponse turn bytes).exec engine = (.error error, engine) ∧
          (handleBulkIn turn (.ok bytes)).exec engine = ((), engine) := by
  obtain ⟨groups, hgroups, hwritten⟩ := htransfers
  obtain ⟨otherGroups, hotherGroups, hotherWritten⟩ := hothers
  obtain ⟨hafter, hcalled⟩ := received_eq hwritten
    (fun response hresponse ↦ hreportable response (hgroups.mem_iff.1 hresponse)) engine
  obtain ⟨hotherAfter, hotherCalled⟩ := received_eq hotherWritten
    (fun response hresponse ↦ hreportable response (hotherGroups.mem_iff.1 hresponse)) engine
  obtain ⟨hresolves, hanswers⟩ := resolvesAll_exec hspare groups.flatten
  obtain ⟨hotherResolves, -⟩ := resolvesAll_exec hspare otherGroups.flatten
  rw [hafter, hcalled, hotherAfter, hotherCalled]
  obtain ⟨hsameCalled, hsameLeft⟩ := hresolves.perm_of_perm ((hgroups.map _).nodup_iff.2 hids)
    (hgroups.trans hotherGroups.symm) (waitApart_iff.2 hdistinct) hotherResolves
  refine ⟨hsameCalled, hsameLeft, hanswers, fun bytes hbytes turn ↦ ?_⟩
  obtain ⟨error, herror⟩ := decode_malformed hbytes
  simp only [handleBulkIn, handleBulkResponse, herror]
  exact ⟨_, rfl, rfl⟩

/-- A session in which two requests wait. The callback of one keeps it, and that of the other queues
a command. -/
def twoWaiting : Engine RoomyTransport where
  transport := {}
  tracker :=
    { requests :=
        #[{ id := 1, dependent := false, callback := { label := "keeper", keep := fun _ ↦ true } },
          { id := 2, dependent := true
            callback := { label := "relay", followUp := [.enqueue reader] } }]
      receiving := true }

/-- An answer without data. -/
def bareAnswer (id : UInt16) : CommandResponse where
  id
  attempted := true
  status := .success
  hasData := false
  data := []

/-- One transfer with both answers. -/
def together : List Bytes :=
  [[0, 0, 0, 0, 1, 0, 1, 0, 0, 0, 0, 0, 2, 0, 1, 0, 0, 0, 0, 0]]

/-- One transfer for each answer, the later first. -/
def reversed : List Bytes :=
  [[0, 0, 0, 0, 2, 0, 1, 0, 0, 0, 0, 0], [0, 0, 0, 0, 1, 0, 1, 0, 0, 0, 0, 0]]

/-- A transfer in which the second answer is cut off. -/
def cutOff : Bytes :=
  [0, 0, 0, 0, 1, 0, 1, 0, 0, 0, 0, 0, 2, 0, 1]

/-- Two answers that come together or apart call the same callbacks, and leave the same requests. -/
theorem received_perm_twoWaiting :
    (twoWaiting.calledBy together).map (·.2.id) = [1, 2] ∧
      (twoWaiting.calledBy reversed).map (·.2.id) = [2, 1] ∧
      (twoWaiting.calledBy together).Perm (twoWaiting.calledBy reversed) ∧
      (twoWaiting.received together).tracker.requests.toList.Perm
        (twoWaiting.received reversed).tracker.requests.toList ∧
      (handleBulkIn Turn.busy (.ok cutOff)).exec twoWaiting = ((), twoWaiting) := by
  have hdistinct :
      ((twoWaiting.tracker.requests.toList.filter (·.isPending)).map (·.id)).Nodup := by
    decide
  have hspare : twoWaiting.CallbacksSpareRequests := by
    simp [CallbacksSpareRequests, twoWaiting, Hook.SparesRequests, Call.sparesRequests]
  have hids : ([bareAnswer 1, bareAnswer 2].map (·.id)).Nodup := by decide
  have hreportable : ∀ response ∈ [bareAnswer 1, bareAnswer 2], response.Reportable := by
    intro response hresponse
    obtain rfl | rfl := by simpa using hresponse
    · exact ⟨by decide, 0, rfl⟩
    · exact ⟨by decide, 0, rfl⟩
  have htogether : CarryAnswers together [bareAnswer 1, bareAnswer 2] :=
    ⟨[[bareAnswer 1, bareAnswer 2]], .refl _, .cons (BulkResponse.toBytes_regular _) .nil⟩
  have hreversed : CarryAnswers reversed [bareAnswer 1, bareAnswer 2] :=
    ⟨[[bareAnswer 2], [bareAnswer 1]], .swap _ _ _,
      .cons (BulkResponse.toBytes_regular _) (.cons (BulkResponse.toBytes_regular _) .nil)⟩
  have hcutOff : MalformedTransfer cutOff :=
    ⟨(0, 0, 0), [[1, 0, 1, 0, 0, 0, 0, 0]], [2, 0, 1], rfl,
      List.forall_mem_singleton.2 ⟨rfl, by decide⟩, by decide, .inl (by decide)⟩
  obtain ⟨hcalled, hleft, -, hmalformed⟩ :=
    received_perm hdistinct hspare hids hreportable htogether hreversed
  obtain ⟨_, -, hunchanged⟩ := hmalformed cutOff hcutOff Turn.busy
  exact ⟨by decide +kernel, by decide +kernel, hcalled, hleft, hunchanged⟩

end Engine

end I3cHost
