import I3cHost.Proofs.Engine.Hooks
import I3cHost.Proofs.Submission.Disturbed

/-!
# Answers that come early

Answers may come while the request is still being sent, or after the submission has returned. As
long as callbacks only decide which answers are kept, this makes no difference: the requests are
tracked before the transfer, and what a submission does after the transfer, to the queue and to the
next identifier, is nothing that dealing with answers would notice (`Unaware`).
-/

namespace I3cHost

variable {τ : Type}

namespace Engine

variable {α β : Type} {engine : Engine τ}

/-- The state with the queue, the next identifier, the transport and the pipes of another state. -/
def amid (engine other : Engine τ) : Engine τ :=
  { engine with
    queue := other.queue
    transport := other.transport
    pipes := other.pipes
    tracker := { engine.tracker with nextId := other.tracker.nextId } }

/-- An action does not notice the queue, the next identifier, the transport and the pipes, and
leaves them alone, if hooks only decide; and hooks only decide afterwards. -/
def Unaware (action : EngineM τ α) : Prop :=
  ∀ engine : Engine τ, HooksIn Hook.OnlyDecides [] engine →
    HooksIn Hook.OnlyDecides [] (action.exec engine).2 ∧ ∀ other,
      action.exec (engine.amid other) = ((action.exec engine).1, (action.exec engine).2.amid other)

namespace Unaware

/-- Returning a value notices nothing. -/
theorem pure (value : α) : Unaware (pure value : EngineM τ α) :=
  fun _ h ↦ ⟨h, fun _ ↦ rfl⟩

/-- What follows an action needs to be unaware only for the values that the action can return. -/
theorem bind {action : EngineM τ α} {next : α → EngineM τ β} (h : Unaware action)
    (hnext : ∀ engine, HooksIn Hook.OnlyDecides [] engine →
      Unaware (next (action.exec engine).1)) : Unaware (action >>= next) := by
  intro engine hhooks
  obtain ⟨hafter, hsame⟩ := h engine hhooks
  obtain ⟨hlast, hlastSame⟩ := hnext engine hhooks _ hafter
  refine ⟨hlast, fun other ↦ ?_⟩
  rw [EngineM.exec_bind, hsame]
  exact hlastSame other

/-- A change notices nothing if it does the same amid any other queue, transport and pipes. -/
theorem modifyGet {change : Engine τ → α × Engine τ}
    (hhooks : ∀ engine, HooksIn Hook.OnlyDecides [] engine →
      HooksIn Hook.OnlyDecides [] (change engine).2)
    (hsame : ∀ engine other,
      change (engine.amid other) = ((change engine).1, (change engine).2.amid other)) :
    Unaware (modifyGet change : EngineM τ α) :=
  fun engine h ↦ ⟨hhooks engine h, hsame engine⟩

/-- A change that neither uses nor touches queue, next identifier, transport and pipes. -/
theorem modify {change : Engine τ → Engine τ}
    (hhooks : ∀ engine, HooksIn Hook.OnlyDecides [] engine →
      HooksIn Hook.OnlyDecides [] (change engine))
    (hsame : ∀ engine other, change (engine.amid other) = (change engine).amid other) :
    Unaware (modify change : EngineM τ Unit) :=
  fun engine h ↦ ⟨hhooks engine h, fun other ↦ congrArg (Prod.mk ()) (hsame engine other)⟩

/-- The same for each item of a list, one after the other. -/
theorem forM {items : List α} {action : α → EngineM τ Unit}
    (h : ∀ item ∈ items, Unaware (action item)) : Unaware (items.forM action) := by
  induction items with
  | nil => exact .pure ()
  | cons item items ih =>
      exact .bind (h item List.mem_cons_self)
        fun _ _ ↦ ih fun other hother ↦ h other (List.mem_cons_of_mem item hother)

variable {action : EngineM τ α} (h : Unaware action) (hhooks : HooksIn Hook.OnlyDecides [] engine)

include h hhooks

/-- An unaware action leaves queue, next identifier, transport and pipes alone. -/
theorem amid_self : (action.exec engine).2.amid engine = (action.exec engine).2 := by
  have hsame : action.exec engine = ((action.exec engine).1, (action.exec engine).2.amid engine) :=
    (h engine hhooks).2 engine
  exact (congrArg Prod.snd hsame).symm

/-- An unaware action leaves the pipes alone. -/
theorem pipes_eq : (action.exec engine).2.pipes = engine.pipes := by
  rw [← h.amid_self hhooks]
  rfl

/-- The transport may be exchanged before an unaware action, or after it. -/
theorem exec_transport (transport : τ) : action.exec { engine with transport } =
    ((action.exec engine).1, { (action.exec engine).2 with transport }) := by
  have hsame : action.exec { engine with transport } =
      ((action.exec engine).1, (action.exec engine).2.amid { engine with transport }) :=
    (h engine hhooks).2 { engine with transport }
  rw [hsame, ← h.amid_self hhooks]
  rfl

/-- Such an action can be taken before a submission is concluded, or afterwards. -/
theorem concludeQueued :
    (action.exec engine).2.concludeQueued = (action.exec engine.concludeQueued).2 := by
  have hsame : action.exec engine.concludeQueued =
      ((action.exec engine).1, (action.exec engine).2.amid engine.concludeQueued) :=
    (h engine hhooks).2 engine.concludeQueued
  rw [hsame, ← h.amid_self hhooks]
  rfl

end Unaware

/-- Which request is taken, and which are left, does not depend on the next identifier. -/
theorem unaware_takePending (id : UInt16) :
    Unaware (modifyGet (takePending id) :
      EngineM τ (Option (TrackedRequest (Hook τ)))) := by
  refine .modifyGet (fun engine hhooks ↦ ?_) fun engine other ↦ ?_
  · unfold takePending
    split
    next request tracker htake => exact (hhooks.takePending htake).release
    next => exact hhooks
  · simp only [takePending, Tracker.takePending, amid]
    cases hindex : engine.tracker.requests.findIdx? fun request ↦
        request.id == id && request.isPending with
    | none => rfl
    | some index =>
        simp only [bind, Option.bind]
        cases hrequest : engine.tracker.requests[index]? <;> rfl

variable [Transport τ] {turn : Turn τ}

/-- A hook that only decides at most reports what it heard. -/
theorem unaware_runHook {hook : Hook τ} (h : hook.OnlyDecides) (response : CommandResponse) :
    Unaware (runHook turn hook response) := by
  unfold runHook
  rw [follow_of_onlyDecides h]
  split
  · exact .pure ()
  · exact .bind (.modify (fun engine ↦ ofLedger_hooksIn engine _ rfl) fun _ _ ↦ rfl)
      fun _ _ ↦ .pure ()

/-- Handing an answer to a callback that only decides, and keeping the request if it says so. -/
theorem unaware_answer {request : TrackedRequest (Hook τ)} (h : request.callback.OnlyDecides)
    (response : CommandResponse) : Unaware (answer turn request response) := by
  refine .bind (unaware_runHook h response) fun _ _ ↦ .modify (fun engine hhooks ↦ ?_) ?_
  · have hhand : HooksIn Hook.OnlyDecides [request] engine :=
      hhooks.withHand (List.forall_mem_singleton.2 h)
    exact hhand.settle response _
  · intro engine other
    cases hkeep : request.callback.keep response <;> rfl

/-- An answer that arrives finds its request by what is tracked alone. -/
theorem unaware_resolve (response : CommandResponse) : Unaware (resolve turn response) := by
  refine .bind (unaware_takePending response.id) fun engine hhooks ↦ ?_
  rw [EngineM.exec_modifyGet]
  unfold takePending
  cases htake : engine.tracker.takePending response.id with
  | none => exact .pure ()
  | some taken =>
      exact unaware_answer ((hhooks.takePending htake).inHand _ List.mem_cons_self) response

/-- At the end of answers all that wait are told, whatever is queued. -/
theorem unaware_failAll : Unaware (failAll turn) := by
  refine .bind (.modifyGet (fun engine hhooks ↦ ?_) fun _ _ ↦ rfl) fun engine hhooks ↦ ?_
  · exact (hhooks.takeAllPending engine.tracker.receiving).release
  · refine .forM fun request hrequest ↦ unaware_answer ?_ _
    exact (hhooks.takeAllPending engine.tracker.receiving).inHand request
      (List.mem_append_left [] hrequest)

/-- A callback for vendor-specific transfers that makes no calls only hears them. -/
theorem unaware_runVendorHook {hook : Hook τ} (h : hook.OnlyDecides) (payload : Bytes) :
    Unaware (runVendorHook turn hook payload) := by
  unfold runVendorHook
  rw [follow_of_onlyDecides h]
  exact .bind (.modify (fun engine ↦ ofLedger_hooksIn engine _ rfl) fun _ _ ↦ rfl)
    fun _ _ ↦ .pure ()

/-- A vendor-specific transfer finds its callback by what is registered alone. -/
theorem unaware_resolveVendor (payload : Bytes) : Unaware (resolveVendor turn payload) := by
  refine .bind (.modifyGet (fun engine hhooks ↦ ?_) fun _ _ ↦ rfl) fun engine hhooks ↦ ?_
  · exact hhooks.onVendor nofun
  · rw [EngineM.exec_modifyGet]
    unfold takeVendorHook
    cases hvendor : engine.vendorHook with
    | none => exact .pure ()
    | some hook =>
        have hhook : hook.OnlyDecides := hhooks.vendor hook hvendor
        refine .bind (unaware_runVendorHook hhook payload)
          fun _ _ ↦ .modify (fun other hother ↦ ?_) fun _ _ ↦ rfl
        refine hother.onVendor fun registered hregistered ↦ ?_
        rcases Option.or_eq_some_iff.1 hregistered with hheld | ⟨-, hrestored⟩
        · exact hother.vendor registered hheld
        · exact Option.some.inj hrestored ▸ hhook

/-- Whatever a completion carries, dealing with it is unaware of what a submission does after the
transfer. -/
theorem unaware_handleBulkIn (result : TransportResult Bytes) :
    Unaware (handleBulkIn turn result) := by
  have hend : Unaware (handleBulkIn.endOfAnswers turn) :=
    .bind (.modify (fun engine ↦ ofLedger_hooksIn engine _ rfl) fun _ _ ↦ rfl)
      fun _ _ ↦ unaware_failAll
  unfold handleBulkIn
  split
  next data =>
    refine .bind ?_ fun _ _ ↦ .pure ()
    unfold handleBulkResponse
    split
    next response _ =>
      refine .bind ?_ fun _ _ ↦ .pure _
      cases response with
      | regular responses => exact .forM fun response _ ↦ unaware_resolve response
      | vendorSpecific payload => exact unaware_resolveVendor payload
      | ibi payload => exact .pure ()
    next => exact .pure _
  next => exact hend
  next => exact hend
  next => exact .pure ()
  next => exact .pure ()
  next => exact .pure ()

/-- Deals with completions of the bulk endpoint, one after the other. -/
def receive (results : List (TransportResult Bytes)) : EngineM τ Unit :=
  results.forM (handleBulkIn Turn.busy)

/-- Any number of completions of the bulk endpoint. -/
theorem unaware_receive (results : List (TransportResult Bytes)) :
    Unaware (receive results : EngineM τ Unit) :=
  .forM fun result _ ↦ unaware_handleBulkIn result

/-- On an occasion the transport hands out completions of the bulk endpoint one by one, until it has
no more of anything. -/
inductive HandsOut (moment : Moment) : List (TransportResult Bytes) → τ → τ → Prop
  | done {transport : τ} (h : Transport.next? moment transport = none) :
      HandsOut moment [] transport transport
  | more {result : TransportResult Bytes} {results : List (TransportResult Bytes)}
      {transport rest final : τ}
      (h : Transport.next? moment transport = some (.bulkIn result, rest))
      (hrest : HandsOut moment results rest final) :
      HandsOut moment (result :: results) transport final

/-- Dealing with what the transport hands out is dealing with these completions in order. -/
theorem drain_of_handsOut {moment : Moment} {results : List (TransportResult Bytes)}
    {transport final : τ} (h : HandsOut moment results transport final)
    (hhooks : HooksIn Hook.OnlyDecides [] engine) (hattached : engine.pipes.bulkInAttached = true)
    {allowed : Nat} (hallowed : results.length ≤ allowed) :
    (drain Turn.busy moment allowed).exec { engine with transport } =
      (results.length, { ((receive results).exec engine).2 with transport := final }) := by
  induction h generalizing engine allowed with
  | done hnone =>
      cases allowed with
      | zero => rfl
      | succ allowed =>
          simp only [drain, takeCompletion, EngineM.exec_bind, EngineM.exec_modifyGet, hnone]
          rfl
  | @more result results transport rest final hnext hrest ih =>
      obtain ⟨allowed, rfl⟩ : ∃ others, allowed = others + 1 :=
        ⟨allowed - 1, by rw [List.length_cons] at hallowed; omega⟩
      have hunaware : Unaware (handleBulkIn (Turn.busy : Turn τ) result) :=
        unaware_handleBulkIn result
      obtain ⟨hafter, -⟩ := hunaware engine hhooks
      have hothers := ih hafter ((congrArg _ (hunaware.pipes_eq hhooks)).trans hattached)
        (Nat.le_of_succ_le_succ hallowed)
      simp only [drain, takeCompletion, complete, EngineM.exec_bind, EngineM.exec_modifyGet,
        EngineM.exec_get, hnext, hattached, if_true]
      rw [hunaware.exec_transport hhooks rest, hothers]
      rfl

end Engine

/-- Lets completions of the bulk endpoint come while a transfer is under way, besides all else that
happens meanwhile. -/
def Turn.early [Transport τ] (turn : Turn τ) (results : List (TransportResult Bytes)) : Turn τ
  | .bulkOut => do
      let others ← turn .bulkOut
      Engine.receive results
      return others + results.length
  | moment => turn moment

namespace Engine

variable [Transport τ] {turn : Turn τ} {engine : Engine τ} {dependent : Bool}

/-- If the transport hands out completions of the bulk endpoint while a transfer is under way, the
application's turn is of this kind. -/
theorem exec_application_bulkOut {results : List (TransportResult Bytes)} {final : τ}
    (h : HandsOut .bulkOut results engine.transport final)
    (hhooks : HooksIn Hook.OnlyDecides [] engine) (hthread : engine.pipes.eventThread = true)
    (hattached : engine.pipes.bulkInAttached = true) (hlength : results.length ≤ maxDeliveries) :
    ((Turn.application .bulkOut).exec engine).2 =
      { ((Turn.busy.early results .bulkOut).exec engine).2 with transport := final } := by
  have hdelivered := drain_of_handsOut h hhooks hattached hlength
  show ((Turn.waiting .bulkOut).exec engine).2 = _
  simp only [Turn.waiting, EngineM.exec_bind, EngineM.exec_get, hthread, if_true]
  exact congrArg Prod.snd hdelivered

/-- What comes while a transfer is under way is dealt with before the submission goes on. -/
theorem transferred_early (turn : Turn τ) (results : List (TransportResult Bytes))
    (first : UInt16) (bytes : Bytes) (engine : Engine τ) :
    engine.transferred (turn.early results) first dependent bytes =
      ((receive results).exec (engine.transferred turn first dependent bytes)).2 :=
  rfl

/-- While a request is being sent hooks go on to do no more than decide. -/
theorem hooksIn_transferred (hturn : turn.Ordinary) (h : HooksIn Hook.OnlyDecides [] engine)
    {bytes : Bytes} {opened : Engine τ}
    (hprepare : (prepare turn dependent).exec engine = (.ok bytes, opened)) (first : UInt16) :
    HooksIn Hook.OnlyDecides [] (opened.transferred turn first dependent bytes) := by
  have hbusy : Sustained (Turn.busy : Turn τ) (HooksIn Hook.OnlyDecides) :=
    sustained_hooksIn hookClosed_onlyDecides fun _ _ ↦ .pure _
  have hdeliver (moment : Moment) :
      EngineM.Preserves (HooksIn Hook.OnlyDecides []) (deliver (Turn.busy : Turn τ) moment) :=
    hbusy.deliver (fun _ ↦ .pure _) moment
  have hopened : HooksIn Hook.OnlyDecides [] ((prepare turn dependent).exec engine).2 :=
    prepare_preserves hturn ofLedger_hooksIn (hdeliver _) dependent engine h
  rw [hprepare] at hopened
  exact hturn.preserves (.inr rfl) (hdeliver _) _
    (ofLedger_hooksIn (opened.trackQueued first dependent) _ rfl
      (hopened.trackQueued first dependent))

/-- Completions that come while the transfer of a submission is under way have the same effect as if
they had come right after it returned. It succeeds in both cases or in none, with the same
identifiers, and in the end there is no difference between the states: the same callbacks have heard
the same answers in the same order, the same requests are tracked in the same order, and answers are
received in both cases or in none. -/
theorem submit_early_iff (hturn : turn.Ordinary) (h : HooksIn Hook.OnlyDecides [] engine)
    (results : List (TransportResult Bytes)) (ids : List UInt16) (after : Engine τ) :
    (submit (turn.early results) dependent).exec engine = (.ok ids, after) ↔
      ∃ returned, (submit turn dependent).exec engine = (.ok ids, returned) ∧
        after = ((receive results).exec returned).2 := by
  -- Until the transfer is under way nothing comes early.
  have hsame : prepare (turn.early results) dependent = prepare turn dependent := rfl
  rw [exec_submit, exec_submit, hsame]
  rcases hprepare : (prepare turn dependent).exec engine with ⟨error | bytes, opened⟩
  · simp
  have hhooks := hooksIn_transferred hturn h hprepare engine.tracker.nextId
  have hconclude := (unaware_receive results).concludeQueued hhooks
  simp only [transferred_early]
  rcases (opened.trackQueued engine.tracker.nextId dependent).acceptance bytes with error | ⟨⟩
  · simp
  · simp only [Prod.mk.injEq, hconclude]
    constructor
    · rintro ⟨hids, rfl⟩
      exact ⟨_, ⟨hids, rfl⟩, rfl⟩
    · rintro ⟨_, ⟨hids, rfl⟩, rfl⟩
      exact ⟨hids, rfl⟩

/-- An answer, a transfer that is malformed, and the end of the stream. -/
def answeredThenEnded : List (TransportResult Bytes) :=
  [.ok [0, 0, 0, 0, 0, 0, 1, 0, 0, 0, 0, 0], .ok [1], .error .cancelled]

/-- An answer and the end of the stream come early or late: the identifier and the final state are
the same. -/
theorem early_oneRead :
    let (result, after) :=
      (submit (Turn.application.early answeredThenEnded) false).exec (oneRead [])
    result = .ok [0] ∧ after.answers.length = 1 ∧ after.tracker.trackedCount = 1 ∧
      after.tracker.receiving = false ∧ ∃ returned,
        (submit Turn.application false).exec (oneRead []) = (.ok [0], returned) ∧
          after = ((receive answeredThenEnded).exec returned).2 := by
  have hresult : ((submit (Turn.application.early answeredThenEnded) false).exec (oneRead [])).1 =
      .ok [0] := by
    decide +kernel
  refine ⟨hresult, by decide +kernel, by decide +kernel, by decide +kernel, ?_⟩
  exact (submit_early_iff Turn.ordinary_application (hooksIn_oneRead []) answeredThenEnded [0] _).1
    (Prod.ext hresult rfl)

end Engine

end I3cHost
