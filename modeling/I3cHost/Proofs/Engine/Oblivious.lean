import I3cHost.Engine.Delivery
import I3cHost.Proofs.Engine.Execution

/-!
# What depends on the events posted before

Initialization discards what was posted before it, and nothing else processes posted events. So no
operation depends on what has been posted by the time it begins: its result and, but for posted
events, the state that it leaves behind are the same whatever that is (`EngineM.Oblivious`). After a
run of initialization nothing is left of it at all (`exec_bringUp_withPosted`).
-/

namespace I3cHost

variable {τ α β : Type}

/-- The state with other posted events. -/
def Engine.withPosted (posted : List InitEvent) (engine : Engine τ) : Engine τ :=
  engine.onBringUp fun bringUp ↦ { bringUp with posted }

namespace EngineM

/-- An action does not depend on what has been posted, and at most posts more. -/
def Oblivious (action : EngineM τ α) : Prop :=
  ∀ engine posted, ∃ later, action.exec (engine.withPosted posted) =
    ((action.exec engine).1, (action.exec engine).2.withPosted later)

namespace Oblivious

/-- Returning a value depends on nothing. -/
theorem pure (value : α) : Oblivious (pure value : EngineM τ α) :=
  fun _ posted ↦ ⟨posted, rfl⟩

/-- What an action has posted does not matter to the one that follows it. -/
theorem bind {action : EngineM τ α} {next : α → EngineM τ β} (h : Oblivious action)
    (hnext : ∀ value, Oblivious (next value)) : Oblivious (action >>= next) := by
  intro engine posted
  obtain ⟨later, hsame⟩ := h engine posted
  obtain ⟨last, hlast⟩ := hnext (action.exec engine).1 (action.exec engine).2 later
  refine ⟨last, ?_⟩
  rw [exec_bind, hsame]
  exact hlast

/-- The state may be looked at, if what follows does not depend on what has been posted. -/
theorem get_bind {next : Engine τ → EngineM τ α}
    (hsame : ∀ engine posted, next (engine.withPosted posted) = next engine)
    (hnext : ∀ engine, Oblivious (next engine)) : Oblivious (get >>= next) := by
  intro engine posted
  rw [exec_bind, exec_bind, exec_get, exec_get, hsame]
  exact hnext engine engine posted

/-- A change does not depend on what has been posted if its result and the rest of the state do
not. -/
theorem modifyGet {change : Engine τ → α × Engine τ} (h : ∀ engine posted, ∃ later,
      change (engine.withPosted posted) = ((change engine).1, (change engine).2.withPosted later)) :
    Oblivious (modifyGet change : EngineM τ α) :=
  h

/-- A change that does not touch posted events. -/
theorem modify {change : Engine τ → Engine τ} (h : ∀ engine posted,
      change (engine.withPosted posted) = (change engine).withPosted posted) :
    Oblivious (modify change : EngineM τ Unit) :=
  fun engine posted ↦ ⟨posted, congrArg (Prod.mk ()) (h engine posted)⟩

/-- The same for each item of a list, one after the other. -/
theorem forM {items : List α} {action : α → EngineM τ Unit}
    (h : ∀ item ∈ items, Oblivious (action item)) : Oblivious (items.forM action) := by
  induction items with
  | nil => exact .pure ()
  | cons item items ih =>
      exact .bind (h item List.mem_cons_self)
        fun _ ↦ ih fun other hother ↦ h other (List.mem_cons_of_mem item hother)

/-- The same for each item of a list, with the results collected. -/
theorem mapM {items : List α} {action : α → EngineM τ β}
    (h : ∀ item ∈ items, Oblivious (action item)) : Oblivious (items.mapM action) := by
  induction items with
  | nil => exact .pure []
  | cons item items ih =>
      rw [List.mapM_cons]
      refine .bind (h item List.mem_cons_self) fun _ ↦ .bind ?_ fun _ ↦ .pure _
      exact ih fun other hother ↦ h other (List.mem_cons_of_mem item hother)

end Oblivious

end EngineM

namespace EngineOp

/-- An operation does not depend on what has been posted, even if it fails. -/
def Oblivious (operation : EngineOp τ α) : Prop :=
  ∀ engine posted, ∃ later, operation.exec (engine.withPosted posted) =
    ((operation.exec engine).1, (operation.exec engine).2.withPosted later)

namespace Oblivious

/-- A success with a value depends on nothing. -/
theorem pure (value : α) : Oblivious (pure value : EngineOp τ α) :=
  fun _ posted ↦ ⟨posted, rfl⟩

/-- Failing depends on nothing. -/
theorem throw (error : HostError) : Oblivious (throw error : EngineOp τ α) :=
  fun _ posted ↦ ⟨posted, rfl⟩

/-- A result that is known already depends on nothing. -/
theorem ofResult (result : HostResult α) : Oblivious (Engine.ofResult result : EngineOp τ α) :=
  fun _ posted ↦ ⟨posted, rfl⟩

/-- What an operation has posted matters neither to its error nor to what follows it. -/
theorem bind {operation : EngineOp τ α} {next : α → EngineOp τ β} (h : Oblivious operation)
    (hnext : ∀ value, Oblivious (next value)) : Oblivious (operation >>= next) := by
  intro engine posted
  obtain ⟨later, hsame⟩ := h engine posted
  rw [exec_bind, exec_bind, hsame]
  rcases operation.exec engine with ⟨error | value, after⟩
  · exact ⟨later, rfl⟩
  · exact hnext value after later

/-- An operation may look at the state, if what follows does not depend on what has been posted. -/
theorem get_bind {next : Engine τ → EngineOp τ α}
    (hsame : ∀ engine posted, next (engine.withPosted posted) = next engine)
    (hnext : ∀ engine, Oblivious (next engine)) : Oblivious (get >>= next) := by
  intro engine posted
  rw [exec_bind, exec_bind, exec_get, exec_get]
  dsimp only
  rw [hsame]
  exact hnext engine engine posted

/-- An operation may make a change if the result and the rest of the state do not depend on what has
been posted. -/
theorem modifyGet {change : Engine τ → α × Engine τ} (h : ∀ engine posted, ∃ later,
      change (engine.withPosted posted) = ((change engine).1, (change engine).2.withPosted later)) :
    Oblivious (modifyGet change : EngineOp τ α) := by
  intro engine posted
  obtain ⟨later, hsame⟩ := h engine posted
  exact ⟨later, by rw [exec_modifyGet, exec_modifyGet, hsame]⟩

/-- An operation may make a change that does not touch posted events. -/
theorem modify {change : Engine τ → Engine τ} (h : ∀ engine posted,
      change (engine.withPosted posted) = (change engine).withPosted posted) :
    Oblivious (modify change : EngineOp τ Unit) :=
  fun engine posted ↦ ⟨posted, by rw [exec_modify, exec_modify, h]⟩

/-- An action that cannot fail, as an operation. -/
theorem liftM {action : EngineM τ α} (h : action.Oblivious) :
    Oblivious (liftM action : EngineOp τ α) := by
  intro engine posted
  obtain ⟨later, hsame⟩ := h engine posted
  exact ⟨later, by rw [exec_liftM, exec_liftM, hsame]⟩

/-- An error is handled alike whatever was posted before it. -/
theorem tryCatch {operation : EngineOp τ α} {handler : HostError → EngineOp τ α}
    (h : Oblivious operation) (hhandler : ∀ error, Oblivious (handler error)) :
    Oblivious (tryCatch operation handler) := by
  intro engine posted
  obtain ⟨later, hsame⟩ := h engine posted
  rw [exec_tryCatch, exec_tryCatch, hsame]
  rcases operation.exec engine with ⟨error | value, after⟩
  · exact hhandler error after later
  · exact ⟨later, rfl⟩

/-- The result of an operation, kept as a value. -/
theorem run {operation : EngineOp τ α} (h : Oblivious operation) :
    EngineM.Oblivious operation.run :=
  h

end Oblivious

end EngineOp

namespace Engine

/-- Posting an event goes well or not regardless of what has been posted before. -/
theorem oblivious_post (event : InitEvent) :
    EngineM.Oblivious (modifyGet (post event) : EngineM τ Bool) := by
  refine .modifyGet fun engine posted ↦ ?_
  have hlistening : (engine.withPosted posted).bringUp.listening = engine.bringUp.listening := rfl
  unfold post
  rw [hlistening]
  split
  · exact ⟨posted ++ [event], rfl⟩
  · exact ⟨posted, rfl⟩

/-- The table is independent of posted events. -/
theorem oblivious_onTable {β : Type} (operation : TargetTable → β × TargetTable) :
    EngineM.Oblivious (modifyGet (onTable operation) : EngineM τ β) :=
  .modifyGet fun _ posted ↦ ⟨posted, rfl⟩

/-- The transport does not see posted events. -/
theorem oblivious_call (record : TransportCall)
    (operation : StateM τ (TransportResult α)) :
    EngineOp.Oblivious (modifyGet (call record operation) : EngineOp τ (TransportResult α)) :=
  .modifyGet fun _ posted ↦ ⟨posted, rfl⟩

/-- The outcome of an operation. -/
theorem oblivious_settled {operation : EngineOp τ Unit} (h : operation.Oblivious) :
    EngineM.Oblivious (settled operation) := by
  refine .bind h.run fun result ↦ ?_
  rcases result with error | ⟨⟩
  · exact .pure _
  · exact .pure _

/-- A request about a feature that may be unknown. -/
theorem oblivious_onFeature {selector : UInt16} {operation : Feature → EngineOp τ Unit}
    (h : ∀ feature, (operation feature).Oblivious) :
    EngineM.Oblivious (onFeature selector operation) := by
  unfold onFeature
  split
  · exact oblivious_settled (h _)
  · exact .pure _

/-- Queueing a command, any number of times. -/
theorem oblivious_enqueueCopies (command : Command (Hook τ)) (copies : Nat) :
    EngineM.Oblivious (modifyGet (enqueueCopies command copies) : EngineM τ Outcome) := by
  refine .modifyGet fun engine posted ↦ ⟨posted, ?_⟩
  induction copies generalizing engine with
  | zero => rfl
  | succ copies ih =>
      have hqueue : (engine.withPosted posted).queue = engine.queue := rfl
      have hsettings : (engine.withPosted posted).settings = engine.settings := rfl
      simp only [enqueueCopies, enqueue, hqueue, hsettings]
      cases engine.queue.fault? { command with settings := engine.settings } with
      | some fault => rfl
      | none =>
          exact ih { engine with
            queue := engine.queue.append { command with settings := engine.settings } }

/-- Taking an answer that was kept. -/
theorem oblivious_takeRetained (id : UInt16) :
    EngineM.Oblivious (modifyGet (takeRetained id) : EngineM τ Outcome) := by
  refine .modifyGet fun engine posted ↦ ⟨posted, ?_⟩
  have htracker : (engine.withPosted posted).tracker = engine.tracker := rfl
  simp only [takeRetained, htracker]
  cases engine.tracker.takeRetained id <;> rfl

variable [Transport τ] {turn : Turn τ}

/-- A run of initialization discards what was posted before. -/
theorem exec_bringUp_withPosted (turn : Turn τ) (posted : List InitEvent) (engine : Engine τ) :
    (perform turn .bringUp).exec (engine.withPosted posted) =
      (perform turn .bringUp).exec engine :=
  rfl

section Turn

variable (hturn : ∀ moment, (turn moment).Oblivious)

include hturn

/-- A request for data, provided that what may happen meanwhile is oblivious. -/
theorem oblivious_controlIn (moment : Moment) (request : ClassRequest) (value : UInt16)
    (maxLength : Nat) : EngineOp.Oblivious (controlIn turn moment request value maxLength) :=
  .bind (oblivious_call _ _) fun _ ↦ .bind (.liftM (hturn _)) fun _ ↦ .ofResult _

/-- A request that carries data. -/
theorem oblivious_controlOut (moment : Moment) (request : ClassRequest) (value : UInt16)
    (data : Bytes) : EngineOp.Oblivious (controlOut turn moment request value data) :=
  .bind (oblivious_call _ _) fun _ ↦ .bind (.liftM (hturn _)) fun _ ↦ .ofResult _

/-- A request for data whose answer comes later. -/
theorem oblivious_submitControlIn (request : ClassRequest) (continuation : Continuation) :
    EngineOp.Oblivious (submitControlIn turn request continuation) :=
  .bind (oblivious_call _ _) fun _ ↦ .bind (.ofResult _) fun _ ↦ .bind (.liftM (hturn _)) fun _ ↦
    .pure _

/-- Asking the device for room. -/
theorem oblivious_ensureRoom (required : Nat) : EngineOp.Oblivious (ensureRoom turn required) := by
  have havailable : EngineOp.Oblivious (bufferAvailable turn) :=
    .bind (oblivious_controlIn hturn _ _ _ _) fun _ ↦ .bind (.ofResult _) fun _ ↦ .pure _
  refine .bind havailable fun available ↦ ?_
  split
  · exact .throw _
  · exact .pure _

/-- A transfer to the bulk endpoint. -/
theorem oblivious_writeRequest (bytes : Bytes) : EngineOp.Oblivious (writeRequest turn bytes) := by
  have hbulkOut : EngineOp.Oblivious (bulkOut turn bytes) :=
    .bind (oblivious_call _ _) fun _ ↦ .bind (.liftM (hturn _)) fun _ ↦ .ofResult _
  refine .bind hbulkOut fun written ↦ ?_
  split
  · exact .throw _
  · exact .pure _

/-- Submitting the queued commands. -/
theorem oblivious_submit (dependent : Bool) : EngineOp.Oblivious (submit turn dependent) := by
  have hwithdraw (first : UInt16) (error : HostError) : EngineOp.Oblivious
      (do modify (withdrawQueued first); throw error : EngineOp τ Unit) :=
    .bind (.modify fun _ _ ↦ rfl) fun _ ↦ .throw _
  exact .get_bind (fun _ _ ↦ rfl) fun engine ↦ .bind (.ofResult _) fun _ ↦ .bind (.ofResult _)
    fun _ ↦ .bind (.ofResult _) fun bytes ↦ .bind (oblivious_ensureRoom hturn _) fun _ ↦
    .bind (.modify fun _ _ ↦ rfl) fun _ ↦
    .bind (.tryCatch (oblivious_writeRequest hturn bytes) (hwithdraw _)) fun _ ↦
    .bind (.modify fun _ _ ↦ rfl) fun _ ↦ .pure _

/-- Submitting a vendor-specific transfer. -/
theorem oblivious_submitVendor (payload : Bytes) :
    EngineOp.Oblivious (submitVendor turn payload) :=
  .get_bind (fun _ _ ↦ rfl) fun _ ↦ .bind (.ofResult _) fun _ ↦ .bind (.ofResult _) fun _ ↦
    .bind (oblivious_ensureRoom hturn _) fun _ ↦ oblivious_writeRequest hturn _

/-- Configuring one device. -/
theorem oblivious_configureDevice (address : UInt8) (config : TargetConfig)
    (maxIbiPayload : UInt32) :
    EngineOp.Oblivious (configureDevice turn address config maxIbiPayload) := by
  have hrecord :
      EngineOp.Oblivious (recordConfig address config maxIbiPayload : EngineOp τ Unit) :=
    .bind (.modifyGet fun _ posted ↦ ⟨posted, rfl⟩) fun _ ↦ .ofResult _
  exact .bind (.ofResult _) fun _ ↦ .bind (oblivious_controlOut hturn _ _ _ _) fun _ ↦ hrecord

/-- Switching a feature of the device on or off. -/
theorem oblivious_switchFeature (feature : Feature) (enabled : Bool) :
    EngineOp.Oblivious (switchFeature turn feature enabled) :=
  .get_bind (fun _ _ ↦ rfl) fun _ ↦ .bind (.ofResult _) fun _ ↦
    .bind (oblivious_controlOut hturn _ _ _ _) fun _ ↦ .modify fun _ _ ↦ rfl

/-- Whatever an application asks of a session. -/
theorem oblivious_perform (call : Call (Hook τ) τ) : EngineM.Oblivious (perform turn call) := by
  cases call with
  | bringUp =>
      intro engine posted
      rw [exec_bringUp_withPosted]
      exact ⟨((perform turn .bringUp).exec engine).2.bringUp.posted, rfl⟩
  | enqueue command copies => exact oblivious_enqueueCopies command copies
  | submit dependent =>
      refine .bind (oblivious_submit hturn dependent).run fun result ↦ ?_
      rcases result with error | ids
      · exact .pure _
      · exact .pure _
  | submitVendor payload => exact oblivious_settled (oblivious_submitVendor hturn payload)
  | takeRetained id => exact oblivious_takeRetained id
  | retained | requests | info | settings | devices | device | deviceConfig =>
      exact .get_bind (fun _ _ ↦ rfl) fun _ ↦ .pure _
  | clear | onVendor | onHotJoin | setSettings | close | adjust =>
      exact .bind (.modify fun _ _ ↦ rfl) fun _ ↦ .pure _
  | setDeviceConfig | setDeviceMaxIbi =>
      exact oblivious_settled (.get_bind (fun _ _ ↦ rfl) fun _ ↦ .bind (.ofResult _)
        fun _ ↦ oblivious_configureDevice hturn _ _ _)
  | changeAddress current new =>
      exact oblivious_settled (.get_bind (fun _ _ ↦ rfl) fun _ ↦ .bind (.ofResult _)
        fun _ ↦ .bind (.ofResult _) fun _ ↦ oblivious_controlOut hturn _ _ _ _)
  | enable selector =>
      exact oblivious_onFeature fun feature ↦ oblivious_switchFeature hturn feature true
  | disable selector =>
      refine oblivious_onFeature fun feature ↦ ?_
      unfold disable
      split
      · exact .bind (.throw _) fun _ ↦ oblivious_switchFeature hturn feature false
      · exact oblivious_switchFeature hturn feature false
  | exitHdr => exact oblivious_settled (oblivious_switchFeature hturn _ true)
  | controlBulk control => exact oblivious_settled (oblivious_controlOut hturn _ _ _ _)
  | pump => exact .bind (hturn _) fun _ ↦ .pure _
  | failWait error =>
      refine .bind (.modify fun engine posted ↦ ?_) fun _ ↦ .pure _
      unfold failWait
      split
      · rfl
      · rfl

/-- The calls that a callback makes. -/
theorem oblivious_follow (hook : Hook τ) : EngineM.Oblivious (follow turn hook) := by
  unfold follow
  split
  · exact .pure _
  · exact .bind (.mapM fun call _ ↦ oblivious_perform hturn call) fun _ ↦ .modify fun _ _ ↦ rfl

/-- Handing an answer to the callback that waits for it. -/
theorem oblivious_answer (request : TrackedRequest (Hook τ)) (response : CommandResponse) :
    EngineM.Oblivious (answer turn request response) := by
  refine .bind ?_ fun _ ↦ .modify fun _ _ ↦ rfl
  unfold runHook
  split
  · exact oblivious_follow hturn _
  · exact .bind (.modify fun _ _ ↦ rfl) fun _ ↦ oblivious_follow hturn _

/-- An answer that arrives, whether somebody waits for it or not. -/
theorem oblivious_resolve (response : CommandResponse) :
    EngineM.Oblivious (resolve turn response) := by
  refine .bind (.modifyGet fun engine posted ↦ ⟨posted, ?_⟩) fun request ↦ ?_
  · have htracker : (engine.withPosted posted).tracker = engine.tracker := rfl
    simp only [takePending, htracker]
    cases engine.tracker.takePending response.id <;> rfl
  · cases request with
    | none => exact .pure _
    | some request => exact oblivious_answer hturn request response

/-- A vendor-specific transfer that arrives. -/
theorem oblivious_resolveVendor (payload : Bytes) :
    EngineM.Oblivious (resolveVendor turn payload) := by
  refine .bind (.modifyGet fun engine posted ↦ ⟨posted, rfl⟩) fun hook ↦ ?_
  cases hook with
  | none => exact .pure _
  | some hook =>
      exact .bind (.bind (.modify fun _ _ ↦ rfl) fun _ ↦ oblivious_follow hturn hook)
        fun _ ↦ .modify fun _ _ ↦ rfl

/-- The end of answers, for all that wait. -/
theorem oblivious_failAll : EngineM.Oblivious (failAll turn) :=
  .bind (.modifyGet fun _ posted ↦ ⟨posted, rfl⟩)
    fun _ ↦ .forM fun request _ ↦ oblivious_answer hturn request _

/-- A transfer from the bulk endpoint, or the end of its stream. -/
theorem oblivious_handleBulkIn (result : TransportResult Bytes) :
    EngineM.Oblivious (handleBulkIn turn result) := by
  have hend : EngineM.Oblivious (handleBulkIn.endOfAnswers turn) :=
    .bind (.modify fun _ _ ↦ rfl) fun _ ↦ oblivious_failAll hturn
  unfold handleBulkIn
  split
  next data =>
    refine .bind ?_ fun _ ↦ .pure _
    unfold handleBulkResponse
    split
    next response _ =>
      refine .bind ?_ fun _ ↦ .pure _
      cases response with
      | regular responses => exact .forM fun response _ ↦ oblivious_resolve hturn response
      | vendorSpecific payload => exact oblivious_resolveVendor hturn payload
      | ibi payload => exact .pure _
    next => exact .pure _
  next => exact hend
  next => exact hend
  next => exact .pure _
  next => exact .pure _
  next => exact .pure _

/-- Asking for the data that a notification announces. -/
theorem oblivious_fetch (request : ClassRequest) (continuation : Continuation) :
    EngineOp.Oblivious (fetch turn request continuation) := by
  refine .get_bind (fun _ _ ↦ rfl) fun engine ↦ ?_
  split
  · exact oblivious_submitControlIn hturn _ _
  · exact .throw _

/-- A notification, whatever it asks for. -/
theorem oblivious_handleInterrupt (result : TransportResult Bytes) :
    EngineM.Oblivious (handleInterrupt turn result) := by
  unfold handleInterrupt
  split
  next data =>
    refine .bind (EngineOp.Oblivious.run ?_) fun _ ↦ .pure _
    refine .bind (.ofResult _) fun notification ↦ .bind (.ofResult _) fun kind ↦ ?_
    split
    next code => exact .bind (.liftM (oblivious_post _)) fun _ ↦ .pure _
    next => exact .pure _
    next => exact oblivious_fetch hturn _ _
    next => exact oblivious_fetch hturn _ _
    next => exact oblivious_fetch hturn _ _
  next => exact .pure _

omit [Transport τ] hturn in
/-- The answer to a request for later data: it may post an event or change the table. -/
theorem oblivious_handleControl (continuation : Continuation) (result : TransportResult Bytes) :
    EngineM.Oblivious (handleControl continuation result : EngineM τ Unit) := by
  unfold handleControl
  split
  next => exact .bind (oblivious_post _) fun _ ↦ .pure _
  next => exact .bind (oblivious_post _) fun _ ↦ .pure _
  next => exact .bind (oblivious_post _) fun _ ↦ .pure _
  next => exact .bind (oblivious_post _) fun _ ↦ .pure _
  next => exact .bind (oblivious_onTable _) fun _ ↦ .pure _
  next => exact .bind (oblivious_onTable _) fun _ ↦ .pure _
  next => exact .pure _
  next => exact .pure _

/-- Whatever a completion carries. -/
theorem oblivious_complete (completion : Completion) :
    EngineM.Oblivious (complete turn completion) := by
  cases completion with
  | control continuation result => exact oblivious_handleControl continuation result
  | bulkIn result =>
      refine .get_bind (fun _ _ ↦ rfl) fun engine ↦ ?_
      split
      · exact oblivious_handleBulkIn hturn result
      · exact .pure _
  | interrupt result =>
      refine .get_bind (fun _ _ ↦ rfl) fun engine ↦ ?_
      split
      · exact oblivious_handleInterrupt hturn result
      · exact .pure _

/-- All completions that the transport hands out on an occasion, one after the other. -/
theorem oblivious_deliver (moment : Moment) : EngineM.Oblivious (deliver turn moment) := by
  unfold deliver
  generalize maxDeliveries = allowed
  induction allowed with
  | zero => exact .pure _
  | succ allowed ih =>
      refine .bind (.modifyGet fun engine posted ↦ ⟨posted, ?_⟩) fun completion ↦ ?_
      · have htransport : (engine.withPosted posted).transport = engine.transport := rfl
        simp only [takeCompletion, htransport]
        cases Transport.next? moment engine.transport <;> rfl
      · split
        · exact .pure _
        · exact .bind (oblivious_complete hturn _) fun _ ↦ .bind ih fun _ ↦ .pure _

end Turn

/-- Whatever happens while the application waits for the event thread. -/
theorem oblivious_waiting (moment : Moment) :
    EngineM.Oblivious ((Turn.waiting : Turn τ) moment) := by
  refine .get_bind (fun _ _ ↦ rfl) fun engine ↦ ?_
  split
  · exact oblivious_deliver (fun _ ↦ .pure _) moment
  · exact .pure _

/-- Whatever the application lets happen. -/
theorem oblivious_application (moment : Moment) :
    EngineM.Oblivious ((Turn.application : Turn τ) moment) := by
  have hanswering (moment : Moment) : EngineM.Oblivious ((Turn.answering : Turn τ) moment) := by
    cases moment <;> exact oblivious_waiting _
  cases moment with
  | polling => exact oblivious_deliver hanswering .polling
  | _ => exact oblivious_waiting _

end Engine

end I3cHost
