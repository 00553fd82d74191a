import I3cHost.Proofs.Engine.Answering

/-!
# What completions can do while the queue is held

A submission holds the queue until it returns, so a callback that runs meanwhile cannot make a
call for which it would need the queue. Then nothing that is delivered changes the queue, and the
tracked requests only make progress. `During` is the invariant of the states of such a time, and
dealing with completions preserves it (`sustained_during`).
-/

namespace I3cHost

/-- Whether a call has to hold the queue. -/
def Call.holdsQueue {κ τ : Type} : Call κ τ → Bool
  | .enqueue _ _ => true
  | .clear => true
  | .submit _ => true
  | .submitVendor _ => true
  | _ => false

/-- A hook makes no calls that have to hold the queue, and registers only such hooks. -/
inductive Hook.SparesQueue {τ : Type} : Hook τ → Prop
  | intro {hook : Hook τ} (calls : ∀ call ∈ hook.followUp, call.holdsQueue = false)
      (registered : ∀ callback, .onVendor (some callback) ∈ hook.followUp →
        callback.SparesQueue) : hook.SparesQueue

namespace Engine

variable {τ : Type} {start engine : Engine τ} {hand : List (TrackedRequest (Hook τ))}

/-- Every hook that could run leaves the queue alone. -/
structure HooksSpareQueue (engine : Engine τ) : Prop where
  queued : ∀ command ∈ engine.queue.commands, ∀ hook ∈ command.callback, hook.SparesQueue
  tracked : ∀ request ∈ engine.tracker.requests, request.callback.SparesQueue
  vendor : ∀ hook ∈ engine.vendorHook, hook.SparesQueue

/-- A state in which some completions have been dealt with since a first state, while the requests
in hand are being answered. -/
structure During (start : Engine τ) (hand : List (TrackedRequest (Hook τ))) (engine : Engine τ) :
    Prop where
  queue : engine.queue = start.queue
  progress : start.tracker.Progress hand engine.tracker
  vendor : ∀ hook ∈ engine.vendorHook, hook.SparesQueue

/-- At first no completion has been dealt with. -/
theorem HooksSpareQueue.during (h : HooksSpareQueue engine) : During engine [] engine :=
  ⟨rfl, .refl _, h.vendor⟩

/-- Hooks that leave the queue alone are all that is left after completions. -/
theorem During.hooksSpareQueue (h : During start [] engine) (hstart : start.HooksSpareQueue) :
    engine.HooksSpareQueue where
  queued := h.queue ▸ hstart.queued
  tracked request hrequest := by
    obtain ⟨original, horiginal, -, -, hsame⟩ :=
      h.progress.mem_origin (.inl (Array.mem_toList_iff.2 hrequest))
    exact hsame ▸ hstart.tracked original (Array.mem_toList_iff.1 horiginal)
  vendor := h.vendor

/-- What has become of the tracked requests depends on queue, tracker and hooks alone. -/
theorem ofLedger_during : OfLedger (During start hand) := by
  intro before after hledger h
  simp only [ledger, Prod.mk.injEq] at hledger
  obtain ⟨hqueue, hnextId, hrequests, hvendor⟩ := hledger
  constructor
  case queue => rw [hqueue, h.queue]
  case progress =>
    obtain ⟨hid, hlatest, horigin⟩ := h.progress
    refine ⟨hnextId.trans hid, fun id ↦ ?_, by rwa [hrequests]⟩
    rw [Tracker.waitingUnder, hrequests]
    exact hlatest id
  case vendor => rw [hvendor]; exact h.vendor

section Turn

variable [Transport τ] {turn : Turn τ}

/-- A call that does not have to hold the queue. -/
theorem perform_preserves (hturn : ∀ moment, EngineM.Preserves (During start hand) (turn moment))
    {call : Call (Hook τ) τ} (hcall : call.holdsQueue = false)
    (hregistered : ∀ callback, call = .onVendor (some callback) → callback.SparesQueue) :
    EngineM.Preserves (During start hand) (perform turn call) := by
  intro engine h
  have haccount : OfAccount (During start hand) := ofLedger_during.ofAccount
  refine haccount.perform_cases hturn h ?polling ?enqueue ?clear ?submit ?takeRetained ?onVendor
  case polling =>
    exact fun _ ↦ haccount.permanent.durable.startBulkIn hturn fun _ _ ↦ ofLedger_during _ _ rfl
  case enqueue => rintro _ _ rfl; cases hcall
  case clear => rintro rfl; cases hcall
  case submit => rintro _ rfl; cases hcall
  case takeRetained =>
    rintro id -
    unfold takeRetained
    split
    next response tracker htake => exact ⟨h.queue, h.progress.takeRetained htake, h.vendor⟩
    next => exact h
  case onVendor =>
    rintro callback rfl
    refine ⟨h.queue, h.progress, ?_⟩
    rintro hook rfl
    exact hregistered hook rfl

/-- The calls of a hook do not have to hold the queue. -/
theorem followUp_preserves
    (hturn : ∀ moment, EngineM.Preserves (During start hand) (turn moment)) {hook : Hook τ}
    (hhook : hook.SparesQueue) : ∀ call ∈ hook.followUp,
      EngineM.Preserves (During start hand) (perform turn call) := by
  obtain ⟨hcalls, hregistered⟩ := hhook
  intro call hcall
  apply perform_preserves hturn (hcalls call hcall)
  rintro callback rfl
  exact hregistered callback hcall

variable (hstart : start.HooksSpareQueue)
  (hturn : ∀ hand moment, EngineM.Preserves (During start hand) (turn moment))

include hstart hturn

/-- Answering a request in hand settles it. -/
theorem During.answer {request : TrackedRequest (Hook τ)}
    (h : During start (request :: hand) engine) (response : CommandResponse) :
    During start hand ((Engine.answer turn request response).exec engine).2 := by
  have hcallback : request.callback.SparesQueue := by
    obtain ⟨original, horiginal, -, -, hsame⟩ := h.progress.mem_origin (.inr List.mem_cons_self)
    exact hsame ▸ hstart.tracked original (Array.mem_toList_iff.1 horiginal)
  have hrun := ofLedger_during.permanent.stable.runHook (followUp_preserves (hturn _) hcallback)
    response (fun _ ↦ ofLedger_during _ _ rfl) engine h
  exact ⟨hrun.queue, hrun.progress.settle response _, hrun.vendor⟩

/-- The invariant holds however many completions there are and whatever they carry. -/
theorem sustained_during : Sustained turn (During start) where
  stable _ := ofLedger_during.permanent.stable
  take h htake := ⟨h.queue, h.progress.takePending htake, h.vendor⟩
  takeAll _ _ h :=
    have htaken := h.progress.takeAllPending
    ⟨h.queue, ⟨htaken.nextId, htaken.latest, htaken.origin⟩, h.vendor⟩
  answer _ h := h.answer hstart hturn _
  vendor _ payload :=
    ofLedger_during.permanent.stable.resolveVendor (fun h hhook ↦ h.vendor _ hhook)
      (fun h hvendor ↦ ⟨h.queue, h.progress, hvendor⟩)
      (fun _ hhook ↦ followUp_preserves (hturn _) hhook) payload

end Turn

variable [Transport τ]

/-- While the event thread deals with completions it is busy. -/
theorem sustained_busy_during (hstart : start.HooksSpareQueue) :
    Sustained Turn.busy (During start) :=
  sustained_during hstart fun _ _ ↦ .pure _

/-- Whatever the event thread delivers on one occasion. -/
theorem deliver_preserves (hstart : start.HooksSpareQueue) (moment : Moment) :
    EngineM.Preserves (During start hand) (deliver Turn.busy moment) :=
  (sustained_busy_during hstart).deliver (fun _ ↦ .pure _) moment

/-- Nothing happens on an occasion on which the transport has nothing to hand out. -/
theorem deliver_of_none (turn : Turn τ) {moment : Moment}
    (h : Transport.next? moment engine.transport = none) :
    ((deliver turn moment).exec engine).2 = engine := by
  obtain ⟨allowed, hallowed⟩ : ∃ allowed, maxDeliveries = allowed + 1 := ⟨_, rfl⟩
  have htake : takeCompletion moment engine = (none, engine) := by
    unfold takeCompletion
    rw [h]
  rw [deliver, hallowed, drain, EngineM.exec_bind, EngineM.exec_modifyGet, htake]
  rfl

end Engine

namespace Turn

variable {τ : Type} [Transport τ] {turn : Turn τ} {moment : Moment}

/-- While a request is being sent either nothing happens, or the event thread deals with all that
the transport hands out. -/
def Ordinary (turn : Turn τ) : Prop :=
  ∀ moment, moment = .bufferQuery ∨ moment = .bulkOut → ∀ engine,
    ((turn moment).exec engine).2 = engine ∨
      ((turn moment).exec engine).2 = ((Engine.deliver busy moment).exec engine).2

/-- On a busy event thread nothing happens while a request is being sent. -/
theorem ordinary_busy : Ordinary (busy : Turn τ) :=
  fun _ _ _ ↦ .inl rfl

/-- While the application waits the event thread deals with what the transport hands out. -/
theorem ordinary_waiting : Ordinary (waiting : Turn τ) := by
  intro moment _ engine
  unfold waiting
  rw [EngineM.exec_bind, EngineM.exec_get]
  split
  · exact .inr rfl
  · exact .inl rfl

/-- Nothing happens while the event thread is waited for if the transport has nothing to hand
out. -/
theorem waiting_idle {engine : Engine τ} (h : Transport.next? moment engine.transport = none) :
    ((waiting moment).exec engine).2 = engine := by
  unfold waiting
  rw [EngineM.exec_bind, EngineM.exec_get]
  split
  · exact Engine.deliver_of_none _ h
  · rfl

/-- Requests that are made while polling is being started are sent in an ordinary turn. -/
theorem ordinary_answering : Ordinary (answering : Turn τ)
  | .bufferQuery, h => ordinary_waiting _ h
  | .bulkOut, h => ordinary_waiting _ h

/-- Whoever sends a request on the application's thread does so in an ordinary turn. -/
theorem ordinary_application : Ordinary (application : Turn τ)
  | .bufferQuery, h => ordinary_waiting _ h
  | .bulkOut, h => ordinary_waiting _ h

namespace Ordinary

variable (hturn : turn.Ordinary) (hmoment : moment = .bufferQuery ∨ moment = .bulkOut)
  {engine : Engine τ}

include hturn hmoment

/-- What the event thread preserves is preserved while a request is being sent. -/
theorem preserves {P : Engine τ → Prop}
    (hdeliver : EngineM.Preserves P (Engine.deliver busy moment)) :
    EngineM.Preserves P (turn moment) := by
  intro engine h
  rcases hturn moment hmoment engine with hsame | hdelivered
  · rwa [hsame]
  · rw [hdelivered]
    exact hdeliver engine h

/-- Where the transport hands out nothing, nothing happens. -/
theorem idle (h : Transport.next? moment engine.transport = none) :
    ((turn moment).exec engine).2 = engine := by
  rcases hturn moment hmoment engine with hsame | hdelivered
  · exact hsame
  · rw [hdelivered, Engine.deliver_of_none _ h]

end Ordinary

end Turn

end I3cHost
