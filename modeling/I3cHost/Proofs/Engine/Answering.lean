import I3cHost.Engine.Delivery
import I3cHost.Proofs.Engine.Permanence
import I3cHost.Proofs.Tracker.Progress

/-!
# What dealing with completions preserves

A completion can answer many requests, and each is taken out of the tracked ones before its
callback runs. A property is therefore stated relative to the requests in hand, that is, those that
have been taken out and are still to be answered. If every stage of dealing with an answer
preserves it (`Sustained`), so does dealing with any completion, and with all that are delivered on
an occasion.
-/

namespace I3cHost.Engine

section Hook

variable {τ : Type} [Transport τ] {turn : Turn τ} {P : Engine τ → Prop} {hook : Hook τ}

/-- The calls of a hook are reported, but a report is not an answer. -/
theorem Stable.follow (hP : Stable P)
    (hcalls : ∀ call ∈ hook.followUp, EngineM.Preserves P (Engine.perform turn call)) :
    EngineM.Preserves P (Engine.follow turn hook) := by
  unfold Engine.follow
  split
  · exact .pure _
  · exact .bind (.mapM hcalls) fun _ ↦ .modify fun _ ↦ hP.report rfl rfl _

/-- Running a hook on an answer, provided that hearing it preserves the property. -/
theorem Stable.runHook (hP : Stable P)
    (hcalls : ∀ call ∈ hook.followUp, EngineM.Preserves P (Engine.perform turn call))
    (response : CommandResponse)
    (hheard : ∀ engine, P engine → P (Engine.report (.response hook.label response) engine)) :
    EngineM.Preserves P (Engine.runHook turn hook response) := by
  unfold Engine.runHook
  split
  · exact hP.follow hcalls
  · exact .bind (.modify hheard) fun _ ↦ hP.follow hcalls

/-- Running the hook for vendor-specific transfers is a report and the calls of the hook. -/
theorem Stable.runVendorHook (hP : Stable P)
    (hcalls : ∀ call ∈ hook.followUp, EngineM.Preserves P (Engine.perform turn call))
    (payload : Bytes) : EngineM.Preserves P (Engine.runVendorHook turn hook payload) :=
  .bind (.modify fun _ ↦ hP.report rfl rfl _) fun _ ↦ hP.follow hcalls

/-- Running the hook for vendor-specific transfers, if it belongs to a set of hooks whose calls
preserve the property, and such a hook may be put back. -/
theorem Stable.resolveVendor {allowed : Hook τ → Prop} (hP : Stable P)
    (hheld : ∀ {engine hook}, P engine → engine.vendorHook = some hook → allowed hook)
    (hput : ∀ {engine vendorHook}, P engine → (∀ hook ∈ vendorHook, allowed hook) →
      P { engine with vendorHook })
    (hcalls : ∀ hook, allowed hook → ∀ call ∈ hook.followUp,
      EngineM.Preserves P (Engine.perform turn call)) (payload : Bytes) :
    EngineM.Preserves P (Engine.resolveVendor turn payload) := by
  intro engine h
  simp only [Engine.resolveVendor, takeVendorHook, EngineM.exec_bind, EngineM.exec_modifyGet]
  have htaken : P { engine with vendorHook := none } := hput h fun hook hhook ↦ nomatch hhook
  cases hvendor : engine.vendorHook with
  | none => exact htaken
  | some hook =>
      have hafter := hP.runVendorHook (hcalls hook (hheld h hvendor)) payload _ htaken
      -- The hook is put back when it returns, unless it has registered another one.
      refine hput hafter fun other hother ↦ ?_
      rcases Option.or_eq_some_iff.1 hother with hregistered | ⟨-, hrestored⟩
      · exact hheld hafter hregistered
      · exact Option.some.inj hrestored ▸ hheld h hvendor

end Hook

variable {τ : Type} [Transport τ] {turn : Turn τ}
  {P : List (TrackedRequest (Hook τ)) → Engine τ → Prop} {hand : List (TrackedRequest (Hook τ))}

/-- A property of states and of the requests in hand that every stage of dealing with answers
preserves. -/
structure Sustained (turn : Turn τ) (P : List (TrackedRequest (Hook τ)) → Engine τ → Prop) :
    Prop where
  stable : ∀ hand, Stable (P hand)
  /-- A request that is taken out is in hand. -/
  take : ∀ {hand engine id request tracker}, P hand engine →
    engine.tracker.takePending id = some (request, tracker) →
      P (request :: hand) { engine with tracker }
  /-- All requests that are taken out are in hand; answers may no longer be received by then. -/
  takeAll : ∀ {hand engine} (receiving : Bool),
    (receiving = true → engine.tracker.receiving = true) → P hand engine →
      P (engine.tracker.takeAllPending.1.toList ++ hand)
        { engine with tracker := { engine.tracker.takeAllPending.2 with receiving } }
  /-- Answering a request in hand settles it. -/
  answer : ∀ {hand engine request response}, response.id = request.id → P (request :: hand) engine →
    P hand ((Engine.answer turn request response).exec engine).2
  vendor : ∀ hand payload, EngineM.Preserves (P hand) (resolveVendor turn payload)

namespace Sustained

variable (h : Sustained turn P)

include h

/-- An answer that arrives: its request is taken in hand and settled. -/
theorem resolve (response : CommandResponse) :
    EngineM.Preserves (P hand) (Engine.resolve turn response) := by
  intro engine hengine
  simp only [Engine.resolve, Engine.takePending, EngineM.exec_bind, EngineM.exec_modifyGet]
  cases htake : engine.tracker.takePending response.id with
  | none => exact hengine
  | some taken =>
      obtain ⟨request, tracker⟩ := taken
      obtain ⟨-, -, -, -, hselect, -⟩ := Tracker.takePending_eq_some htake
      have hid : response.id = request.id := by
        simpa using (beq_iff_eq.1 (Bool.and_eq_true_iff.1 hselect).1).symm
      exact h.answer hid (h.take hengine htake)

/-- All requests in hand are settled one after the other. -/
theorem answerAll {requests : List (TrackedRequest (Hook τ))} {engine : Engine τ}
    (hengine : P (requests ++ hand) engine) :
    P hand ((requests.forM fun request ↦
      Engine.answer turn request (.transportFailure request.id)).exec engine).2 := by
  induction requests generalizing engine with
  | nil => exact hengine
  | cons request requests ih => exact ih (h.answer rfl hengine)

/-- The end of answers: all that wait are taken in hand, and settled one after the other. -/
theorem failAll : EngineM.Preserves (P hand) (Engine.failAll turn) :=
  -- All of them are taken before the first callback runs.
  fun engine hengine ↦ h.answerAll (h.takeAll engine.tracker.receiving id hengine)

/-- The end of the stream: answers are no longer received, and all that wait are told. -/
theorem endOfAnswers : EngineM.Preserves (P hand) (handleBulkIn.endOfAnswers turn) := by
  intro engine hengine
  have htaken := h.takeAll false nofun hengine
  exact h.answerAll htaken

/-- A transfer from the bulk endpoint, or the end of its stream. -/
theorem handleBulkIn (result : TransportResult Bytes) :
    EngineM.Preserves (P hand) (Engine.handleBulkIn turn result) := by
  unfold Engine.handleBulkIn
  split
  next data =>
    refine .bind ?_ fun _ ↦ .pure _
    unfold handleBulkResponse
    split
    next response _ =>
      refine .bind ?_ fun _ ↦ .pure _
      cases response with
      | regular responses => exact .forM fun response _ ↦ h.resolve response
      | vendorSpecific payload => exact h.vendor hand payload
      | ibi payload => exact .pure _
    next => exact .pure _
  next => exact h.endOfAnswers
  next => exact h.endOfAnswers
  next => exact .pure _
  next => exact .pure _
  next => exact .pure _

variable (hturn : ∀ moment, EngineM.Preserves (P hand) (turn moment))

include hturn

/-- Any completion. -/
theorem complete (completion : Completion) :
    EngineM.Preserves (P hand) (Engine.complete turn completion) := by
  cases completion with
  | control continuation result => exact (h.stable hand).handleControl continuation result
  | bulkIn result =>
      refine .bind .get fun _ ↦ ?_
      split
      · exact h.handleBulkIn result
      · exact .pure _
  | interrupt result =>
      refine .bind .get fun _ ↦ ?_
      split
      · exact (h.stable hand).handleInterrupt hturn result
      · exact .pure _

/-- Completions as they are handed out, up to a number. -/
theorem drain (moment : Moment) (allowed : Nat) :
    EngineM.Preserves (P hand) (Engine.drain turn moment allowed) := by
  induction allowed with
  | zero => exact .pure _
  | succ allowed ih =>
      refine .bind (.modifyGet fun engine hengine ↦ ?_) fun completion ↦ ?_
      · unfold takeCompletion
        split
        · exact h.stable hand _ _ (.transport engine _) hengine
        · exact hengine
      · split
        · exact .pure _
        · exact .bind (h.complete hturn _) fun _ ↦ .bind ih fun _ ↦ .pure _

/-- All completions that are handed out on an occasion. -/
theorem deliver (moment : Moment) : EngineM.Preserves (P hand) (Engine.deliver turn moment) :=
  h.drain hturn moment _

end Sustained

/-- Whatever happens while the application waits for the event thread. -/
theorem Sustained.waiting (h : Sustained Turn.busy P) (hand : List (TrackedRequest (Hook τ)))
    (moment : Moment) : EngineM.Preserves (P hand) (Turn.waiting moment) := by
  refine .bind .get fun engine ↦ ?_
  split
  · exact h.deliver (fun _ ↦ .pure _) moment
  · exact .pure _

/-- Whatever happens while the application deals with a completion itself. -/
theorem Sustained.answering (h : Sustained Turn.busy P) (hand : List (TrackedRequest (Hook τ)))
    (moment : Moment) : EngineM.Preserves (P hand) (Turn.answering moment) := by
  cases moment with
  | request => exact h.waiting hand .initRequest
  | waiting => exact h.waiting hand _
  | initRequest => exact h.waiting hand _
  | bufferQuery => exact h.waiting hand _
  | bulkOut => exact h.waiting hand _
  | polling => exact h.waiting hand _

/-- Whatever the application lets happen, also while polling is being started, provided that each of
some properties is sustained in every turn that preserves all of them. -/
theorem Sustained.application_all {ι : Type}
    {P : ι → List (TrackedRequest (Hook τ)) → Engine τ → Prop} (h : ∀ turn : Turn τ,
      (∀ i hand moment, EngineM.Preserves (P i hand) (turn moment)) → ∀ i, Sustained turn (P i))
    (i : ι) (hand : List (TrackedRequest (Hook τ))) (moment : Moment) :
    EngineM.Preserves (P i hand) (Turn.application moment) := by
  have hbusy : ∀ i, Sustained Turn.busy (P i) := h _ fun _ _ _ ↦ .pure _
  have hanswering : ∀ i, Sustained Turn.answering (P i) := h _ fun i ↦ (hbusy i).answering
  cases moment with
  | polling => exact (hanswering i).deliver ((hbusy i).answering hand) .polling
  | waiting => exact (hbusy i).waiting hand _
  | initRequest => exact (hbusy i).waiting hand _
  | request => exact (hbusy i).waiting hand _
  | bufferQuery => exact (hbusy i).waiting hand _
  | bulkOut => exact (hbusy i).waiting hand _

/-- Whatever the application lets happen, provided that the property is sustained in every turn that
preserves it. -/
theorem Sustained.application (h : ∀ turn : Turn τ,
      (∀ hand moment, EngineM.Preserves (P hand) (turn moment)) → Sustained turn P)
    (hand : List (TrackedRequest (Hook τ))) (moment : Moment) :
    EngineM.Preserves (P hand) (Turn.application moment) :=
  application_all (P := fun _ : Unit ↦ P) (fun turn hturn _ ↦ h turn (hturn ())) () hand moment

end I3cHost.Engine
