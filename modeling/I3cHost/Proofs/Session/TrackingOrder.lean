import I3cHost.Proofs.Session.EndOfAnswers
import I3cHost.Proofs.Tracker.SubmissionOrder

/-!
# In which order a session lists its requests

The tracked requests of a session change in the steps of a `TrackerRun`: what is done with a request
never depends on its callback, so it is the same whether or not the callback knows when its request
was submitted (`Shows`). A session lists its requests in the order in which they took their places,
which need not be the order of submission (`records_inOrder_iff`).
-/

namespace I3cHost

namespace Tracker

variable {κ ν : Type} {change : κ → ν} {tracker : Tracker κ} {image : Tracker ν}

/-- A tracker has the requests of another with other callbacks. -/
def Mirrors (change : κ → ν) (tracker : Tracker κ) (image : Tracker ν) : Prop :=
  image.requests = tracker.requests.map (·.map change)

namespace Mirrors

variable (h : Mirrors change tracker image)

include h

/-- Callbacks do not show in the records. -/
theorem records_eq : image.records = tracker.records := by
  rw [records, records, h, Array.toList_map, List.map_map]
  rfl

/-- The same batch is tracked behind both. -/
theorem track (batch : Array (TrackedRequest κ)) :
    Mirrors change (tracker.track batch) (image.track (batch.map (·.map change))) := by
  show image.requests ++ _ = (tracker.requests ++ batch).map _
  rw [h, Array.map_append]

/-- The same request is kept or forgotten in both. -/
theorem settle (request : TrackedRequest κ) (response : CommandResponse) (keep : Bool) :
    Mirrors change (tracker.settle request response keep)
      (image.settle (request.map change) response keep) := by
  cases keep with
  | false => exact h
  | true =>
      show image.requests.push _ = (tracker.requests.push _).map _
      rw [h, Array.map_push]
      rfl

/-- Whether a request is selected does not depend on its callback. -/
theorem filter (select : TrackedRequest κ → Bool) (selectImage : TrackedRequest ν → Bool)
    (hselect : ∀ request, selectImage (request.map change) = select request) :
    image.requests.filter selectImage =
      (tracker.requests.filter select).map (·.map change) := by
  have hsame : selectImage ∘ (·.map change) = select := funext hselect
  rw [h, Array.filter_map, hsame]

/-- A request that is found without asking for callbacks is found at the same position. -/
theorem findIdx? (select : TrackedRequest κ → Bool) (selectImage : TrackedRequest ν → Bool)
    (hselect : ∀ request, selectImage (request.map change) = select request) :
    image.requests.findIdx? selectImage = tracker.requests.findIdx? select := by
  have hsame : selectImage ∘ (·.map change) = select := funext hselect
  rw [h, Array.findIdx?_map, hsame]

/-- The requests that are left are the same. -/
theorem erase (index : Nat) : image.requests.eraseIdxIfInBounds index =
    (tracker.requests.eraseIdxIfInBounds index).map (·.map change) := by
  apply Array.toList_inj.1
  rw [h, Array.toList_eraseIdxIfInBounds, Array.toList_map, Array.toList_map,
    Array.toList_eraseIdxIfInBounds, List.eraseIdx_map]

/-- The same request waits under an identifier in both. -/
theorem takePending (id : UInt16) : image.takePending id =
    (tracker.takePending id).map fun taken ↦ (taken.1.map change,
      { image with requests := taken.2.requests.map (·.map change) }) := by
  have hfound := h.findIdx? (fun request ↦ request.id == id && request.isPending)
    (fun request ↦ request.id == id && request.isPending) fun _ ↦ rfl
  simp only [Tracker.takePending, hfound]
  cases tracker.requests.findIdx? fun request ↦ request.id == id && request.isPending with
  | none => rfl
  | some index =>
      have hrequest : image.requests[index]? = (tracker.requests[index]?).map (·.map change) := by
        rw [h, Array.getElem?_map]
      simp only [bind, Option.bind_some, hrequest, h.erase]
      cases tracker.requests[index]? <;> rfl

/-- The same answer was kept under an identifier in both. -/
theorem takeRetained (id : UInt16) : image.takeRetained id =
    (tracker.takeRetained id).map fun taken ↦ (taken.1,
      { image with requests := taken.2.requests.map (·.map change) }) := by
  have hfound := h.findIdx? (fun request ↦ request.id == id && !request.isPending)
    (fun request ↦ request.id == id && !request.isPending) fun _ ↦ rfl
  simp only [Tracker.takeRetained, hfound]
  cases tracker.requests.findIdx? fun request ↦ request.id == id && !request.isPending with
  | none => rfl
  | some index =>
      have hrequest : image.requests[index]? = (tracker.requests[index]?).map (·.map change) := by
        rw [h, Array.getElem?_map]
      simp only [bind, Option.bind_some, hrequest, h.erase]
      rcases tracker.requests[index]? with _ | ⟨id, dependent, callback, _ | response⟩ <;> rfl

end Mirrors

end Tracker

namespace TrackerRun

variable {τ : Type} {run : TrackerRun (Hook τ)} {engine : Engine τ}

/-- The tracked requests of a session are those of a run. -/
def Shows (run : TrackerRun (Hook τ)) (engine : Engine τ) : Prop :=
  Tracker.Mirrors Ticket.callback run.tracker engine.tracker

/-- An answer is dealt with in these steps, if its callback only decides. -/
def answering (response : CommandResponse) (run : TrackerRun (Hook τ)) :
    List (TrackerStep (Hook τ)) :=
  match run.tracker.takePending response.id with
  | none => []
  | some (request, _) =>
      [.arrive response.id, .settle 0 response (request.callback.callback.keep response)]

/-- The first request in hand is told that its transfer failed. -/
def telling (request : TrackedRequest (Ticket (Hook τ))) : TrackerStep (Hook τ) :=
  .settle 0 (.transportFailure request.id)
    (request.callback.callback.keep (.transportFailure request.id))

/-- The end of the answers is dealt with in these steps, if all callbacks only decide. -/
def failing (run : TrackerRun (Hook τ)) : List (TrackerStep (Hook τ)) :=
  .stop :: (run.tracked.filter (·.isPending)).map telling

namespace Shows

variable (h : run.Shows engine)

include h

/-- Requests that are handed over all wait. -/
theorem submit (first : UInt16) (dependent : Bool) :
    (run.step (.submit (engine.queue.handOver first dependent).1)).Shows
      (engine.trackQueued first dependent) := by
  have htracked := Tracker.Mirrors.track h (run.stamp (engine.queue.handOver first dependent).1)
  rwa [map_stamp (engine.queue.response_handOver first dependent)] at htracked

/-- Withdrawing a batch is one step. -/
theorem withdraw (first : UInt16) :
    (run.step (.withdraw first engine.queue.size)).Shows (engine.withdrawQueued first) :=
  Tracker.Mirrors.filter h _ _ fun _ ↦ rfl

/-- Taking an answer is one step. -/
theorem takeRetained (id : UInt16) :
    (run.step (.takeRetained id)).Shows (Engine.takeRetained id engine).2 := by
  show (run.takeRetained id).Shows (Engine.takeRetained id engine).2
  unfold TrackerRun.takeRetained Engine.takeRetained
  rw [Tracker.Mirrors.takeRetained h]
  cases run.tracker.takeRetained id with
  | none => exact h
  | some taken => exact rfl

variable [Transport τ]

/-- The first request in hand is answered. -/
theorem settle {request : TrackedRequest (Ticket (Hook τ))} (hhand : run.hand[0]? = some request)
    (hdecides : (request.map Ticket.callback).callback.OnlyDecides) (turn : Turn τ)
    (response : CommandResponse) :
    (run.step (.settle 0 response (request.callback.callback.keep response))).Shows
      ((Engine.answer turn (request.map Ticket.callback) response).exec engine).2 := by
  obtain ⟨htracker, -⟩ := Engine.exec_answer_deciding hdecides turn response engine
  show (run.settle 0 response (request.callback.callback.keep response)).Shows _
  rw [Shows, htracker, TrackerRun.settle, hhand]
  exact Tracker.Mirrors.settle h (request.moved run.places) response _

/-- Requests in hand are told one after the other that their transfers failed. -/
theorem tell (turn : Turn τ) {requests others : List (TrackedRequest (Ticket (Hook τ)))}
    (hhand : run.hand = requests ++ others)
    (hdecide : ∀ request ∈ requests, request.callback.callback.OnlyDecides) :
    (run.after (requests.map telling)).Shows
      (((requests.map (·.map Ticket.callback)).forM fun request ↦
        Engine.answer turn request (.transportFailure request.id)).exec engine).2 := by
  induction requests generalizing run engine with
  | nil => exact h
  | cons request requests ih =>
      obtain ⟨hfirst, hothers⟩ := List.forall_mem_cons.1 hdecide
      have hhead : run.hand[0]? = some request := by rw [hhand]; rfl
      have htold := h.settle hhead hfirst turn (.transportFailure request.id)
      have hrest : (run.step (telling request)).hand = requests ++ others := by
        show (run.settle 0 _ _).hand = _
        rw [TrackerRun.settle, hhead, hhand]
        rfl
      exact ih htold hrest hothers

variable (hdecide : ∀ request ∈ engine.awaiting, request.callback.OnlyDecides)

include hdecide

/-- An answer is dealt with. -/
theorem resolve (turn : Turn τ) (response : CommandResponse) :
    (run.after (run.answering response)).Shows ((Engine.resolve turn response).exec engine).2 := by
  have htaken := Tracker.Mirrors.takePending h response.id
  rw [Engine.resolve, EngineM.exec_bind, EngineM.exec_modifyGet, Engine.takePending, answering]
  cases htake : run.tracker.takePending response.id with
  | none =>
      rw [htaken, htake]
      exact h
  | some taken =>
      obtain ⟨request, tracker⟩ := taken
      rw [htake] at htaken
      have hdecides : request.callback.callback.OnlyDecides := by
        obtain ⟨_, _, _, -, hwaits, -⟩ := Tracker.takePending_eq_some htaken
        refine hdecide (request.map Ticket.callback) (Engine.mem_awaiting.2 ⟨?_, ?_⟩)
        · exact (Tracker.mem_of_takePending htaken).1
        · exact (Bool.and_eq_true_iff.1 hwaits).2
      have harrived : (run.step (.arrive response.id)).Shows
          { engine with tracker := { engine.tracker with
            requests := tracker.requests.map (·.map Ticket.callback) } } := by
        show (run.arrive response.id).Shows _
        rw [TrackerRun.arrive, htake]
        exact rfl
      have hhand : (run.step (.arrive response.id)).hand[0]? = some request := by
        show (run.arrive response.id).hand[0]? = _
        rw [TrackerRun.arrive, htake]
        rfl
      rw [htaken]
      exact harrived.settle hhand hdecides turn response

/-- The end of the answers is dealt with. -/
theorem failAll (turn : Turn τ) :
    (run.after run.failing).Shows ((Engine.failAll turn).exec engine).2 := by
  let pending := run.tracked.filter (·.isPending)
  have hpending : engine.awaiting = pending.map (·.map Ticket.callback) := by
    have hfiltered := congrArg Array.toList
      (Tracker.Mirrors.filter h (·.isPending) (·.isPending) fun _ ↦ rfl)
    rwa [Array.toList_filter, Array.toList_map, Array.toList_filter] at hfiltered
  have hstopped : (run.step .stop).Shows
      { engine with tracker := engine.tracker.takeAllPending.2 } :=
    Tracker.Mirrors.filter h _ _ fun _ ↦ rfl
  have hhand : (run.step .stop).hand = pending ++ run.hand :=
    congrArg (· ++ run.hand) Array.toList_filter
  have htold := hstopped.tell turn hhand fun request hrequest ↦
    hdecide (request.map Ticket.callback) (hpending ▸ List.mem_map_of_mem hrequest)
  rw [← hpending] at htold
  have hfailed : ((Engine.failAll turn).exec engine).2 =
      ((engine.awaiting.forM fun request ↦
        Engine.answer turn request (.transportFailure request.id)).exec
          { engine with tracker := engine.tracker.takeAllPending.2 }).2 := by
    rw [Engine.awaiting, ← Array.toList_filter]
    rfl
  rw [hfailed]
  exact htold

end Shows

/-- A session that was just opened shows the run that has not begun. -/
theorem shows_ofTransport {transport : τ} {options : SessionOptions}
    (h : Session.ofTransport transport options = .ok engine) :
    ({} : TrackerRun (Hook τ)).Shows engine := by
  obtain ⟨-, htracker, -⟩ := Engine.ofTransport_eq_ok h
  rw [Shows, htracker]
  exact Array.map_empty.symm

/-- Whatever is submitted, answered, kept, withdrawn and taken, in any order and also while
callbacks run: the requests that were submitted are tracked, in hand or released, each once. Those
that are tracked are in the order in which they took their places, and those that wait in the order
of submission. All of them are in the order of submission exactly if none that was kept took its
place after one that was submitted later. A session that was just opened shows the run that has not
begun. One that shows the requests of a run lists them in their order, and what it does with them it
does in the steps of the run. -/
theorem records_inOrder_iff [Transport τ] (steps : List (TrackerStep (Hook τ))) :
    let run := ({} : TrackerRun (Hook τ)).after steps
    run.Orderly ∧ (numbers (run.tracked.filter (·.isPending))).Pairwise (· < ·) ∧
    (run.InOrder ↔ ∀ kept ∈ run.tracked, kept.isPending = false →
      ∀ other ∈ run.tracked, kept.callback.number < other.callback.number →
        kept.callback.place < other.callback.place) ∧
    (∀ (transport : τ) options session, Session.ofTransport transport options = .ok session →
      ({} : TrackerRun (Hook τ)).Shows session) ∧
    ∀ engine : Engine τ, run.Shows engine →
      engine.tracker.records = run.tracked.map (·.record) ∧
      (∀ first dependent, (run.step (.submit (engine.queue.handOver first dependent).1)).Shows
        (engine.trackQueued first dependent)) ∧
      (∀ first, (run.step (.withdraw first engine.queue.size)).Shows
        (engine.withdrawQueued first)) ∧
      (∀ id, (run.step (.takeRetained id)).Shows (Engine.takeRetained id engine).2) ∧
      ((∀ request ∈ engine.awaiting, request.callback.OnlyDecides) → ∀ turn,
        (∀ response, (run.after (run.answering response)).Shows
          ((Engine.resolve turn response).exec engine).2) ∧
        (run.after run.failing).Shows ((Engine.failAll turn).exec engine).2) := by
  intro run
  have horderly : run.Orderly := orderly_start.after steps
  refine ⟨horderly, horderly.waiting_inOrder, horderly.inOrder_iff,
    fun _ _ _ hopen ↦ shows_ofTransport hopen, fun engine hshows ↦ ?_⟩
  exact ⟨hshows.records_eq, hshows.submit, hshows.withdraw, hshows.takeRetained,
    fun hdecide turn ↦ ⟨hshows.resolve hdecide turn, hshows.failAll hdecide turn⟩⟩

/-- A session in which two commands wait to be sent. The callback of the first keeps its request. -/
def keepingFirst : Engine RoomyTransport where
  transport := {}
  tracker := { receiving := true }
  queue :=
    let command : Command (Hook RoomyTransport) := reader
    ⟨#[{ command with callback := some { label := "keeper", keep := fun _ ↦ true } }, command]⟩
  pipes := { bulkInAttached := true }

/-- The first of two requests is answered and kept. It was submitted first and is listed last. -/
theorem not_inOrder_keepingFirst :
    let run := ({} : TrackerRun (Hook RoomyTransport)).after
      [.submit (keepingFirst.queue.handOver 0 false).1, .arrive 0,
        .settle 0 (Engine.bareAnswer 0) true]
    let submitted := keepingFirst.after [.call (.submit false)]
    let answered := submitted.after
      [.completion (.bulkIn (.ok [0, 0, 0, 0, 0, 0, 1, 0, 0, 0, 0, 0]))]
    ¬ run.InOrder ∧
    submitted.tracker.records = [⟨0, false, none⟩, ⟨1, true, none⟩] ∧
    answered.tracker.records = [⟨1, true, none⟩, ⟨0, false, some (Engine.bareAnswer 0)⟩] := by
  intro run submitted answered
  have hnumbers : numbers run.tracked = [1, 0] := by decide +kernel
  refine ⟨fun horder ↦ ?_, by decide +kernel, by decide +kernel⟩
  rw [InOrder, hnumbers] at horder
  exact absurd horder (by decide)

end TrackerRun

end I3cHost
