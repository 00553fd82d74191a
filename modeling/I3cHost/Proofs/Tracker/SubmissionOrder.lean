import Mathlib.Data.List.Perm.Basic
import I3cHost.Proofs.Tracker.Progress

/-!
# In which order requests are tracked

Requests that are submitted take their places behind all others. One that is answered leaves its
place, and if its callback keeps it, it takes another behind all others when the callback returns.
Meanwhile anything may happen (`TrackerStep`). So requests are tracked in the order in which they
took their places, and those that wait in the order of submission (`Orderly.after`). This is the
order of submission for all of them unless one that was kept took its place after one that was
submitted later (`Orderly.inOrder_iff`).
-/

namespace I3cHost

/-- A callback that knows when its request was submitted and took its place. -/
structure Ticket (κ : Type) where
  callback : κ
  /-- The number of requests submitted before. -/
  number : Nat
  /-- The number of places taken before. -/
  place : Nat

/-- What concerns the tracked requests. -/
inductive TrackerStep (κ : Type) where
  /-- Requests are submitted, and wait. -/
  | submit (batch : Array (TrackedRequest κ))
  /-- A submission has failed, and its requests are withdrawn. -/
  | withdraw (first : UInt16) (count : Nat)
  /-- An answer arrives, and the callback of the request that waits for it begins to run. -/
  | arrive (id : UInt16)
  /-- No more answers arrive, and all requests that wait are to be told. -/
  | stop
  /-- The callback of a request in hand returns, and has decided whether it is kept. -/
  | settle (index : Nat) (response : CommandResponse) (keep : Bool)
  /-- Somebody takes the answer that was kept under an identifier. -/
  | takeRetained (id : UInt16)

namespace TrackedRequest

variable {κ ν : Type}

/-- The request with another callback. -/
def map (change : κ → ν) (request : TrackedRequest κ) : TrackedRequest ν where
  id := request.id
  dependent := request.dependent
  callback := change request.callback
  response := request.response

/-- The request with another place. -/
def moved (place : Nat) (request : TrackedRequest (Ticket κ)) : TrackedRequest (Ticket κ) :=
  { request with callback := { request.callback with place } }

end TrackedRequest

namespace Tracker

variable {κ : Type} {tracker rest : Tracker κ}

/-- The request whose answer was kept under an identifier. -/
def keptUnder? (id : UInt16) (tracker : Tracker κ) : Option (TrackedRequest κ) :=
  tracker.requests.toList.find? fun request ↦ request.id == id && !request.isPending

/-- The answer that is taken is that of the request that is forgotten. -/
theorem keptUnder?_of_takeRetained {id : UInt16} {response : CommandResponse}
    (h : tracker.takeRetained id = some (response, rest)) :
    ∃ front request back, tracker.keptUnder? id = some request ∧
      tracker.requests.toList = front ++ request :: back ∧
      rest.requests.toList = front ++ back := by
  simp only [takeRetained, bind, Option.bind_eq_some_iff, pure, Option.some.injEq,
    Prod.mk.injEq] at h
  obtain ⟨index, hindex, request, hrequest, kept, hkept, rfl, rfl⟩ := h
  obtain ⟨front, back, hrequests, herase, hselect, hfront⟩ := erase_found hindex hrequest
  refine ⟨front, request, back, ?_, hrequests, congrArg Array.toList herase⟩
  rw [keptUnder?, hrequests, List.find?_eq_some_iff_append]
  exact ⟨hselect, front, back, rfl, fun other hother ↦ by rw [hfront other hother]; rfl⟩

end Tracker

/-- Tracked requests, with the requests in hand and what has become of all others. -/
structure TrackerRun (κ : Type) where
  tracker : Tracker (Ticket κ) := {}
  /-- The requests whose callbacks run or are about to. -/
  hand : List (TrackedRequest (Ticket κ)) := []
  /-- The number of requests submitted. -/
  submitted : Nat := 0
  /-- The number of places taken. -/
  places : Nat := 0
  /-- The numbers of the requests that were withdrawn, forgotten or whose answers were taken. -/
  released : List Nat := []

namespace TrackerRun

variable {κ : Type} {run next : TrackerRun κ}

/-- The tracked requests. -/
def tracked (run : TrackerRun κ) : List (TrackedRequest (Ticket κ)) :=
  run.tracker.requests.toList

/-- The numbers of requests. -/
def numbers (requests : List (TrackedRequest (Ticket κ))) : List Nat :=
  requests.map (·.callback.number)

/-- Requests that are submitted, with the next numbers and places. -/
def stamp (batch : Array (TrackedRequest κ)) (run : TrackerRun κ) :
    Array (TrackedRequest (Ticket κ)) :=
  batch.mapIdx fun index request ↦
    { id := request.id
      dependent := request.dependent
      callback := ⟨request.callback, run.submitted + index, run.places + index⟩ }

/-- An answer arrives. -/
def arrive (id : UInt16) (run : TrackerRun κ) : TrackerRun κ :=
  match run.tracker.takePending id with
  | none => run
  | some (request, tracker) => { run with tracker, hand := request :: run.hand }

/-- The callback of a request in hand returns. If the request is kept it takes the next place. -/
def settle (index : Nat) (response : CommandResponse) (keep : Bool) (run : TrackerRun κ) :
    TrackerRun κ :=
  match run.hand[index]? with
  | none => run
  | some request =>
      { run with
        tracker := run.tracker.settle (request.moved run.places) response keep
        hand := run.hand.eraseIdx index
        places := run.places + 1
        released := if keep then run.released else request.callback.number :: run.released }

/-- The answer that was kept under an identifier is taken. -/
def takeRetained (id : UInt16) (run : TrackerRun κ) : TrackerRun κ :=
  match run.tracker.takeRetained id with
  | none => run
  | some (_, tracker) =>
      { run with
        tracker, released := numbers (run.tracker.keptUnder? id).toList ++ run.released }

/-- The run after a step. -/
def step (run : TrackerRun κ) : TrackerStep κ → TrackerRun κ
  | .submit batch =>
      { run with
        tracker := run.tracker.track (run.stamp batch)
        submitted := run.submitted + batch.size
        places := run.places + batch.size }
  | .withdraw first count =>
      let (withdrawn, tracker) := run.tracker.withdraw first count
      { run with tracker, released := numbers withdrawn.toList ++ run.released }
  | .arrive id => run.arrive id
  | .stop =>
      let (pending, tracker) := run.tracker.takeAllPending
      { run with tracker, hand := pending.toList ++ run.hand }
  | .settle index response keep => run.settle index response keep
  | .takeRetained id => run.takeRetained id

/-- The run after several steps. -/
def after (steps : List (TrackerStep κ)) (run : TrackerRun κ) : TrackerRun κ :=
  steps.foldl step run

/-- The tracked requests are in the order in which they were submitted. -/
def InOrder (run : TrackerRun κ) : Prop :=
  (numbers run.tracked).Pairwise (· < ·)

/-- The numbers of all requests that are tracked, in hand or released. -/
def allNumbers (run : TrackerRun κ) : List Nat :=
  numbers run.tracked ++ numbers run.hand ++ run.released

/-- The tracked requests are in the order in which they took their places, those that wait in the
order of submission, and every request that was submitted is tracked, in hand or released. -/
structure Orderly (run : TrackerRun κ) : Prop where
  places : run.tracked.Pairwise fun first second ↦ first.callback.place < second.callback.place
  taken : ∀ request ∈ run.tracked, request.callback.place < run.places
  waiting : ∀ request ∈ run.tracked, request.isPending = true → ∀ other ∈ run.tracked,
    request.callback.number < other.callback.number → request.callback.place < other.callback.place
  accounted : run.allNumbers.Perm (List.range run.submitted)

/-- The number of the first request comes first. -/
@[simp] theorem numbers_cons (request : TrackedRequest (Ticket κ))
    (requests : List (TrackedRequest (Ticket κ))) :
    numbers (request :: requests) = request.callback.number :: numbers requests :=
  rfl

/-- Numbers are in the order of the requests. -/
@[simp] theorem numbers_append (front back : List (TrackedRequest (Ticket κ))) :
    numbers (front ++ back) = numbers front ++ numbers back :=
  List.map_append

/-- What is selected and what is not are all requests. -/
theorem numbers_filter_perm (select : TrackedRequest (Ticket κ) → Bool)
    (requests : List (TrackedRequest (Ticket κ))) :
    (numbers (requests.filter (!select ·)) ++ numbers (requests.filter select)).Perm
      (numbers requests) := by
  rw [← numbers_append]
  exact (List.perm_append_comm.trans (List.filter_append_perm select requests)).map _

/-- A request of a batch has the number and the place that its position calls for. -/
theorem mem_stamp {batch : Array (TrackedRequest κ)} {request : TrackedRequest (Ticket κ)}
    (h : request ∈ (run.stamp batch).toList) : ∃ index < batch.size,
      request.callback.number = run.submitted + index ∧
      request.callback.place = run.places + index := by
  obtain ⟨index, hindex, rfl⟩ := List.getElem_of_mem h
  rw [Array.length_toList, stamp, Array.size_mapIdx] at hindex
  exact ⟨index, hindex, by simp [stamp], by simp [stamp]⟩

/-- A batch gets the next numbers, in order. -/
theorem numbers_stamp (batch : Array (TrackedRequest κ)) (run : TrackerRun κ) :
    numbers (run.stamp batch).toList =
      (List.range batch.size).map (run.submitted + ·) := by
  refine List.ext_getElem (by simp [numbers, stamp]) fun index _ _ ↦ ?_
  simp [numbers, stamp]

/-- Requests that wait are stamped without any other change. -/
theorem map_stamp {batch : Array (TrackedRequest κ)}
    (h : ∀ request ∈ batch, request.response = none) (run : TrackerRun κ) :
    (run.stamp batch).map (·.map Ticket.callback) = batch := by
  refine Array.ext (by simp [stamp]) fun index hstamped hindex ↦ ?_
  have hunchanged : ((run.stamp batch).map (·.map Ticket.callback))[index] =
      { batch[index] with response := none } := by
    simp [stamp, TrackedRequest.map]
  have hwaits : { batch[index] with response := none } = batch[index] :=
    congrArg ({ batch[index] with response := · }) (h _ (Array.getElem_mem hindex)).symm
  exact hunchanged.trans hwaits

/-- A batch takes the next places, in order. -/
theorem places_stamp (batch : Array (TrackedRequest κ)) (run : TrackerRun κ) :
    (run.stamp batch).toList.Pairwise fun first second ↦
      first.callback.place < second.callback.place := by
  rw [List.pairwise_iff_getElem]
  intro first second hfirst hsecond hlt
  simpa [stamp] using hlt

/-- Before anything is submitted there is nothing to be out of order. -/
theorem orderly_start : ({} : TrackerRun κ).Orderly where
  places := .nil
  taken _ := nofun
  waiting _ := nofun
  accounted := .refl _

/-- A request leaves the hand. -/
theorem numbers_eraseIdx_perm {hand : List (TrackedRequest (Ticket κ))} {index : Nat}
    {request : TrackedRequest (Ticket κ)} (h : hand[index]? = some request) :
    (request.callback.number :: numbers (hand.eraseIdx index)).Perm (numbers hand) := by
  obtain ⟨hindex, rfl⟩ := List.getElem?_eq_some_iff.1 h
  show (numbers (hand[index] :: hand.eraseIdx index)).Perm _
  exact (List.getElem_cons_eraseIdx_perm hindex).map _

namespace Orderly

variable (h : run.Orderly)

include h

/-- Every tracked request has the number of one that was submitted. -/
theorem number_lt {request : TrackedRequest (Ticket κ)} (hrequest : request ∈ run.tracked) :
    request.callback.number < run.submitted := by
  have hnumber : request.callback.number ∈ run.allNumbers :=
    List.mem_append_left _ (List.mem_append_left _ (List.mem_map_of_mem hrequest))
  exact List.mem_range.1 (h.accounted.mem_iff.1 hnumber)

/-- Every request is tracked once at most. -/
theorem nodup : run.tracked.Pairwise fun first second ↦
    first.callback.number ≠ second.callback.number := by
  have hnodup : run.allNumbers.Nodup := h.accounted.nodup_iff.2 List.nodup_range
  exact List.pairwise_map.1 (List.nodup_append.1 (List.nodup_append.1 hnodup).1).1

/-- Requests leave their places, and are in hand or released then. -/
theorem leave (left : List Nat) (hrest : next.tracked.Sublist run.tracked)
    (htracked : (numbers next.tracked ++ left).Perm (numbers run.tracked))
    (hothers : (numbers next.hand ++ next.released).Perm
      (left ++ (numbers run.hand ++ run.released)))
    (hplaces : run.places ≤ next.places) (hsubmitted : next.submitted = run.submitted) :
    next.Orderly where
  places := h.places.sublist hrest
  taken request hrequest := Nat.lt_of_lt_of_le (h.taken request (hrest.mem hrequest)) hplaces
  waiting request hrequest hpending other hother :=
    h.waiting request (hrest.mem hrequest) hpending other (hrest.mem hother)
  accounted := by
    have hnumbers : next.allNumbers.Perm run.allNumbers := by
      rw [allNumbers, allNumbers, List.append_assoc, List.append_assoc]
      refine (hothers.append_left _).trans ?_
      rw [← List.append_assoc]
      exact htracked.append_right _
    exact hsubmitted ▸ hnumbers.trans h.accounted

/-- A request leaves its place between others. -/
theorem leave_between {front back : List (TrackedRequest (Ticket κ))}
    {request : TrackedRequest (Ticket κ)} (htracked : run.tracked = front ++ request :: back)
    (hrest : next.tracked = front ++ back)
    (hothers : (numbers next.hand ++ next.released).Perm
      (request.callback.number :: (numbers run.hand ++ run.released)))
    (hplaces : run.places ≤ next.places) (hsubmitted : next.submitted = run.submitted) :
    next.Orderly := by
  refine h.leave [request.callback.number] ?_ ?_ hothers hplaces hsubmitted
  · rw [htracked, hrest]
    exact (List.sublist_cons_self request back).append_left front
  · rw [htracked, hrest, numbers_append, numbers_append, numbers_cons]
    exact (List.perm_append_singleton _ _).trans List.perm_middle.symm

/-- Requests take the next places. Those that wait have the next numbers too. -/
theorem join {added : List (TrackedRequest (Ticket κ))}
    (htracked : next.tracked = run.tracked ++ added)
    (hplaces : added.Pairwise fun first second ↦ first.callback.place < second.callback.place)
    (hbetween : ∀ request ∈ added,
      run.places ≤ request.callback.place ∧ request.callback.place < next.places)
    (hlarger : run.places ≤ next.places)
    (hwaiting : ∀ request ∈ added, request.isPending = true →
      run.submitted ≤ request.callback.number ∧ ∀ other ∈ added,
        request.callback.number < other.callback.number →
          request.callback.place < other.callback.place)
    (haccounted : next.allNumbers.Perm (List.range next.submitted)) : next.Orderly where
  places := by
    rw [htracked, List.pairwise_append]
    refine ⟨h.places, hplaces, fun first hfirst second hsecond ↦ ?_⟩
    exact Nat.lt_of_lt_of_le (h.taken first hfirst) (hbetween second hsecond).1
  taken request hrequest := by
    rcases List.mem_append.1 (htracked ▸ hrequest) with hold | hnew
    · exact Nat.lt_of_lt_of_le (h.taken request hold) hlarger
    · exact (hbetween request hnew).2
  waiting request hrequest hpending other hother hlater := by
    rcases List.mem_append.1 (htracked ▸ hrequest) with hold | hnew
    · rcases List.mem_append.1 (htracked ▸ hother) with hotherOld | hotherNew
      · exact h.waiting request hold hpending other hotherOld hlater
      · exact Nat.lt_of_lt_of_le (h.taken request hold) (hbetween other hotherNew).1
    · obtain ⟨hnumber, hothers⟩ := hwaiting request hnew hpending
      rcases List.mem_append.1 (htracked ▸ hother) with hotherOld | hotherNew
      · have hearlier := h.number_lt hotherOld
        omega
      · exact hothers other hotherNew hlater
  accounted := haccounted

/-- A batch is tracked behind all others, with later numbers and places. -/
theorem submit (batch : Array (TrackedRequest κ)) : (run.step (.submit batch)).Orderly := by
  have htracked : (run.step (.submit batch)).tracked = run.tracked ++ (run.stamp batch).toList :=
    Array.toList_append
  refine h.join htracked (places_stamp batch run) (fun request hrequest ↦ ?_) (Nat.le_add_right _ _)
    (fun request hrequest _ ↦ ?_) ?_
  · obtain ⟨index, hindex, -, hplace⟩ := mem_stamp hrequest
    show _ ∧ _ < run.places + batch.size
    omega
  · obtain ⟨index, -, hnumber, hplace⟩ := mem_stamp hrequest
    refine ⟨by omega, fun other hother hlater ↦ ?_⟩
    obtain ⟨_, -, hotherNumber, hotherPlace⟩ := mem_stamp hother
    omega
  · show (numbers (run.step (.submit batch)).tracked ++ numbers run.hand ++ run.released).Perm
      (List.range (run.submitted + batch.size))
    rw [htracked, numbers_append, numbers_stamp, List.range_add, List.append_assoc,
      List.append_assoc]
    refine (List.perm_append_comm.append_left _).trans ?_
    rw [← List.append_assoc, ← List.append_assoc]
    exact h.accounted.append_right _

/-- Withdrawing requests leaves the others where they are. -/
theorem withdraw (first : UInt16) (count : Nat) : (run.step (.withdraw first count)).Orderly := by
  let belongs (request : TrackedRequest (Ticket κ)) : Bool :=
    request.isPending && Tracker.inBatch first count request.id
  have hrest : (run.step (.withdraw first count)).tracked =
      run.tracked.filter (!belongs ·) :=
    Array.toList_filter
  have hreleased : (run.step (.withdraw first count)).released =
      numbers (run.tracked.filter belongs) ++ run.released :=
    congrArg (numbers · ++ run.released) Array.toList_filter
  refine h.leave (numbers (run.tracked.filter belongs)) (hrest ▸ List.filter_sublist) ?_ ?_
    (Nat.le_refl _) rfl
  · rw [hrest]
    exact numbers_filter_perm belongs run.tracked
  · rw [hreleased]
    exact List.perm_append_comm_assoc _ _ _

/-- An answer takes one request in hand, and leaves the others where they are. -/
theorem arrive (id : UInt16) : (run.step (.arrive id)).Orderly := by
  show (run.arrive id).Orderly
  unfold TrackerRun.arrive
  cases htake : run.tracker.takePending id with
  | none => exact h
  | some taken =>
      obtain ⟨request, tracker⟩ := taken
      obtain ⟨front, back, hrequests, rfl, -⟩ := Tracker.takePending_eq_some htake
      have htracked : run.tracked = front ++ request :: back := hrequests
      exact h.leave_between htracked rfl (.refl _) (Nat.le_refl _) rfl

/-- The end of answers takes all that wait in hand, and leaves the others where they are. -/
theorem stop : (run.step .stop).Orderly := by
  have hrest : (run.step .stop).tracked = run.tracked.filter (!·.isPending) :=
    Array.toList_filter
  have hhand : (run.step .stop).hand = run.tracked.filter (·.isPending) ++ run.hand :=
    congrArg (· ++ run.hand) Array.toList_filter
  refine h.leave (numbers (run.tracked.filter (·.isPending))) (hrest ▸ List.filter_sublist) ?_ ?_
    (Nat.le_refl _) rfl
  · rw [hrest]
    exact numbers_filter_perm (·.isPending) run.tracked
  · rw [hhand, numbers_append, List.append_assoc]
    exact .refl _

/-- A request that is kept takes the last place, and no longer waits. -/
theorem settle (index : Nat) (response : CommandResponse) (keep : Bool) :
    (run.step (.settle index response keep)).Orderly := by
  show (run.settle index response keep).Orderly
  unfold TrackerRun.settle
  cases hrequest : run.hand[index]? with
  | none => exact h
  | some request =>
      have hhand := numbers_eraseIdx_perm hrequest
      cases keep with
      | false =>
          refine h.leave [] (.refl _) (List.append_nil _ ▸ .refl _) ?_ (Nat.le_succ _) rfl
          exact List.perm_middle.trans (hhand.append_right _)
      | true =>
          -- The request takes the next place, and no longer waits.
          let kept : TrackedRequest (Ticket κ) :=
            { request.moved run.places with response := some response }
          have hlast : (run.tracker.requests.push kept).toList = run.tracked ++ [kept] :=
            Array.toList_push
          refine h.join hlast (List.pairwise_singleton _ _) (fun other hother ↦ ?_) (Nat.le_succ _)
            (fun other hother hpending ↦ ?_) ?_
          · obtain rfl := List.mem_singleton.1 hother
            exact ⟨Nat.le_refl _, Nat.lt_succ_self _⟩
          · obtain rfl := List.mem_singleton.1 hother
            cases hpending
          · refine List.Perm.trans ?_ h.accounted
            show (numbers (run.tracker.requests.push kept).toList ++
              numbers (run.hand.eraseIdx index) ++ run.released).Perm run.allNumbers
            rw [hlast, numbers_append, List.append_assoc (numbers run.tracked)]
            exact (hhand.append_left _).append_right _

/-- Taking an answer releases its request, and leaves the others where they are. -/
theorem takeRetained (id : UInt16) : (run.step (.takeRetained id)).Orderly := by
  show (run.takeRetained id).Orderly
  unfold TrackerRun.takeRetained
  cases htake : run.tracker.takeRetained id with
  | none => exact h
  | some taken =>
      obtain ⟨response, tracker⟩ := taken
      obtain ⟨front, request, back, hkept, hrequests, hrest⟩ :=
        Tracker.keptUnder?_of_takeRetained htake
      have htracked : run.tracked = front ++ request :: back := hrequests
      refine h.leave_between htracked hrest ?_ (Nat.le_refl _) rfl
      show (numbers run.hand ++ (numbers (run.tracker.keptUnder? id).toList ++
        run.released)).Perm _
      rw [hkept]
      exact List.perm_append_comm_assoc _ _ _

/-- Whatever happens, the tracked requests stay in the order of their places. -/
theorem after (steps : List (TrackerStep κ)) : (run.after steps).Orderly := by
  induction steps generalizing run with
  | nil => exact h
  | cons step steps ih =>
      refine ih ?_
      cases step with
      | submit batch => exact h.submit batch
      | withdraw first count => exact h.withdraw first count
      | arrive id => exact h.arrive id
      | stop => exact h.stop
      | settle index response keep => exact h.settle index response keep
      | takeRetained id => exact h.takeRetained id

/-- Requests that wait are in the order in which they were submitted. -/
theorem waiting_inOrder :
    (numbers (run.tracked.filter (·.isPending))).Pairwise (· < ·) := by
  rw [numbers, List.pairwise_map]
  refine ((h.places.and h.nodup).filter _).imp_of_mem fun {first second} hfirst hsecond hpair ↦ ?_
  obtain ⟨hfirst, -⟩ := List.mem_filter.1 hfirst
  obtain ⟨hsecond, hpending⟩ := List.mem_filter.1 hsecond
  obtain ⟨hplace, hne⟩ := hpair
  have hback := h.waiting second hsecond hpending first hfirst
  omega

/-- The tracked requests are in the order in which they were submitted unless one that was kept took
its place after one that was submitted later. -/
theorem inOrder_iff : run.InOrder ↔ ∀ kept ∈ run.tracked, kept.isPending = false →
    ∀ other ∈ run.tracked, kept.callback.number < other.callback.number →
      kept.callback.place < other.callback.place := by
  rw [InOrder, numbers, List.pairwise_map]
  constructor
  · intro hsorted kept hkept _ other hother hlater
    obtain ⟨index, hindex, rfl⟩ := List.getElem_of_mem hkept
    obtain ⟨behind, hbehind, rfl⟩ := List.getElem_of_mem hother
    rcases Nat.lt_trichotomy index behind with hbefore | rfl | hafter
    · exact List.pairwise_iff_getElem.1 h.places index behind hindex hbehind hbefore
    · exact absurd hlater (Nat.lt_irrefl _)
    · have hearlier := List.pairwise_iff_getElem.1 hsorted behind index hbehind hindex hafter
      omega
  · intro hkept
    refine (h.places.and h.nodup).imp_of_mem fun {first second} hfirst hsecond hpair ↦ ?_
    obtain ⟨hplace, hne⟩ := hpair
    have hback : second.callback.number < first.callback.number →
        second.callback.place < first.callback.place := by
      cases hpending : second.isPending with
      | true => exact h.waiting second hsecond hpending first hfirst
      | false => exact hkept second hsecond hpending first hfirst
    omega

end Orderly

end TrackerRun

end I3cHost
