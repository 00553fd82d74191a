import I3cHost.Request

/-!
# What answers can do to tracked requests

While nothing is submitted, requests are taken out to be answered and may come back together with
their answer. So of the requests under one identifier the oldest are answered first, and no request
is ever invented. `Progress` says this also of the time between taking requests out and settling
them, when they are in hand.
-/

namespace I3cHost

namespace TrackedRequest

variable {κ : Type}

/-- A request with an answer does not wait. -/
@[simp] theorem isPending_answered (request : TrackedRequest κ) (response : CommandResponse) :
    isPending { request with response := some response } = false :=
  rfl

end TrackedRequest

namespace Tracker

variable {κ : Type} {tracker rest before after later : Tracker κ} {request : TrackedRequest κ}
  {hand : List (TrackedRequest κ)}

/-- The requests that wait for an answer under an identifier, in tracking order. -/
def waitingUnder (id : UInt16) (tracker : Tracker κ) : List (TrackedRequest κ) :=
  tracker.requests.toList.filter fun request ↦ request.id == id && request.isPending

/-- The requests that wait under an identifier are tracked, and have it. -/
theorem mem_waitingUnder {id : UInt16} : request ∈ tracker.waitingUnder id ↔
    request ∈ tracker.requests ∧ request.id = id ∧ request.isPending = true := by
  simp [waitingUnder]

/-- The number of tracked requests of a kind, whether they wait or are kept. -/
def countOf (kind : UInt16 → Bool → κ → Bool) (requests : List (TrackedRequest κ)) : Nat :=
  requests.countP fun request ↦ kind request.id request.dependent request.callback

/-- Requests are counted one list after the other. -/
theorem countOf_append (kind : UInt16 → Bool → κ → Bool) (front back : List (TrackedRequest κ)) :
    countOf kind (front ++ back) = countOf kind front + countOf kind back :=
  List.countP_append

/-- Every request is selected or not. -/
theorem countOf_filter (kind : UInt16 → Bool → κ → Bool) (select : TrackedRequest κ → Bool)
    (requests : List (TrackedRequest κ)) : countOf kind requests =
      countOf kind (requests.filter select) + countOf kind (requests.filter (!select ·)) :=
  List.countP_eq_countP_filter_add _ _ _

/-- Without the first request that has a property, the others are left in their order. -/
theorem erase_found {requests : Array (TrackedRequest κ)} {select : TrackedRequest κ → Bool}
    {index : Nat} (hindex : requests.findIdx? select = some index)
    (hrequest : requests[index]? = some request) :
    ∃ front back, requests.toList = front ++ request :: back ∧
      requests.eraseIdxIfInBounds index = (front ++ back).toArray ∧ select request = true ∧
      ∀ other ∈ front, select other = false := by
  obtain ⟨hlt, hselect, hbefore⟩ := Array.findIdx?_eq_some_iff_getElem.1 hindex
  obtain rfl : requests[index] = request := by
    simpa [Array.getElem?_eq_getElem hlt] using hrequest
  refine ⟨requests.toList.take index, requests.toList.drop (index + 1), ?_, ?_, hselect, ?_⟩
  · rw [← Array.getElem_toList, List.getElem_cons_drop, List.take_append_drop]
  · rw [← List.eraseIdx_eq_take_drop_succ, ← Array.toList_eraseIdxIfInBounds,
      Array.toArray_toList]
  · intro other hother
    obtain ⟨place, hplace, rfl⟩ := List.getElem_of_mem hother
    rw [List.length_take] at hplace
    simpa [List.getElem_take] using hbefore place (by omega)

/-- Taking a request that waits under an identifier takes the first such one, and leaves the
others in their order. -/
theorem takePending_eq_some {id : UInt16} (h : tracker.takePending id = some (request, rest)) :
    ∃ front back, tracker.requests.toList = front ++ request :: back ∧
      rest = { tracker with requests := (front ++ back).toArray } ∧
      (request.id == id && request.isPending) = true ∧
      ∀ other ∈ front, (other.id == id && other.isPending) = false := by
  simp only [takePending, bind, Option.bind_eq_some_iff, pure, Option.some.injEq,
    Prod.mk.injEq] at h
  obtain ⟨index, hindex, found, hfound, rfl, rfl⟩ := h
  obtain ⟨front, back, hrequests, herase, hselect, hfront⟩ := erase_found hindex hfound
  exact ⟨front, back, hrequests, by rw [herase], hselect, hfront⟩

/-- A request is taken if any waits under the identifier. -/
theorem exists_takePending (h : request ∈ tracker.requests) (hpending : request.isPending = true) :
    ∃ found rest, tracker.takePending request.id = some (found, rest) := by
  cases hfind : tracker.requests.findIdx? fun other ↦
      other.id == request.id && other.isPending with
  | none =>
      have hunselected := Array.findIdx?_eq_none_iff.1 hfind request h
      simp [hpending] at hunselected
  | some index =>
      obtain ⟨hlt, -, -⟩ := Array.findIdx?_eq_some_iff_getElem.1 hfind
      simp [takePending, hfind, hlt]

/-- Taking the answer kept under an identifier forgets one request that does not wait. -/
theorem takeRetained_eq_some {id : UInt16} {response : CommandResponse}
    (h : tracker.takeRetained id = some (response, rest)) :
    ∃ front request back, tracker.requests.toList = front ++ request :: back ∧
      rest = { tracker with requests := (front ++ back).toArray } ∧
      request.isPending = false := by
  simp only [takeRetained, bind, Option.bind_eq_some_iff, pure, Option.some.injEq,
    Prod.mk.injEq] at h
  obtain ⟨index, hindex, request, hrequest, kept, hkept, rfl, rfl⟩ := h
  obtain ⟨front, back, hrequests, herase, -, -⟩ := erase_found hindex hrequest
  exact ⟨front, request, back, hrequests, by rw [herase], by simp [TrackedRequest.isPending, hkept]⟩

/-- A request that is taken was tracked, and so were those that are left. -/
theorem mem_of_takePending {id : UInt16} (h : tracker.takePending id = some (request, rest)) :
    request ∈ tracker.requests ∧ ∀ other ∈ rest.requests, other ∈ tracker.requests := by
  obtain ⟨front, back, hrequests, rfl, -⟩ := takePending_eq_some h
  simp only [← Array.mem_toList_iff, hrequests, List.mem_append, List.mem_cons]
  exact ⟨.inr (.inl trivial), fun other hother ↦ hother.imp_right .inr⟩

/-- What is left after an answer has been forgotten was tracked. -/
theorem mem_of_takeRetained {id : UInt16} {response : CommandResponse}
    (h : tracker.takeRetained id = some (response, rest)) {other : TrackedRequest κ}
    (hother : other ∈ rest.requests) : other ∈ tracker.requests := by
  obtain ⟨front, kept, back, hrequests, rfl, -⟩ := takeRetained_eq_some h
  simp only [← Array.mem_toList_iff, hrequests, List.mem_append, List.mem_cons] at hother ⊢
  exact hother.imp_right .inr

/-- Settling a request does not change whether answers can arrive. -/
theorem receiving_settle (tracker : Tracker κ) (request : TrackedRequest κ)
    (response : CommandResponse) (keep : Bool) :
    (tracker.settle request response keep).receiving = tracker.receiving := by
  cases keep <;> rfl

/-- Settling a request uses up no identifier. -/
theorem nextId_settle (tracker : Tracker κ) (request : TrackedRequest κ)
    (response : CommandResponse) (keep : Bool) :
    (tracker.settle request response keep).nextId = tracker.nextId := by
  cases keep <;> rfl

/-- Besides what was tracked, only the answered request is tracked after it was settled. -/
theorem mem_of_mem_settle {response : CommandResponse} {keep : Bool} {other : TrackedRequest κ}
    (hother : other ∈ (tracker.settle request response keep).requests) :
    other ∈ tracker.requests ∨ other = { request with response } := by
  cases keep with
  | false => exact .inl hother
  | true => exact Array.mem_push.1 hother

/-- No request begins to wait: of those that waited under an identifier the latest still do. -/
structure Subsides (before after : Tracker κ) : Prop where
  nextId : after.nextId = before.nextId
  latest : ∀ id, after.waitingUnder id <:+ before.waitingUnder id

/-- How a tracker can look after some time in which requests were answered, while those in hand
are being answered. -/
structure Progress (before : Tracker κ) (hand : List (TrackedRequest κ)) (after : Tracker κ) :
    Prop where
  nextId : after.nextId = before.nextId
  /-- Of the requests that waited under an identifier the latest still wait. -/
  latest : ∀ id, after.waitingUnder id <:+ before.waitingUnder id
  /-- Every request was there before. -/
  origin : ∀ kind, countOf kind after.requests.toList + countOf kind hand ≤
    countOf kind before.requests.toList

namespace Progress

/-- At first nothing has happened. -/
theorem refl (tracker : Tracker κ) : Progress tracker [] tracker where
  nextId := rfl
  latest _ := List.suffix_rfl
  origin _ := Nat.le_refl _

/-- A request that is taken to be answered is in hand. -/
theorem takePending (h : Progress before hand after) {id : UInt16}
    (htake : after.takePending id = some (request, rest)) :
    Progress before (request :: hand) rest := by
  obtain ⟨front, back, hrequests, rfl, hselect, hfront⟩ := takePending_eq_some htake
  constructor
  case nextId => exact h.nextId
  case latest =>
    intro other
    refine List.IsSuffix.trans ?_ (h.latest other)
    simp only [waitingUnder, hrequests, List.filter_append, List.filter_cons]
    -- Nothing before the request waits under its identifier, so the first such one is taken.
    by_cases hother : other = id
    · subst hother
      rw [List.filter_eq_nil_iff.2 (by simpa using hfront), if_pos hselect]
      exact List.suffix_cons _ _
    · have hid : request.id = id := by simpa using (Bool.and_eq_true_iff.1 hselect).1
      have hunselected : (request.id == other && request.isPending) = false := by
        simp [hid, Ne.symm hother]
      simp only [hunselected, Bool.false_eq_true, if_false]
      exact List.suffix_rfl
  case origin =>
    intro kind
    have horigin := h.origin kind
    simp only [hrequests, countOf, List.countP_append, List.countP_cons] at horigin ⊢
    omega

/-- All requests that are taken to be answered are in hand. -/
theorem takeAllPending (h : Progress before hand after) :
    Progress before (after.takeAllPending.1.toList ++ hand) after.takeAllPending.2 := by
  constructor
  case nextId => exact h.nextId
  case latest =>
    intro id
    -- Only answers that are kept stay tracked.
    have hnone : after.takeAllPending.2.waitingUnder id = [] := by
      simp only [waitingUnder, Tracker.takeAllPending, Array.toList_filter, List.filter_filter]
      refine List.filter_eq_nil_iff.2 fun request _ ↦ ?_
      cases request.isPending <;> simp
    exact hnone ▸ List.nil_suffix
  case origin =>
    intro kind
    have horigin := h.origin kind
    rw [countOf_filter kind (·.isPending)] at horigin
    simp only [Tracker.takeAllPending, countOf_append, Array.toList_filter]
    omega

/-- A request that has been answered is no longer in hand, and is tracked again at most. -/
theorem settle (h : Progress before (request :: hand) after) (response : CommandResponse)
    (keep : Bool) : Progress before hand (after.settle request response keep) := by
  have horigin (kind) := h.origin kind
  simp only [countOf, List.countP_cons] at horigin
  cases keep with
  | false =>
      refine ⟨h.nextId, h.latest, fun kind ↦ Nat.le_trans ?_ (horigin kind)⟩
      simp only [countOf, Tracker.settle, Bool.false_eq_true, if_false]
      omega
  | true =>
      refine ⟨h.nextId, ?_, fun kind ↦ Nat.le_trans ?_ (horigin kind)⟩
      · simpa [waitingUnder, Tracker.settle] using h.latest
      · simp only [countOf, Tracker.settle, if_true, Array.toList_push, List.countP_append,
          List.countP_cons, List.countP_nil]
        omega

/-- An answer that was kept can be forgotten. -/
theorem takeRetained (h : Progress before hand after) {id : UInt16} {response : CommandResponse}
    (htake : after.takeRetained id = some (response, rest)) : Progress before hand rest := by
  obtain ⟨front, request, back, hrequests, rfl, hkept⟩ := takeRetained_eq_some htake
  constructor
  case nextId => exact h.nextId
  case latest =>
    simpa [waitingUnder, hrequests, List.filter_cons, hkept] using h.latest
  case origin =>
    intro kind
    have horigin := h.origin kind
    simp only [hrequests, countOf, List.countP_append, List.countP_cons] at horigin ⊢
    omega

open Classical in
/-- Every request comes from one with the same identifier, dependence and callback. -/
theorem mem_origin (h : Progress before hand after)
    (hmem : request ∈ after.requests.toList ∨ request ∈ hand) :
    ∃ original ∈ before.requests.toList, original.id = request.id ∧
      original.dependent = request.dependent ∧ original.callback = request.callback := by
  -- Counting the requests that look like this one shows that there was one before.
  have horigin := h.origin fun id dependent callback ↦
    decide (id = request.id ∧ dependent = request.dependent ∧ callback = request.callback)
  have hpositive : 0 < countOf (fun id dependent callback ↦ decide (id = request.id ∧
      dependent = request.dependent ∧ callback = request.callback)) before.requests.toList := by
    refine Nat.lt_of_lt_of_le ?_ horigin
    rcases hmem with hmem | hmem
    · exact Nat.add_pos_left (List.countP_pos_iff.2 ⟨request, hmem, by simp⟩) _
    · exact Nat.add_pos_right _ (List.countP_pos_iff.2 ⟨request, hmem, by simp⟩)
  obtain ⟨original, horiginal, hsame⟩ := List.countP_pos_iff.1 hpositive
  exact ⟨original, horiginal, of_decide_eq_true hsame⟩

/-- While requests are being answered none begins to wait. -/
theorem subsides (h : Progress before hand after) : before.Subsides after :=
  ⟨h.nextId, h.latest⟩

end Progress

namespace Subsides

/-- Nobody begins to wait if the tracked requests stay the same. -/
theorem of_requests (hnextId : after.nextId = before.nextId)
    (hrequests : after.requests = before.requests) : before.Subsides after :=
  ⟨hnextId, fun id ↦ by rw [waitingUnder, hrequests]; exact List.suffix_rfl⟩

/-- If nothing happens no request begins to wait. -/
theorem refl (tracker : Tracker κ) : tracker.Subsides tracker :=
  .of_requests rfl rfl

/-- If no request begins to wait, and then none does, none does. -/
theorem trans (h : before.Subsides after) (hlater : after.Subsides later) : before.Subsides later :=
  ⟨hlater.nextId.trans h.nextId, fun id ↦ (hlater.latest id).trans (h.latest id)⟩

end Subsides

/-- A request that is taken no longer waits, and it was the first under its identifier. -/
theorem subsides_takePending {id : UInt16} (h : tracker.takePending id = some (request, rest)) :
    tracker.Subsides rest :=
  ((Progress.refl tracker).takePending h).subsides

/-- Answers may no longer be received once all requests have been taken. -/
theorem subsides_takeAllPending (tracker : Tracker κ) (receiving : Bool) :
    tracker.Subsides { tracker.takeAllPending.2 with receiving } :=
  (Progress.refl tracker).takeAllPending.subsides.trans (.of_requests rfl rfl)

/-- A request that comes back with its answer does not wait. -/
theorem subsides_settle (tracker : Tracker κ) (request : TrackedRequest κ)
    (response : CommandResponse) (keep : Bool) :
    tracker.Subsides (tracker.settle request response keep) := by
  refine ⟨nextId_settle tracker request response keep, fun id ↦ ?_⟩
  cases keep with
  | false => exact List.suffix_rfl
  | true => simp [waitingUnder, settle]

/-- An answer that is taken belongs to a request that does not wait. -/
theorem subsides_takeRetained {id : UInt16} {response : CommandResponse}
    (h : tracker.takeRetained id = some (response, rest)) : tracker.Subsides rest :=
  ((Progress.refl tracker).takeRetained h).subsides

end Tracker

end I3cHost
