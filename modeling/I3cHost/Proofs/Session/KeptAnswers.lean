import I3cHost.Proofs.Session.TrackingOrder

/-!
# Looking at an answer before it is taken

An answer that was kept can be looked at and taken under the identifier of its request. Taking
passes over requests that still wait, and looking does not: it shows the answer of the first request
with the identifier, whether or not this one has an answer (`Tracker.retained_eq`). Once identifiers
come again a request can wait under the identifier of another one whose answer was kept, so what is
looked at is what would be taken exactly if the request whose answer would be taken has its place
before all that wait under its identifier (`retained_eq_takeRetained_iff`).
-/

namespace I3cHost

namespace Tracker

variable {κ : Type} {tracker : Tracker κ} {id : UInt16}

/-- The first request with an identifier. -/
def firstUnder? (id : UInt16) (tracker : Tracker κ) : Option (TrackedRequest κ) :=
  tracker.requests.toList.find? (·.id == id)

/-- The answer that is looked at is that of the first request with the identifier, if it has one. -/
theorem retained_eq (tracker : Tracker κ) (id : UInt16) :
    tracker.retained id = (tracker.firstUnder? id).bind (·.response) := by
  rw [firstUnder?, Array.find?_toList]
  rfl

/-- The answer that is taken is that of the first request whose answer was kept under the
identifier. -/
theorem takeRetained_eq (tracker : Tracker κ) (id : UInt16) :
    (tracker.takeRetained id).map Prod.fst = (tracker.keptUnder? id).bind (·.response) := by
  rw [keptUnder?, Array.find?_toList, Array.find?_eq_bind_findIdx?_getElem?]
  unfold takeRetained
  cases tracker.requests.findIdx? fun request ↦ request.id == id && !request.isPending with
  | none => rfl
  | some index =>
      simp only [bind, Option.bind_some]
      rcases tracker.requests[index]? with _ | ⟨_, _, _, _ | response⟩ <;> rfl

/-- The request whose answer was kept is tracked, has the identifier, and does not wait. -/
theorem keptUnder?_eq_some {kept : TrackedRequest κ} (h : tracker.keptUnder? id = some kept) :
    kept ∈ tracker.requests.toList ∧ kept.id = id ∧ kept.isPending = false := by
  have hselected := List.find?_some h
  simp only [Bool.and_eq_true, beq_iff_eq, Bool.not_eq_true'] at hselected
  exact ⟨List.mem_of_find?_eq_some h, hselected⟩

/-- What stands before the first request with an identifier has other identifiers. -/
theorem firstUnder?_eq_some {first : TrackedRequest κ} (h : tracker.firstUnder? id = some first) :
    first.id = id ∧ ∃ front back, tracker.requests.toList = front ++ first :: back ∧
      ∀ other ∈ front, other.id ≠ id := by
  obtain ⟨hid, front, back, hrequests, hfront⟩ := List.find?_eq_some_iff_append.1 h
  exact ⟨by simpa using hid, front, back, hrequests,
    fun other hother ↦ by simpa using hfront other hother⟩

/-- If the first request with an identifier has an answer, this answer would be taken. -/
theorem keptUnder?_of_firstUnder? {first : TrackedRequest κ}
    (h : tracker.firstUnder? id = some first) (hkept : first.isPending = false) :
    tracker.keptUnder? id = some first := by
  obtain ⟨hid, front, back, hrequests, hfront⟩ := firstUnder?_eq_some h
  rw [keptUnder?, hrequests, List.find?_eq_some_iff_append]
  refine ⟨by simp [hid, hkept], front, back, rfl, fun other hother ↦ ?_⟩
  simp [hfront other hother]

/-- Without a request with the identifier no answer would be taken. -/
theorem keptUnder?_of_firstUnder?_eq_none (h : tracker.firstUnder? id = none) :
    tracker.keptUnder? id = none := by
  refine List.find?_eq_none.2 fun other hother ↦ ?_
  have hid : other.id ≠ id := by simpa using List.find?_eq_none.1 h other hother
  simp [hid]

/-- An answer that is looked at would also be taken. -/
theorem takeRetained_of_retained {response : CommandResponse}
    (h : tracker.retained id = some response) :
    (tracker.takeRetained id).map Prod.fst = some response := by
  rw [retained_eq, Option.bind_eq_some_iff] at h
  obtain ⟨first, hfirst, hresponse⟩ := h
  have hkept : first.isPending = false := by simp [TrackedRequest.isPending, hresponse]
  rw [takeRetained_eq, keptUnder?_of_firstUnder? hfirst hkept]
  exact hresponse

/-- If what is looked at is what would be taken, the request whose answer would be taken is the
first one with the identifier. -/
theorem firstUnder?_of_retained_eq {kept : TrackedRequest κ}
    (h : tracker.retained id = (tracker.takeRetained id).map Prod.fst)
    (hkept : tracker.keptUnder? id = some kept) : tracker.firstUnder? id = some kept := by
  obtain ⟨-, -, hanswered⟩ := keptUnder?_eq_some hkept
  obtain ⟨response, hresponse⟩ : ∃ response, kept.response = some response :=
    Option.isSome_iff_exists.1 (Option.isNone_eq_false_iff.1 hanswered)
  rw [takeRetained_eq, hkept, Option.bind_some, hresponse, retained_eq,
    Option.bind_eq_some_iff] at h
  obtain ⟨first, hfirst, hshown⟩ := h
  have hnot : first.isPending = false := by simp [TrackedRequest.isPending, hshown]
  rw [hfirst, ← keptUnder?_of_firstUnder? hfirst hnot, hkept]

/-- Which answer is looked at does not depend on callbacks. -/
theorem Mirrors.retained {ν : Type} {change : κ → ν} {image : Tracker ν}
    (h : Mirrors change tracker image) (id : UInt16) :
    image.retained id = tracker.retained id := by
  unfold Tracker.retained
  rw [h, Array.find?_map]
  show (tracker.requests.find? (·.id == id)).map _ >>= _ = _
  cases tracker.requests.find? (·.id == id) <;> rfl

end Tracker

namespace TrackerRun

variable {κ : Type} {run : TrackerRun κ} {id : UInt16}

/-- Of two requests with an identifier the first one has its place before the other. -/
theorem Orderly.place_lt_of_firstUnder? (h : run.Orderly) {first other : TrackedRequest (Ticket κ)}
    (hfirst : run.tracker.firstUnder? id = some first) (hother : other ∈ run.tracked)
    (hid : other.id = id) (hne : other.isPending ≠ first.isPending) :
    first.callback.place < other.callback.place := by
  obtain ⟨-, front, back, hrequests, hfront⟩ := Tracker.firstUnder?_eq_some hfirst
  have htracked : run.tracked = front ++ first :: back := hrequests
  have hbehind : other ∈ back := by
    rcases List.mem_append.1 (htracked ▸ hother) with hbefore | hrest
    · exact absurd hid (hfront other hbefore)
    · rcases List.mem_cons.1 hrest with rfl | hbehind
      · exact absurd rfl hne
      · exact hbehind
  have hplaces := (List.pairwise_append.1 (htracked ▸ h.places)).2.1
  exact (List.pairwise_cons.1 hplaces).1 other hbehind

/-- What is looked at is what would be taken exactly if the request whose answer would be taken has
its place before all that wait under its identifier. -/
theorem Orderly.retained_eq_iff (h : run.Orderly) (id : UInt16) :
    run.tracker.retained id = (run.tracker.takeRetained id).map Prod.fst ↔
      ∀ kept, run.tracker.keptUnder? id = some kept → ∀ waiting ∈ run.tracker.waitingUnder id,
        kept.callback.place < waiting.callback.place := by
  constructor
  · intro hsame kept hkept waiting hwaiting
    obtain ⟨-, -, hanswered⟩ := Tracker.keptUnder?_eq_some hkept
    obtain ⟨htracked, hid, hpending⟩ := Tracker.mem_waitingUnder.1 hwaiting
    exact h.place_lt_of_firstUnder? (Tracker.firstUnder?_of_retained_eq hsame hkept)
      (Array.mem_toList_iff.2 htracked) hid (by simp [hpending, hanswered])
  · intro hbefore
    rw [Tracker.takeRetained_eq, Tracker.retained_eq]
    cases hfirst : run.tracker.firstUnder? id with
    | none => rw [Tracker.keptUnder?_of_firstUnder?_eq_none hfirst]
    | some first =>
        cases hpending : first.isPending with
        | false => rw [Tracker.keptUnder?_of_firstUnder? hfirst hpending]
        | true =>
            -- A kept answer would have its place behind the request that waits, and before it.
            have hnone : run.tracker.keptUnder? id = none := by
              rw [Option.eq_none_iff_forall_ne_some]
              intro kept hkept
              obtain ⟨hmem, hid, hanswered⟩ := Tracker.keptUnder?_eq_some hkept
              have hbehind := h.place_lt_of_firstUnder? hfirst hmem hid
                (by simp [hpending, hanswered])
              have hahead := hbefore kept hkept first (Tracker.mem_waitingUnder.2
                ⟨Array.mem_toList_iff.1 (List.mem_of_find?_eq_some hfirst),
                  (Tracker.firstUnder?_eq_some hfirst).1, hpending⟩)
              omega
            rw [hnone, Option.bind_some]
            exact Option.isNone_iff_eq_none.1 hpending

variable {τ : Type} [Transport τ]

/-- A session answers for the requests of a run that it shows, and looking leaves it unchanged. -/
theorem Shows.outcomes {run : TrackerRun (Hook τ)} {engine : Engine τ} (h : run.Shows engine)
    (turn : Turn τ) (id : UInt16) :
    (Engine.perform turn (.retained id)).exec engine =
        (.response (run.tracker.retained id), engine) ∧
      ((Engine.perform turn (.takeRetained id)).exec engine).1 =
        .response ((run.tracker.takeRetained id).map Prod.fst) := by
  constructor
  · rw [← Tracker.Mirrors.retained h id]
    rfl
  · show (Engine.takeRetained id engine).1 = _
    rw [Engine.takeRetained, Tracker.Mirrors.takeRetained h]
    cases run.tracker.takeRetained id <;> rfl

/-- Whatever is submitted, answered, kept, withdrawn and taken, in any order: an answer that is
looked at is the one that would be taken. One that would be taken is also looked at exactly if its
request has its place before all that wait under its identifier; otherwise none is looked at. A
session that shows the requests of a run looks at and takes the answers of this run. -/
theorem retained_eq_takeRetained_iff (steps : List (TrackerStep (Hook τ))) (id : UInt16) :
    let run := ({} : TrackerRun (Hook τ)).after steps
    (∀ response, run.tracker.retained id = some response →
      (run.tracker.takeRetained id).map Prod.fst = some response) ∧
    (run.tracker.retained id = (run.tracker.takeRetained id).map Prod.fst ↔
      ∀ kept, run.tracker.keptUnder? id = some kept → ∀ waiting ∈ run.tracker.waitingUnder id,
        kept.callback.place < waiting.callback.place) ∧
    ∀ engine : Engine τ, run.Shows engine → ∀ turn : Turn τ,
      (Engine.perform turn (.retained id)).exec engine =
          (.response (run.tracker.retained id), engine) ∧
        ((Engine.perform turn (.takeRetained id)).exec engine).1 =
          .response ((run.tracker.takeRetained id).map Prod.fst) := by
  intro run
  have horderly : run.Orderly := orderly_start.after steps
  exact ⟨fun _ hshown ↦ Tracker.takeRetained_of_retained hshown, horderly.retained_eq_iff id,
    fun _ hshows turn ↦ hshows.outcomes turn id⟩

/-- A request and another one under the same identifier, sent when all identifiers had been used.
The first is answered and kept. -/
def comingAgain : List (TrackerStep (Hook RoomyTransport)) :=
  [.submit #[{ id := 0, dependent := false, callback := { label := "keeper" } }],
    .submit #[{ id := 0, dependent := false, callback := { label := "waiter" } }],
    .arrive 0, .settle 0 (Engine.bareAnswer 0) true]

/-- The answer can be taken, and is not seen behind the request that waits. -/
theorem not_retained_comingAgain :
    let run := ({} : TrackerRun (Hook RoomyTransport)).after comingAgain
    run.tracker.retained 0 = none ∧
      (run.tracker.takeRetained 0).map Prod.fst = some (Engine.bareAnswer 0) := by
  decide +kernel

end TrackerRun

end I3cHost
