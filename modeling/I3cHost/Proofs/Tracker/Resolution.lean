import Mathlib.Data.List.Nodup
import I3cHost.Proofs.Tracker.Progress

/-!
# What becomes of requests that are answered

If no two requests wait under one identifier, every request has at most one answer among several of
different identifiers, and what becomes of it depends on this answer alone. Dealing with the
answers one by one comes to the same (`ResolvesAll.perm`), so it does not matter in which order they
come, apart from the order in which requests are tracked afterwards (`ResolvesAll.perm_of_perm`).
-/

namespace I3cHost

namespace TrackedRequest

variable {κ : Type} {keep : κ → CommandResponse → Bool} {request : TrackedRequest κ}
  {response : CommandResponse} {responses others : List CommandResponse}

/-- Whether the request waits for an answer under an identifier. -/
def waitsUnder (id : UInt16) (request : TrackedRequest κ) : Bool :=
  request.id == id && request.isPending

/-- The answer that the request waits for. -/
def reply (responses : List CommandResponse) (request : TrackedRequest κ) :
    Option CommandResponse :=
  responses.find? fun response ↦ request.waitsUnder response.id

/-- What is tracked of the request after the answers. -/
def left (keep : κ → CommandResponse → Bool) (responses : List CommandResponse)
    (request : TrackedRequest κ) : List (TrackedRequest κ) :=
  match request.reply responses with
  | none => [request]
  | some response => if keep request.callback response then [{ request with response }] else []

/-- The callback of the request, with the answer that it is called with. -/
def called (responses : List CommandResponse) (request : TrackedRequest κ) :
    List (κ × CommandResponse) :=
  ((request.reply responses).map (request.callback, ·)).toList

/-- Without answers a request gets none. -/
@[simp] theorem reply_nil (request : TrackedRequest κ) : request.reply [] = none :=
  rfl

/-- A request gets the first answer that it waits for. -/
theorem reply_cons_self (h : request.waitsUnder response.id = true) :
    request.reply (response :: responses) = some response :=
  List.find?_cons_of_pos h

/-- An answer that a request does not wait for is none of its concern. -/
theorem reply_cons_of_not (h : request.waitsUnder response.id = false) :
    request.reply (response :: responses) = request.reply responses :=
  List.find?_cons_of_neg (Bool.not_eq_true _ ▸ h)

/-- A request that has its answer waits for no other. -/
theorem reply_answered (request : TrackedRequest κ) (response : CommandResponse)
    (responses : List CommandResponse) :
    reply responses { request with response := some response } = none := by
  refine List.find?_eq_none.2 fun other _ ↦ ?_
  simp [waitsUnder]

/-- The answer that a request gets is one that arrived, and one it waits for. -/
theorem of_reply_eq_some (h : request.reply responses = some response) :
    response ∈ responses ∧ request.waitsUnder response.id = true := by
  unfold reply at h
  exact ⟨List.mem_of_find?_eq_some h, by simpa using List.find?_some h⟩

/-- Of answers with different identifiers a request waits for at most one. -/
theorem reply_eq_some_iff (hids : (responses.map (·.id)).Nodup) :
    request.reply responses = some response ↔
      response ∈ responses ∧ request.waitsUnder response.id = true := by
  refine ⟨of_reply_eq_some, fun ⟨hmem, hwaits⟩ ↦ ?_⟩
  cases hfound : request.reply responses with
  | none => exact absurd hwaits (List.find?_eq_none.1 hfound response hmem)
  | some found =>
      obtain ⟨hfoundMem, hfoundWaits⟩ := of_reply_eq_some hfound
      simp only [waitsUnder, Bool.and_eq_true, beq_iff_eq] at hfoundWaits hwaits
      rw [List.inj_on_of_nodup_map hids hfoundMem hmem (hfoundWaits.1.symm.trans hwaits.1)]

/-- If no two answers have one identifier, a request gets the same answer in any order. -/
theorem reply_of_perm (hids : (responses.map (·.id)).Nodup) (h : responses.Perm others) :
    request.reply responses = request.reply others := by
  refine Option.ext fun response ↦ ?_
  rw [reply_eq_some_iff hids, reply_eq_some_iff ((h.map _).nodup_iff.1 hids), h.mem_iff]

/-- What becomes of a request does not depend on the order of the answers. -/
theorem left_of_perm (hids : (responses.map (·.id)).Nodup) (h : responses.Perm others) :
    request.left keep responses = request.left keep others := by
  rw [left, left, reply_of_perm hids h]

/-- If no two answers have one identifier, a callback hears the same answer in any order. -/
theorem called_of_perm (hids : (responses.map (·.id)).Nodup) (h : responses.Perm others) :
    request.called responses = request.called others := by
  rw [called, called, reply_of_perm hids h]

end TrackedRequest

section Resolution

variable {κ : Type} {keep : κ → CommandResponse → Bool} {response : CommandResponse}
  {responses others : List CommandResponse} {requests rest : List (TrackedRequest κ)}
  {called : List (κ × CommandResponse)}

/-- No two requests wait under one identifier. -/
def WaitApart (requests : List (TrackedRequest κ)) : Prop :=
  ∀ id, (requests.filter (TrackedRequest.waitsUnder id)).length ≤ 1

/-- The identifiers of the requests that wait are different. -/
theorem waitApart_iff :
    WaitApart requests ↔ ((requests.filter (·.isPending)).map (·.id)).Nodup := by
  rw [List.nodup_iff_count_le_one]
  refine forall_congr' fun id ↦ ?_
  rw [List.count, List.countP_map, List.countP_filter, ← List.countP_eq_length_filter]
  rfl

/-- Dealing with an answer: if no request waits for it nothing happens, and otherwise the callback
of the first one that does is called and decides whether the request is kept behind all others. -/
inductive Resolves (keep : κ → CommandResponse → Bool) (response : CommandResponse) :
    List (TrackedRequest κ) → List (κ × CommandResponse) → List (TrackedRequest κ) → Prop
  | dropped {requests : List (TrackedRequest κ)}
      (hnone : ∀ request ∈ requests, request.waitsUnder response.id = false) :
      Resolves keep response requests [] requests
  | handed {front back : List (TrackedRequest κ)} {request : TrackedRequest κ}
      (hfront : ∀ other ∈ front, other.waitsUnder response.id = false)
      (hwaits : request.waitsUnder response.id = true) :
      Resolves keep response (front ++ request :: back) (request.called [response])
        (front ++ back ++ request.left keep [response])

/-- Dealing with answers one by one. -/
inductive ResolvesAll (keep : κ → CommandResponse → Bool) : List CommandResponse →
    List (TrackedRequest κ) → List (κ × CommandResponse) → List (TrackedRequest κ) → Prop
  | nil {requests : List (TrackedRequest κ)} : ResolvesAll keep [] requests [] requests
  | cons {response : CommandResponse} {responses : List CommandResponse}
      {requests between last : List (TrackedRequest κ)} {first later : List (κ × CommandResponse)}
      (hfirst : Resolves keep response requests first between)
      (hlater : ResolvesAll keep responses between later last) :
      ResolvesAll keep (response :: responses) requests (first ++ later) last

/-- A request that is kept keeps its callback. -/
theorem Resolves.exists_callback (h : Resolves keep response requests called rest)
    {request : TrackedRequest κ} (hrequest : request ∈ rest) :
    ∃ original ∈ requests, original.callback = request.callback := by
  cases h with
  | dropped => exact ⟨request, hrequest, rfl⟩
  | @handed front back answered _ hwaits =>
      rw [TrackedRequest.left, TrackedRequest.reply_cons_self hwaits] at hrequest
      simp only [List.mem_append] at hrequest
      rcases hrequest with (hfront | hback) | hkept
      · exact ⟨request, List.mem_append_left _ hfront, rfl⟩
      · exact ⟨request, List.mem_append_right _ (List.mem_cons_of_mem _ hback), rfl⟩
      · refine ⟨answered, List.mem_append_right _ List.mem_cons_self, ?_⟩
        split at hkept
        · rw [List.mem_singleton.1 hkept]
        · cases hkept

/-- A request that was answered no longer waits. -/
theorem Resolves.waitApart (h : Resolves keep response requests called rest)
    (happart : WaitApart requests) : WaitApart rest := by
  cases h with
  | dropped => exact happart
  | @handed front back request _ hwaits =>
      intro id
      have hone := happart id
      have hkept : (request.left keep [response]).filter (TrackedRequest.waitsUnder id) = [] := by
        rw [TrackedRequest.left, TrackedRequest.reply_cons_self hwaits]
        dsimp only
        split <;> simp [TrackedRequest.waitsUnder]
      simp only [List.filter_append, List.filter_cons, List.length_append, hkept,
        List.length_nil] at hone ⊢
      split at hone
      · rw [List.length_cons] at hone
        omega
      · exact hone

/-- Dealing with one answer and then giving all requests what they have of the others is giving them
what they have of all. -/
theorem Resolves.perm (h : Resolves keep response requests called rest)
    (happart : WaitApart requests) (responses : List CommandResponse) :
    (rest.flatMap (·.left keep responses)).Perm
        (requests.flatMap (·.left keep (response :: responses))) ∧
      (called ++ rest.flatMap (·.called responses)).Perm
        (requests.flatMap (·.called (response :: responses))) := by
  have hothers {some : List (TrackedRequest κ)}
      (hsome : ∀ request ∈ some, request.waitsUnder response.id = false) :
      some.flatMap (·.left keep (response :: responses)) = some.flatMap (·.left keep responses) ∧
        some.flatMap (·.called (response :: responses)) = some.flatMap (·.called responses) := by
    constructor
    · refine List.flatMap_congr fun request hrequest ↦ ?_
      rw [TrackedRequest.left, TrackedRequest.reply_cons_of_not (hsome request hrequest),
        ← TrackedRequest.left]
    · refine List.flatMap_congr fun request hrequest ↦ ?_
      rw [TrackedRequest.called, TrackedRequest.reply_cons_of_not (hsome request hrequest),
        ← TrackedRequest.called]
  cases h with
  | dropped hnone =>
      rw [(hothers hnone).1, (hothers hnone).2, List.nil_append]
      exact ⟨.refl _, .refl _⟩
  | @handed front back request hfront hwaits =>
      have hback : ∀ other ∈ back, other.waitsUnder response.id = false := by
        -- One request waits for the answer already.
        have hone := happart response.id
        rw [List.filter_append, List.filter_cons_of_pos hwaits, List.length_append,
          List.length_cons] at hone
        have hnone : back.filter (TrackedRequest.waitsUnder response.id) = [] :=
          List.length_eq_zero_iff.1 (by omega)
        exact fun other hother ↦ Bool.not_eq_true _ ▸ List.filter_eq_nil_iff.1 hnone other hother
      have hleft : (request.left keep [response]).flatMap (·.left keep responses) =
          request.left keep (response :: responses) := by
        simp only [TrackedRequest.left, TrackedRequest.reply_cons_self hwaits]
        split <;> simp [TrackedRequest.reply_answered]
      have hcalled : (request.left keep [response]).flatMap (·.called responses) = [] := by
        simp only [TrackedRequest.left, TrackedRequest.reply_cons_self hwaits]
        split <;> simp [TrackedRequest.called, TrackedRequest.reply_answered]
      have hsame : request.called [response] = request.called (response :: responses) := by
        simp only [TrackedRequest.called, TrackedRequest.reply_cons_self hwaits]
      simp only [List.flatMap_append, List.flatMap_cons, (hothers hfront).1, (hothers hfront).2,
        (hothers hback).1, (hothers hback).2, hleft, hcalled, hsame, List.append_nil]
      constructor
      · rw [List.append_assoc]
        exact List.perm_append_comm.append_left _
      · rw [← List.append_assoc, ← List.append_assoc]
        exact List.perm_append_comm.append_right _

/-- After several answers every request has been given what it has of them. -/
theorem ResolvesAll.perm (h : ResolvesAll keep responses requests called rest)
    (happart : WaitApart requests) :
    rest.Perm (requests.flatMap (·.left keep responses)) ∧
      called.Perm (requests.flatMap (·.called responses)) := by
  induction h with
  | nil => simp [TrackedRequest.left, TrackedRequest.called]
  | cons hfirst _ ih =>
      obtain ⟨hrest, hlater⟩ := ih (hfirst.waitApart happart)
      obtain ⟨hleft, hcalled⟩ := hfirst.perm happart _
      exact ⟨hrest.trans hleft, (hlater.append_left _).trans hcalled⟩

/-- The order of answers with different identifiers does not matter. -/
theorem ResolvesAll.perm_of_perm {lastCalled : List (κ × CommandResponse)}
    {last : List (TrackedRequest κ)} (hids : (responses.map (·.id)).Nodup)
    (hperm : responses.Perm others) (happart : WaitApart requests)
    (h : ResolvesAll keep responses requests called rest)
    (hother : ResolvesAll keep others requests lastCalled last) :
    called.Perm lastCalled ∧ rest.Perm last := by
  obtain ⟨hrest, hcalled⟩ := h.perm happart
  obtain ⟨hlast, hlastCalled⟩ := hother.perm happart
  have hleft : requests.flatMap (·.left keep responses) = requests.flatMap (·.left keep others) :=
    List.flatMap_congr fun _ _ ↦ TrackedRequest.left_of_perm hids hperm
  have hsame : requests.flatMap (·.called responses) = requests.flatMap (·.called others) :=
    List.flatMap_congr fun _ _ ↦ TrackedRequest.called_of_perm hids hperm
  exact ⟨hcalled.trans (hsame ▸ hlastCalled.symm), hrest.trans (hleft ▸ hlast.symm)⟩

end Resolution

end I3cHost
