import I3cHost.Proofs.Command.Queue
import I3cHost.Proofs.Engine.Delivery
import I3cHost.Proofs.Submission.Steps

/-!
# Which hooks can ever run

A session invents no hooks: each that it holds was brought by some call. So hooks stay within any
set that holds all those which come from outside, and those which the calls of its members bring
(`sustained_hooksIn`, `hooksIn_perform`). If besides the calls of the members preserve a property
that has nothing to do with the account, so does dealing with completions
(`sustained_hooksInWith`).
-/

namespace I3cHost

/-- A hook makes no calls, and only decides which answers are kept. -/
def Hook.OnlyDecides {τ : Type} (hook : Hook τ) : Prop :=
  hook.followUp = []

/-- Whether a call is about the queue. -/
def Call.handlesQueue {κ τ : Type} : Call κ τ → Bool
  | .enqueue _ _ => true
  | .clear => true
  | .submit _ => true
  | _ => false

/-- The calls about the queue are those that fill it, empty it and send it. -/
theorem Call.exists_of_handlesQueue {κ τ : Type} {call : Call κ τ} (h : call.handlesQueue = true) :
    (∃ command copies, call = .enqueue command copies) ∨ call = .clear ∨
      ∃ dependent, call = .submit dependent := by
  unfold handlesQueue at h
  split at h
  next command copies => exact .inl ⟨command, copies, rfl⟩
  next => exact .inr (.inl rfl)
  next dependent => exact .inr (.inr ⟨dependent, rfl⟩)
  next => cases h

/-- The hooks that a call brings. -/
def Call.hooks {κ τ : Type} : Call κ τ → List κ
  | .enqueue command _ => command.callback.toList
  | .onVendor callback => callback.toList
  | _ => []

/-- A hook does not initialize the device, and brings only such hooks. -/
inductive Hook.SparesBringUp {τ : Type} : Hook τ → Prop
  | intro {hook : Hook τ} (calls : .bringUp ∉ hook.followUp)
      (brought : ∀ call ∈ hook.followUp, ∀ other ∈ call.hooks, other.SparesBringUp) :
      hook.SparesBringUp

namespace Engine

variable {τ : Type} {allowed : Hook τ → Prop} {hand : List (TrackedRequest (Hook τ))}
  {engine : Engine τ} {Q : Engine τ → Prop}

/-- Every hook that could run belongs to a set. -/
structure HooksIn (allowed : Hook τ → Prop) (hand : List (TrackedRequest (Hook τ)))
    (engine : Engine τ) : Prop where
  queued : ∀ command ∈ engine.queue.commands, ∀ hook ∈ command.callback, allowed hook
  tracked : ∀ request ∈ engine.tracker.requests, allowed request.callback
  inHand : ∀ request ∈ hand, allowed request.callback
  vendor : ∀ hook ∈ engine.vendorHook, allowed hook

/-- A property that only depends on the transfers that were made and on the standing of the
device. -/
def BesideAccount (Q : Engine τ → Prop) : Prop :=
  ∀ {before after}, Q before → after.transfers = before.transfers →
    after.standing = before.standing → Q after

/-- A property that only depends on the queue, on which identifier is next, on the transfers that
were made and on the standing of the device. -/
def BesideAnswers (Q : Engine τ → Prop) : Prop :=
  ∀ {before after}, Q before → after.queue = before.queue →
    after.tracker.nextId = before.tracker.nextId → after.transfers = before.transfers →
    after.standing = before.standing → Q after

/-- A property survives what happens beside initialization and submissions, and what becomes of
answers. In none of this a request begins to wait. -/
structure Beside (Q : Engine τ → Prop) : Prop where
  stable : Stable Q
  tracker : ∀ engine tracker, engine.tracker.Subsides tracker → Q engine → Q { engine with tracker }
  vendorHook : ∀ engine vendorHook, Q engine → Q { engine with vendorHook }
  heard : ∀ engine label response, Q engine → Q (report (.response label response) engine)

/-- A property does not depend on the queue and on the tracked requests. -/
def SparesOrders (Q : Engine τ → Prop) : Prop :=
  ∀ engine queue tracker, Q engine → Q { engine with queue, tracker }

/-- A property of queue, next identifier, transfers and standing survives what becomes of
answers. -/
theorem BesideAnswers.beside (hQ : BesideAnswers Q) : Beside Q where
  stable before after hchange h := by
    have hdealings := hchange.dealings
    have hledger := congrArg Prod.fst (congrArg Prod.fst hdealings)
    exact hQ h (congrArg Prod.fst hledger) (congrArg (·.2.1) hledger) (congrArg Prod.snd hdealings)
      hchange.standing
  tracker _ _ hsubsides h := hQ h rfl hsubsides.nextId rfl rfl
  vendorHook _ _ h := hQ h rfl rfl rfl rfl
  heard _ _ _ h := hQ h rfl rfl rfl rfl

/-- Nothing at all is asked of the state. -/
theorem beside_true : Beside fun _ : Engine τ ↦ True where
  stable _ _ _ _ := trivial
  tracker _ _ _ _ := trivial
  vendorHook _ _ _ := trivial
  heard _ _ _ _ := trivial

/-- A property of transfers and standing survives what becomes of answers. -/
theorem BesideAccount.beside (hQ : BesideAccount Q) : Beside Q :=
  BesideAnswers.beside fun h _ _ ↦ hQ h

/-- A property of transfers and standing has nothing to do with the queue. -/
theorem BesideAccount.sparesOrders (hQ : BesideAccount Q) : SparesOrders Q :=
  fun _ _ _ h ↦ hQ h rfl rfl

/-- Every hook that could run belongs to a set, and besides a property of the state holds. -/
def HooksInWith (allowed : Hook τ → Prop) (Q : Engine τ → Prop)
    (hand : List (TrackedRequest (Hook τ))) (engine : Engine τ) : Prop :=
  HooksIn allowed hand engine ∧ Q engine

/-- The calls of the members of a set bring only members. -/
def HookClosed (allowed : Hook τ → Prop) : Prop :=
  ∀ hook, allowed hook → ∀ call ∈ hook.followUp, ∀ other ∈ call.hooks, allowed other

/-- A hook that leaves the queue alone registers only such hooks. -/
theorem hookClosed_sparesQueue : HookClosed (Hook.SparesQueue : Hook τ → Prop) := by
  rintro hook ⟨hcalls, hregistered⟩ call hcall other hother
  cases call with
  | enqueue => cases hcalls _ hcall
  | onVendor callback =>
      obtain rfl : callback = some other := Option.mem_toList.1 hother
      exact hregistered other hcall
  | _ => cases hother

/-- A hook that makes no calls brings no hooks. -/
theorem hookClosed_onlyDecides : HookClosed (Hook.OnlyDecides : Hook τ → Prop) := by
  intro hook hhook call hcall
  rw [hhook] at hcall
  cases hcall

/-- A hook that does not initialize the device brings only such hooks. -/
theorem hookClosed_sparesBringUp : HookClosed (Hook.SparesBringUp : Hook τ → Prop) := by
  rintro hook ⟨-, hbrought⟩ call hcall other hother
  exact hbrought call hcall other hother

/-- A hook that makes no calls leaves the queue alone. -/
theorem sparesQueue_of_onlyDecides {hook : Hook τ} (h : hook.OnlyDecides) : hook.SparesQueue := by
  refine .intro (fun call hcall ↦ ?_) fun callback hcall ↦ ?_
  · rw [h] at hcall
    cases hcall
  · rw [h] at hcall
    cases hcall

/-- Which hooks could run depends on queue, tracked requests and the hook for vendor transfers. -/
theorem ofLedger_hooksIn : OfLedger (HooksIn allowed hand) := by
  intro before after hledger h
  simp only [ledger, Prod.mk.injEq] at hledger
  obtain ⟨hqueue, -, hrequests, hvendor⟩ := hledger
  exact ⟨hqueue ▸ h.queued, hrequests ▸ h.tracked, h.inHand, hvendor ▸ h.vendor⟩

namespace HooksIn

variable (h : HooksIn allowed hand engine)

include h

/-- Tracking a batch moves its hooks from the queue to the tracker. -/
theorem trackQueued (first : UInt16) (dependent : Bool) :
    HooksIn allowed hand (engine.trackQueued first dependent) := by
  refine ⟨fun command hcommand hook hhook ↦ ?_, fun request hrequest ↦ ?_, h.inHand, h.vendor⟩
  · obtain ⟨_, -, rfl⟩ := Array.mem_map.1 hcommand
    cases hhook
  · rcases Array.mem_append.1 hrequest with htracked | hbatch
    · exact h.tracked request htracked
    · exact CommandQueue.callback_handOver _ dependent h.queued request hbatch

/-- Once a batch is sent its commands leave the queue without hooks. -/
theorem concludeQueued : HooksIn allowed hand engine.concludeQueued :=
  ⟨fun command hcommand ↦ absurd hcommand (Array.not_mem_empty command), h.tracked, h.inHand,
    h.vendor⟩

/-- Withdrawing a batch returns its hooks from the tracker to the queue. -/
theorem withdrawQueued (first : UInt16) : HooksIn allowed hand (engine.withdrawQueued first) := by
  refine ⟨?_, ?_, h.inHand, h.vendor⟩
  · exact CommandQueue.callback_takeBack _ h.queued fun request hrequest ↦
      h.tracked request (Array.mem_filter.1 hrequest).1
  · exact fun request hrequest ↦ h.tracked request (Array.mem_filter.1 hrequest).1

/-- Queueing a command brings its hook and no other. -/
theorem enqueueCopies {command : Command (Hook τ)}
    (hcommand : ∀ hook ∈ command.callback, allowed hook) (copies : Nat) :
    HooksIn allowed hand (Engine.enqueueCopies command copies engine).2 := by
  obtain ⟨accepted, -, heq, -⟩ := enqueueCopies_eq command copies engine
  rw [heq]
  refine ⟨fun other hother hook hhook ↦ ?_, h.tracked, h.inHand, h.vendor⟩
  rcases Array.mem_append.1 hother with hqueued | hcopy
  · exact h.queued other hqueued hook hhook
  · obtain ⟨-, rfl⟩ := Array.mem_replicate.1 hcopy
    exact hcommand hook hhook

/-- Emptying the queue brings no hooks. -/
theorem clear : HooksIn allowed hand { engine with queue := {} } :=
  ⟨fun command hcommand ↦ absurd hcommand (Array.not_mem_empty command), h.tracked, h.inHand,
    h.vendor⟩

/-- Taking an answer that was kept brings no hooks. -/
theorem takeRetained (id : UInt16) : HooksIn allowed hand (Engine.takeRetained id engine).2 := by
  unfold Engine.takeRetained
  split
  next response tracker htake =>
    refine ⟨h.queued, fun request hrequest ↦ h.tracked request ?_, h.inHand, h.vendor⟩
    exact Tracker.mem_of_takeRetained htake hrequest
  next => exact h

/-- The hook for vendor-specific transfers is replaced by the given one. -/
theorem onVendor {vendorHook : Option (Hook τ)} (hvendor : ∀ hook ∈ vendorHook, allowed hook) :
    HooksIn allowed hand { engine with vendorHook } :=
  ⟨h.queued, h.tracked, h.inHand, hvendor⟩

/-- The hook of a request that is about to be answered is taken in hand. -/
theorem takePending {id : UInt16} {request : TrackedRequest (Hook τ)} {tracker : Tracker (Hook τ)}
    (htake : engine.tracker.takePending id = some (request, tracker)) :
    HooksIn allowed (request :: hand) { engine with tracker } := by
  obtain ⟨hrequest, hrest⟩ := Tracker.mem_of_takePending htake
  refine ⟨h.queued, fun other hother ↦ h.tracked other (hrest other hother), ?_, h.vendor⟩
  exact List.forall_mem_cons.2 ⟨h.tracked _ hrequest, h.inHand⟩

/-- At the end of answers the hooks of all that wait are taken in hand. -/
theorem takeAllPending (receiving : Bool) :
    HooksIn allowed (engine.tracker.takeAllPending.1.toList ++ hand)
      { engine with tracker := { engine.tracker.takeAllPending.2 with receiving } } := by
  refine ⟨h.queued, fun other hother ↦ h.tracked other (Array.mem_filter.1 hother).1, ?_,
    h.vendor⟩
  intro request hrequest
  rcases List.mem_append.1 hrequest with htaken | hhand
  · exact h.tracked request (Array.mem_filter.1 (Array.mem_toList_iff.1 htaken)).1
  · exact h.inHand request hhand

/-- The requests in hand may be exchanged for others whose hooks belong to the set. -/
theorem withHand {other : List (TrackedRequest (Hook τ))}
    (hother : ∀ request ∈ other, allowed request.callback) : HooksIn allowed other engine :=
  ⟨h.queued, h.tracked, hother, h.vendor⟩

/-- The table holds no hooks. -/
theorem withTable (table : TargetTable) : HooksIn allowed hand (engine.withTable table) :=
  ⟨h.queued, h.tracked, h.inHand, h.vendor⟩

/-- Requests in hand may be let go. -/
theorem release : HooksIn allowed [] engine :=
  h.withHand (List.forall_mem_nil _)

end HooksIn

/-- Hooks that all leave the queue alone. -/
theorem HooksIn.hooksSpareQueue (h : HooksIn allowed [] engine)
    (hspares : ∀ hook, allowed hook → hook.SparesQueue) : engine.HooksSpareQueue where
  queued command hcommand hook hhook := hspares hook (h.queued command hcommand hook hhook)
  tracked request hrequest := hspares _ (h.tracked request hrequest)
  vendor hook hhook := hspares hook (h.vendor hook hhook)

/-- Hooks that leave the queue alone are such a set. -/
theorem HooksSpareQueue.hooksIn (h : engine.HooksSpareQueue) :
    HooksIn Hook.SparesQueue [] engine :=
  ⟨h.queued, h.tracked, List.forall_mem_nil _, h.vendor⟩

/-- A request in hand that was answered comes back at most with the callback that it had. -/
theorem HooksIn.settle {request : TrackedRequest (Hook τ)}
    (h : HooksIn allowed (request :: hand) engine) (response : CommandResponse) (keep : Bool) :
    HooksIn allowed hand (engine.onTracker (·.settle request response keep)) := by
  obtain ⟨hrequest, hhand⟩ := List.forall_mem_cons.1 h.inHand
  refine ⟨h.queued, fun other hother ↦ ?_, hhand, h.vendor⟩
  rcases Tracker.mem_of_mem_settle hother with htracked | rfl
  · exact h.tracked other htracked
  · exact hrequest

/-- What happens beside initialization brings no hooks. -/
theorem stable_hooksInWith (hQ : Stable Q) : Stable (HooksInWith allowed Q hand) :=
  ofLedger_hooksIn.permanent.stable.and hQ

/-- Without a property besides, nothing is asked but that hooks belong to the set. -/
theorem hooksInWith_true : HooksInWith allowed (fun _ ↦ True) = HooksIn allowed := by
  funext hand engine
  exact and_true _

variable [Transport τ] {turn : Turn τ}

/-- A hook that makes no calls does nothing once it has decided. -/
theorem follow_of_onlyDecides {hook : Hook τ} (h : hook.OnlyDecides) :
    follow turn hook = pure () := by
  unfold follow
  rw [h]
  rfl

/-- Carrying out a call that brings only members of the set, if what is besides survives the call
should it be initialization, if it does not depend on the queue should the call be about that, and
if it survives vendor-specific transfers. -/
theorem hooksInWith_perform (hQ : Beside Q)
    (hturn : ∀ moment, EngineM.Preserves (HooksInWith allowed Q hand) (turn moment))
    {call : Call (Hook τ) τ} (hcall : ∀ hook ∈ call.hooks, allowed hook)
    (bringUp : call = .bringUp →
      EngineOp.Preserves (HooksInWith allowed Q hand) (runBringUp turn))
    (queue : call.handlesQueue = true →
      SparesOrders Q ∧ ∀ bytes engine, Q engine → Q (engine.sent bytes))
    (vendor : ∀ payload bytes, Message.toBytes (BulkRequest.vendorSpecific payload) = .ok bytes →
      ∀ engine, Q engine → Q (engine.sent bytes)) :
    EngineM.Preserves (HooksInWith allowed Q hand) (perform turn call) := by
  intro engine h
  have hstable : Stable (HooksInWith allowed Q hand) := stable_hooksInWith hQ.stable
  refine hstable.perform_cases hturn h bringUp ?submitVendor ?enqueue ?clear ?submit ?takeRetained
    ?onVendor
  case submitVendor =>
    rintro payload rfl
    refine hstable.submitVendor hturn payload fun bytes engine hbytes hengine ↦ ?_
    exact ⟨ofLedger_hooksIn engine _ rfl hengine.1, vendor payload bytes hbytes engine hengine.2⟩
  case enqueue =>
    rintro command copies rfl
    refine ⟨h.1.enqueueCopies (fun hook hhook ↦ hcall hook (Option.mem_toList.2 hhook)) copies, ?_⟩
    obtain ⟨accepted, -, heq, -⟩ := enqueueCopies_eq command copies engine
    rw [heq]
    exact (queue rfl).1 engine _ engine.tracker h.2
  case clear =>
    rintro rfl
    exact ⟨h.1.clear, (queue rfl).1 engine _ engine.tracker h.2⟩
  case submit =>
    rintro dependent rfl
    obtain ⟨horders, hsend⟩ := queue rfl
    apply hstable.submit hturn h
    · exact fun _ _ _ hopened ↦ ⟨hopened.1.trackQueued _ dependent, horders _ _ _ hopened.2⟩
    · intro bytes opened _ htracked
      exact ⟨ofLedger_hooksIn (opened.trackQueued _ dependent) _ rfl htracked.1,
        hsend bytes _ htracked.2⟩
    · exact fun _ _ _ hafter ↦ ⟨hafter.1.concludeQueued, horders _ _ _ hafter.2⟩
    · exact fun _ _ _ hafter ↦ ⟨hafter.1.withdrawQueued _, horders _ _ _ hafter.2⟩
  case takeRetained =>
    refine fun id _ ↦ ⟨h.1.takeRetained id, ?_⟩
    unfold takeRetained
    split
    next response tracker htake =>
      exact hQ.tracker engine tracker (Tracker.subsides_takeRetained htake) h.2
    next => exact h.2
  case onVendor =>
    rintro callback rfl
    refine ⟨h.1.onVendor fun hook hhook ↦ hcall hook (Option.mem_toList.2 hhook), ?_⟩
    exact hQ.vendorHook engine callback h.2

/-- Dealing with completions runs only members of the set, whose calls bring only members and leave
alone what is besides. -/
theorem sustained_hooksInWith (hQ : Beside Q)
    (hcalls : ∀ hook, allowed hook → ∀ call ∈ hook.followUp, ∀ hand,
      EngineM.Preserves (HooksInWith allowed Q hand) (perform turn call)) :
    Sustained turn (HooksInWith allowed Q) where
  stable _ := stable_hooksInWith hQ.stable
  take h htake :=
    ⟨h.1.takePending htake, hQ.tracker _ _ (Tracker.subsides_takePending htake) h.2⟩
  takeAll receiving _ h :=
    ⟨h.1.takeAllPending receiving, hQ.tracker _ _ (Tracker.subsides_takeAllPending _ receiving) h.2⟩
  answer {hand engine request response} _ h := by
    have hcallback : allowed request.callback := h.1.inHand request List.mem_cons_self
    have hrun : HooksInWith allowed Q (request :: hand)
        ((runHook turn request.callback response).exec engine).2 :=
      (stable_hooksInWith hQ.stable).runHook (fun call hcall ↦ hcalls _ hcallback call hcall _)
        response (fun engine hengine ↦
          ⟨ofLedger_hooksIn engine _ rfl hengine.1, hQ.heard engine _ _ hengine.2⟩)
        engine h
    exact ⟨hrun.1.settle response _, hQ.tracker _ _ (Tracker.subsides_settle _ _ _ _) hrun.2⟩
  vendor _ payload :=
    (stable_hooksInWith hQ.stable).resolveVendor (fun h hhook ↦ h.1.vendor _ hhook)
      (fun h hvendor ↦ ⟨h.1.onVendor hvendor, hQ.vendorHook _ _ h.2⟩)
      (fun hook hhook call hcall ↦ hcalls hook hhook call hcall _) payload

/-- Carrying out a call that brings only members of the set. -/
theorem hooksIn_perform (hturn : ∀ moment, EngineM.Preserves (HooksIn allowed hand) (turn moment))
    {call : Call (Hook τ) τ} (hcall : ∀ hook ∈ call.hooks, allowed hook) :
    EngineM.Preserves (HooksIn allowed hand) (perform turn call) := by
  have hbringUp : EngineOp.Preserves (HooksIn allowed hand) (runBringUp turn) :=
    ofLedger_hooksIn.permanent.runBringUp hturn
      (ofLedger_hooksIn.permanent.durable.startBulkIn hturn fun _ _ ↦ ofLedger_hooksIn _ _ rfl)
  rw [← hooksInWith_true] at hturn hbringUp ⊢
  exact hooksInWith_perform beside_true hturn hcall (fun _ ↦ hbringUp)
    (fun _ ↦ ⟨fun _ _ _ _ ↦ trivial, fun _ _ _ ↦ trivial⟩) fun _ _ _ _ _ ↦ trivial

/-- Dealing with completions runs only members of the set, whose calls bring only members. -/
theorem sustained_hooksIn (hclosed : HookClosed allowed)
    (hturn : ∀ hand moment, EngineM.Preserves (HooksIn allowed hand) (turn moment)) :
    Sustained turn (HooksIn allowed) := by
  have hcalls (hook : Hook τ) (hhook : allowed hook) (call) (hcall : call ∈ hook.followUp) (hand) :
      EngineM.Preserves (HooksIn allowed hand) (perform turn call) :=
    hooksIn_perform (hturn hand) (hclosed hook hhook call hcall)
  rw [← hooksInWith_true] at hcalls ⊢
  exact sustained_hooksInWith beside_true hcalls

omit [Transport τ] in
/-- Any hook may belong to the set. -/
theorem hooksInWith_anyone : HooksInWith (fun _ ↦ True) Q = fun _ ↦ Q := by
  funext hand engine
  have hhooks : HooksIn (fun _ ↦ True) hand engine :=
    ⟨fun _ _ _ _ ↦ trivial, fun _ _ ↦ trivial, fun _ _ ↦ trivial, fun _ _ ↦ trivial⟩
  exact propext (and_iff_right hhooks)

section Anyone

variable (hQ : Beside Q) (horders : SparesOrders Q)
  (hsent : ∀ bytes engine, Q engine → Q (engine.sent bytes))
  (hturn : ∀ moment, EngineM.Preserves Q (turn moment))

include hQ horders hsent hturn

/-- Whatever call is carried out, if what is asked of the state has nothing to do with orders and
transfers and survives initialization, should it come to that. -/
theorem beside_perform {call : Call (Hook τ) τ}
    (hbringUp : call = .bringUp → EngineOp.Preserves Q (runBringUp turn)) :
    EngineM.Preserves Q (perform turn call) := by
  have hperform : EngineM.Preserves (HooksInWith (fun _ ↦ True) Q []) (perform turn call) :=
    hooksInWith_perform hQ (hooksInWith_anyone ▸ hturn) (fun _ _ ↦ trivial)
      (fun heq ↦ hooksInWith_anyone ▸ hbringUp heq) (fun _ ↦ ⟨horders, hsent⟩)
      fun _ bytes _ ↦ hsent bytes
  rwa [hooksInWith_anyone] at hperform

/-- Whatever completions there are, and whatever hooks do. -/
theorem sustained_beside (hbringUp : EngineOp.Preserves Q (runBringUp turn)) :
    Sustained turn fun _ ↦ Q := by
  have hsustained : Sustained turn (HooksInWith (fun _ ↦ True) Q) :=
    sustained_hooksInWith hQ fun _ _ _ _ _ ↦
      hooksInWith_anyone ▸ beside_perform hQ horders hsent hturn fun _ ↦ hbringUp
  rwa [hooksInWith_anyone] at hsustained

end Anyone

section Sparing

variable (hQ : Beside Q) (horders : SparesOrders Q)
  (hsent : ∀ bytes engine, Q engine → Q (engine.sent bytes))

include hQ horders hsent

/-- Any call but initialization, if all hooks spare that. -/
theorem sparing_perform
    (hturn : ∀ moment, EngineM.Preserves (HooksInWith Hook.SparesBringUp Q hand) (turn moment))
    {call : Call (Hook τ) τ} (hcall : call ≠ .bringUp)
    (hhooks : ∀ hook ∈ call.hooks, hook.SparesBringUp) :
    EngineM.Preserves (HooksInWith Hook.SparesBringUp Q hand) (perform turn call) :=
  hooksInWith_perform hQ hturn hhooks (fun hbringUp ↦ absurd hbringUp hcall)
    (fun _ ↦ ⟨horders, hsent⟩) fun _ bytes _ ↦ hsent bytes

/-- Dealing with completions keeps hooks that do not initialize the device, and what they leave
alone. -/
theorem sustained_sparing (hturn : ∀ hand moment,
      EngineM.Preserves (HooksInWith Hook.SparesBringUp Q hand) (turn moment)) :
    Sustained turn (HooksInWith Hook.SparesBringUp Q) := by
  refine sustained_hooksInWith hQ ?_
  rintro hook ⟨hcalls, hbrought⟩ call hcall hand
  refine sparing_perform hQ horders hsent (hturn hand) ?_ (hbrought call hcall)
  rintro rfl
  exact hcalls hcall

/-- Whatever the application lets happen, if all hooks spare initialization. -/
theorem sparing_application (hand : List (TrackedRequest (Hook τ))) (moment : Moment) :
    EngineM.Preserves (HooksInWith Hook.SparesBringUp Q hand)
      ((Turn.application : Turn τ) moment) :=
  Sustained.application (fun _ hturn ↦ sustained_sparing hQ horders hsent hturn) hand moment

end Sparing

end Engine

end I3cHost
