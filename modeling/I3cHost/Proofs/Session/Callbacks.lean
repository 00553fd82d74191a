import Mathlib.Algebra.GroupWithZero.Nat
import I3cHost.Proofs.Session.History
import I3cHost.Proofs.Submission.Disturbed

/-!
# Who has a callback

A callback is with its command in the queue, with a request that waits, or in hand while that
request is being answered; once it has heard an answer it is spent. `Custody` counts the callbacks
of each name and says to which requests the answers belong. No event increases the count, except
that commands are queued with new callbacks, as long as all that hooks do is to decide which answers
are kept.
-/

namespace I3cHost

variable {τ : Type}

/-- Whether a command holds a callback of a name. -/
def Command.holds (label : String) (command : Command (Hook τ)) : Bool :=
  command.callback.any (·.label == label)

/-- The number of callbacks of a name that an event brings. -/
def Event.offers (label : String) : Event τ → Nat
  | .call (.enqueue command copies) => if command.holds label then copies else 0
  | _ => 0

/-- The number of callbacks of a name that were brought. -/
def offered (label : String) (events : List (Event τ)) : Nat :=
  (events.map (·.offers label)).sum

/-- The number of requests with a callback of a name. -/
def countNamed (label : String) (requests : List (TrackedRequest (Hook τ))) : Nat :=
  requests.countP (·.callback.label == label)

/-- The number of commands with a callback of a name. -/
def CommandQueue.queued (label : String) (queue : CommandQueue (Hook τ)) : Nat :=
  queue.commands.toList.countP (·.holds label)

/-- The number of requests that wait with a callback of a name. -/
def Tracker.waiting (label : String) (tracker : Tracker (Hook τ)) : Nat :=
  countNamed label (tracker.requests.toList.filter (·.isPending))

/-- Callbacks are counted one stretch of a history after the other. -/
theorem offered_append (label : String) (before later : List (Event τ)) :
    offered label (before ++ later) = offered label before + offered label later := by
  simp [offered]

/-- Requests are counted one list after the other. -/
theorem countNamed_append (label : String) (front back : List (TrackedRequest (Hook τ))) :
    countNamed label (front ++ back) = countNamed label front + countNamed label back :=
  List.countP_append

/-- Every request that waits is withdrawn or goes on waiting, and no other is withdrawn. -/
theorem Tracker.waiting_withdraw (tracker : Tracker (Hook τ)) (label : String) (first : UInt16)
    (count : Nat) : tracker.waiting label =
      countNamed label (tracker.withdraw first count).1.toList +
        (tracker.withdraw first count).2.waiting label := by
  have hwithdrawn : (tracker.requests.toList.filter (belongs first count)) =
      (tracker.requests.toList.filter (·.isPending)).filter (belongs first count) := by
    rw [List.filter_filter]
    refine List.filter_congr fun request _ ↦ ?_
    cases hpending : request.isPending <;> simp [belongs, hpending]
  rw [withdraw_eq, waiting, waiting, Array.toList_filter, Array.toList_filter, hwithdrawn,
    List.filter_comm (·.isPending) (!belongs first count ·)]
  exact List.countP_eq_countP_filter_add _ _ _

namespace CommandQueue

variable (queue : CommandQueue (Hook τ)) (label : String)

/-- Of the commands whose callbacks are handed over none holds a callback. -/
theorem queued_keptQueue (first : UInt16) (dependent : Bool) :
    (queue.handOver first dependent).2.queued label = 0 := by
  simp [queued, handOver, Command.holds, List.countP_map, Function.comp_def]

/-- What is counted in a list may be counted before each item is mapped. -/
theorem countP_mapIdx {α β : Type} {select : β → Bool} {original : α → Bool} {f : Nat → α → β}
    (h : ∀ index item, select (f index item) = original item) (items : List α) :
    (items.mapIdx f).countP select = items.countP original := by
  induction items generalizing f with
  | nil => rfl
  | cons item items ih =>
      rw [List.mapIdx_cons, List.countP_cons, List.countP_cons, h,
        ih fun index item ↦ h (index + 1) item]

/-- Every callback is handed over. -/
theorem countNamed_handOver (first : UInt16) (dependent : Bool) :
    countNamed label (queue.handOver first dependent).1.toList = queue.queued label := by
  simp only [countNamed, queued, handOver, Array.toList_filterMap, Array.toList_mapIdx,
    List.countP_filterMap]
  refine countP_mapIdx (fun index command ↦ ?_) _
  rw [Command.holds, id]
  cases command.callback <;> rfl

/-- Replacing an item replaces at most one that was counted. -/
theorem countP_modify_le {α : Type} {select : α → Bool} {change : α → α} {hit : Bool}
    (h : ∀ item, select (change item) = hit) (items : List α) (index : Nat) :
    (items.modify index change).countP select ≤ items.countP select + if hit then 1 else 0 := by
  induction items generalizing index with
  | nil => simp
  | cons item items ih =>
      cases index with
      | zero =>
          rw [List.modify_zero_cons, List.countP_cons, List.countP_cons, h]
          omega
      | succ index =>
          have hrest := ih index
          rw [List.modify_succ_cons, List.countP_cons, List.countP_cons]
          omega

/-- Commands take back at most the callbacks of the withdrawn requests. -/
theorem queued_takeBack (first : UInt16) (withdrawn : Array (TrackedRequest (Hook τ))) :
    (queue.takeBack first withdrawn).queued label ≤
      queue.queued label + countNamed label withdrawn.toList := by
  unfold takeBack queued countNamed
  rw [← Array.foldl_toList]
  generalize withdrawn.toList = withdrawn
  generalize queue.commands = commands
  induction withdrawn generalizing commands with
  | nil => exact Nat.le_refl _
  | cons request withdrawn ih =>
      have hone : (commands.toList.modify (request.id - first).toNat fun command ↦
            { command with callback := some request.callback }).countP (·.holds label) ≤
          commands.toList.countP (·.holds label) +
            if request.callback.label == label then 1 else 0 := by
        refine countP_modify_le ?_ _ _
        exact fun _ ↦ rfl
      refine Nat.le_trans (ih _) ?_
      rw [Array.toList_modify, List.countP_cons]
      omega

end CommandQueue

namespace Engine

variable {bound : String → Nat} {known : TrackedRequest (Hook τ) → Prop}
  {old : List (String × CommandResponse)} {hand : List (TrackedRequest (Hook τ))}
  {engine : Engine τ}

/-- The number of answers that callbacks of a name have heard. -/
def heard (label : String) (engine : Engine τ) : Nat :=
  engine.answers.countP (·.1 == label)

/-- The number of callbacks of a name, spent or not, while some requests are in hand. -/
def custody (label : String) (hand : List (TrackedRequest (Hook τ))) (engine : Engine τ) : Nat :=
  engine.heard label + engine.queue.queued label + engine.tracker.waiting label +
    countNamed label hand

/-- All hooks only decide, there are at most so many callbacks of each name, all requests that wait
or are in hand are known, and so is one for each new answer, with its name and its identifier. -/
structure Custody (bound : String → Nat) (known : TrackedRequest (Hook τ) → Prop)
    (old : List (String × CommandResponse)) (hand : List (TrackedRequest (Hook τ)))
    (engine : Engine τ) : Prop where
  hooks : HooksIn Hook.OnlyDecides hand engine
  bounded : ∀ label, engine.custody label hand ≤ bound label
  tracked : ∀ request ∈ engine.tracker.requests, request.isPending = true → known request
  inHand : ∀ request ∈ hand, known request
  heard : ∃ new, engine.answers = old ++ new ∧ ∀ answer ∈ new, ∃ request, known request ∧
    request.callback.label = answer.1 ∧ request.id = answer.2.id

/-- Custody depends on queue, tracker, hooks and what was heard. -/
theorem Custody.congr {before after : Engine τ} (h : Custody bound known old hand before)
    (hledger : after.ledger = before.ledger) (hanswers : after.answers = before.answers) :
    Custody bound known old hand after := by
  have hhooks : HooksIn Hook.OnlyDecides hand after := ofLedger_hooksIn _ _ hledger h.hooks
  simp only [ledger, Prod.mk.injEq] at hledger
  obtain ⟨hqueue, -, hrequests, -⟩ := hledger
  refine ⟨hhooks, fun label ↦ ?_, hrequests ▸ h.tracked, h.inHand, hanswers ▸ h.heard⟩
  have hcustody : after.custody label hand = before.custody label hand := by
    simp only [custody, Engine.heard, Tracker.waiting, hanswers, hqueue, hrequests]
  exact hcustody ▸ h.bounded label

/-- Custody is a property of the account. -/
theorem ofAccount_custody : OfAccount (Custody bound known old hand) := by
  intro before after haccount h
  simp only [account, Prod.mk.injEq] at haccount
  exact h.congr haccount.1 haccount.2.2

namespace Custody

/-- There may be room for more callbacks than before. -/
theorem mono (h : Custody bound known old hand engine) {larger : String → Nat}
    (hle : ∀ label, bound label ≤ larger label) : Custody larger known old hand engine :=
  ⟨h.hooks, fun label ↦ Nat.le_trans (h.bounded label) (hle label), h.tracked, h.inHand, h.heard⟩

/-- A callback is in hand instead of waiting. -/
theorem takePending (h : Custody bound known old hand engine) {id : UInt16}
    {request : TrackedRequest (Hook τ)} {tracker : Tracker (Hook τ)}
    (htake : engine.tracker.takePending id = some (request, tracker)) :
    Custody bound known old (request :: hand) { engine with tracker } := by
  have hhooks := h.hooks.takePending htake
  obtain ⟨hmem, hrest⟩ := Tracker.mem_of_takePending htake
  obtain ⟨front, back, hrequests, rfl, hselect, -⟩ := Tracker.takePending_eq_some htake
  have hpending : request.isPending = true := (Bool.and_eq_true_iff.1 hselect).2
  refine ⟨hhooks, fun label ↦ ?_, fun other hother ↦ h.tracked other (hrest other hother),
    List.forall_mem_cons.2 ⟨h.tracked request hmem hpending, h.inHand⟩, h.heard⟩
  have hbounded := h.bounded label
  simp only [custody, Engine.heard, answers, Tracker.waiting, countNamed, hrequests,
    List.filter_append, List.filter_cons, hpending, if_true, List.countP_append,
    List.countP_cons] at hbounded ⊢
  omega

/-- All callbacks that waited are in hand. -/
theorem takeAllPending (h : Custody bound known old hand engine) (receiving : Bool) :
    Custody bound known old (engine.tracker.takeAllPending.1.toList ++ hand)
      { engine with tracker := { engine.tracker.takeAllPending.2 with receiving } } := by
  refine ⟨h.hooks.takeAllPending receiving, fun label ↦ ?_, ?_, ?_, h.heard⟩
  · have hnone : engine.tracker.takeAllPending.2.requests.toList.filter (·.isPending) = [] := by
      simp [Tracker.takeAllPending, List.filter_filter]
    have hbounded := h.bounded label
    simp only [custody, Engine.heard, answers, Tracker.waiting, hnone, countNamed_append]
      at hbounded ⊢
    simp only [Tracker.takeAllPending, Array.toList_filter, countNamed, List.countP_nil]
      at hbounded ⊢
    omega
  · intro request hrequest hpending
    have hanswered := (Array.mem_filter.1 hrequest).2
    rw [hpending] at hanswered
    cases hanswered
  · intro request hrequest
    rcases List.mem_append.1 hrequest with htaken | hhand
    · obtain ⟨hmem, hpending⟩ := Array.mem_filter.1 (Array.mem_toList_iff.1 htaken)
      exact h.tracked request hmem hpending
    · exact h.inHand request hhand

/-- A callback is forgotten. -/
theorem forget {request : TrackedRequest (Hook τ)}
    (h : Custody bound known old (request :: hand) engine) :
    Custody bound known old hand engine := by
  obtain ⟨-, hhand⟩ := List.forall_mem_cons.1 h.inHand
  obtain ⟨-, hallowed⟩ := List.forall_mem_cons.1 h.hooks.inHand
  refine ⟨h.hooks.withHand hallowed, fun label ↦ Nat.le_trans ?_ (h.bounded label), h.tracked,
    hhand, h.heard⟩
  simp only [custody, countNamed, List.countP_cons]
  omega

/-- A callback that hears an answer is spent. -/
theorem hear {request : TrackedRequest (Hook τ)} {response : CommandResponse}
    (h : Custody bound known old (request :: hand) engine) (hid : response.id = request.id) :
    Custody bound known old hand
      (report (.response request.callback.label response) engine) := by
  obtain ⟨hrequest, -⟩ := List.forall_mem_cons.1 h.inHand
  obtain ⟨new, hnew, hknown⟩ := h.heard
  have hforgotten := h.forget
  refine ⟨ofLedger_hooksIn engine _ rfl hforgotten.hooks,
    fun label ↦ Nat.le_trans ?_ (h.bounded label), hforgotten.tracked, hforgotten.inHand,
    new ++ [(request.callback.label, response)], ?_, ?_⟩
  · simp only [custody, countNamed, Engine.heard, answers_report, List.countP_append,
      List.countP_cons, List.countP_nil]
    simp only [report]
    omega
  · rw [answers_report, hnew, List.append_assoc]
  · intro answer hanswer
    rcases List.mem_append.1 hanswer with hbefore | hlast
    · exact hknown answer hbefore
    · obtain rfl := List.mem_singleton.1 hlast
      exact ⟨request, hrequest, rfl, hid.symm⟩

/-- A request that was answered no longer waits. -/
theorem settle (h : Custody bound known old hand engine) {request : TrackedRequest (Hook τ)}
    (hrequest : request.callback.OnlyDecides) (response : CommandResponse) (keep : Bool) :
    Custody bound known old hand (engine.onTracker (·.settle request response keep)) := by
  have hwaiting (label : String) : (engine.tracker.settle request response keep).waiting label =
      engine.tracker.waiting label := by
    cases keep with
    | false => rfl
    | true => simp [Tracker.waiting, Tracker.settle]
  refine ⟨?_, fun label ↦ ?_, fun other hother hpending ↦ ?_, h.inHand, h.heard⟩
  · have hhand : HooksIn Hook.OnlyDecides (request :: hand) engine :=
      h.hooks.withHand (List.forall_mem_cons.2 ⟨hrequest, h.hooks.inHand⟩)
    exact hhand.settle response keep
  · have hbounded := h.bounded label
    simp only [custody, Engine.heard, answers, onTracker, hwaiting] at hbounded ⊢
    exact hbounded
  · rcases Tracker.mem_of_mem_settle hother with htracked | rfl
    · exact h.tracked other htracked hpending
    · cases hpending

/-- The callbacks of a batch wait instead of being queued. -/
theorem trackQueued (h : Custody bound known old hand engine) {first : UInt16} {dependent : Bool}
    (hbatch : ∀ request ∈ (engine.queue.handOver first dependent).1, known request) :
    Custody bound known old hand (engine.trackQueued first dependent) := by
  refine ⟨h.hooks.trackQueued first dependent, fun label ↦ Nat.le_trans ?_ (h.bounded label), ?_,
    h.inHand, h.heard⟩
  · have hhanded := engine.queue.countNamed_handOver label first dependent
    have hkept := engine.queue.queued_keptQueue label first dependent
    have hpending : ((engine.queue.handOver first dependent).1.toList.filter (·.isPending)) =
        (engine.queue.handOver first dependent).1.toList :=
      List.filter_eq_self.2 fun request hrequest ↦
        CommandQueue.isPending_handOver engine.queue first dependent request
          (Array.mem_toList_iff.1 hrequest)
    simp only [custody, Engine.heard, answers, Tracker.waiting, queue_trackQueued,
      tracker_trackQueued, Tracker.track, Array.toList_append, List.filter_append, hpending,
      countNamed_append, hhanded, hkept]
    simp only [Engine.trackQueued]
    omega
  · intro request hrequest hpending
    rcases Array.mem_append.1 hrequest with htracked | hnew
    · exact h.tracked request htracked hpending
    · exact hbatch request hnew

/-- Commands that are sent leave the queue without callbacks. -/
theorem concludeQueued (h : Custody bound known old hand engine) :
    Custody bound known old hand engine.concludeQueued := by
  refine ⟨h.hooks.concludeQueued, fun label ↦ Nat.le_trans ?_ (h.bounded label), h.tracked,
    h.inHand, h.heard⟩
  have hempty : (engine.concludeQueued).queue.queued label = 0 := rfl
  simp only [custody, hempty]
  simp only [Engine.heard, answers, Tracker.waiting, Engine.concludeQueued, Tracker.advance]
  omega

/-- Callbacks are queued again instead of waiting. -/
theorem withdrawQueued (h : Custody bound known old hand engine) (first : UInt16) :
    Custody bound known old hand (engine.withdrawQueued first) := by
  refine ⟨h.hooks.withdrawQueued first, fun label ↦ Nat.le_trans ?_ (h.bounded label), ?_,
    h.inHand, h.heard⟩
  · have hback := engine.queue.queued_takeBack label first
      (engine.tracker.withdraw first engine.queue.size).1
    have hsplit := engine.tracker.waiting_withdraw label first engine.queue.size
    simp only [custody, Engine.heard, answers, queue_withdrawQueued, tracker_withdrawQueued]
    simp only [Engine.withdrawQueued]
    omega
  · exact fun request hrequest ↦ h.tracked request (Array.mem_filter.1 hrequest).1

/-- Callbacks of commands that are cleared are forgotten. -/
theorem clear (h : Custody bound known old hand engine) :
    Custody bound known old hand { engine with queue := {} } := by
  refine ⟨h.hooks.clear, fun label ↦ Nat.le_trans ?_ (h.bounded label), h.tracked, h.inHand,
    h.heard⟩
  have hempty : ({} : CommandQueue (Hook τ)).queued label = 0 := rfl
  simp only [custody, hempty, Engine.heard, answers]
  omega

/-- A request whose answer was kept does not wait. -/
theorem takeRetained (h : Custody bound known old hand engine) (id : UInt16) :
    Custody bound known old hand (Engine.takeRetained id engine).2 := by
  have hhooks := h.hooks.takeRetained id
  unfold Engine.takeRetained at hhooks ⊢
  split at hhooks
  next response tracker htake =>
    refine ⟨hhooks, fun label ↦ ?_, fun other hother ↦ h.tracked other
      (Tracker.mem_of_takeRetained htake hother), h.inHand, h.heard⟩
    obtain ⟨front, kept, back, hrequests, rfl, hkept⟩ := Tracker.takeRetained_eq_some htake
    have hbounded := h.bounded label
    simp only [custody, Engine.heard, answers, Tracker.waiting, hrequests, List.filter_append,
      List.filter_cons, hkept, Bool.false_eq_true, if_false] at hbounded ⊢
    exact hbounded
  next => exact h

/-- Copies of a command bring as many callbacks at most. -/
theorem enqueueCopies (h : Custody bound known old [] engine) {command : Command (Hook τ)}
    (hcommand : ∀ hook ∈ command.callback, hook.OnlyDecides) (copies : Nat) :
    Custody (fun label ↦ bound label + if command.holds label then copies else 0) known old []
      (Engine.enqueueCopies command copies engine).2 := by
  have hhooks := h.hooks.enqueueCopies hcommand copies
  obtain ⟨accepted, hle, heq, -⟩ := enqueueCopies_eq command copies engine
  rw [heq] at hhooks ⊢
  refine ⟨hhooks, fun label ↦ ?_, h.tracked, h.inHand, h.heard⟩
  have hbounded := h.bounded label
  have hsame : Command.holds label { command with settings := engine.settings } =
      command.holds label := rfl
  simp only [custody, Engine.heard, answers, CommandQueue.queued, Array.toList_append,
    Array.toList_replicate, List.countP_append, List.countP_replicate, hsame] at hbounded ⊢
  cases hholds : command.holds label with
  | false => simpa using hbounded
  | true =>
      simp only [if_true]
      omega

end Custody

/-- Counting begins anew. -/
theorem HooksIn.custody (h : HooksIn Hook.OnlyDecides [] engine)
    (hknown : ∀ request ∈ engine.tracker.requests, request.isPending = true → known request) :
    Custody (fun label ↦ engine.custody label []) known engine.answers [] engine :=
  ⟨h, fun _ ↦ Nat.le_refl _, hknown, fun _ hrequest ↦ absurd hrequest List.not_mem_nil,
    [], (List.append_nil _).symm, fun _ hanswer ↦ absurd hanswer List.not_mem_nil⟩

/-- A session that was opened holds no callbacks, and none has heard anything. -/
theorem custody_ofTransport {transport : τ} {options : SessionOptions}
    (hopen : Session.ofTransport transport options = .ok engine) :
    Custody (fun _ ↦ 0) (fun _ ↦ True) [] [] engine := by
  obtain ⟨hqueue, htracker, -, hanswers⟩ := ofTransport_eq_ok hopen
  have hnone (label : String) : engine.custody label [] = 0 := by
    rw [custody, Engine.heard, hanswers, hqueue, htracker]
    rfl
  have hcustody : Custody _ (fun _ ↦ True) engine.answers [] engine :=
    (hooksIn_ofTransport hopen _).custody fun _ _ _ ↦ trivial
  exact hanswers ▸ hcustody.mono fun label ↦ Nat.le_of_eq (hnone label)

variable [Transport τ] {turn : Turn τ}

/-- A hook that only decides reports what it hears at most. -/
theorem exec_runHook {hook : Hook τ} (hhook : hook.OnlyDecides) (response : CommandResponse)
    (engine : Engine τ) : ((runHook turn hook response).exec engine).2 =
      if hook.quiet then engine else report (.response hook.label response) engine := by
  unfold runHook
  rw [follow_of_onlyDecides hhook]
  cases hook.quiet <;> rfl

/-- No stage of dealing with completions makes callbacks, and every answer goes to a request that is
known and has its identifier. -/
theorem sustained_custody (turn : Turn τ) : Sustained turn (Custody bound known old) where
  stable _ := ofAccount_custody.permanent.stable
  take h htake := h.takePending htake
  takeAll receiving _ h := h.takeAllPending receiving
  answer {hand engine request response} hid h := by
    have hcallback : request.callback.OnlyDecides := h.hooks.inHand request List.mem_cons_self
    have hheard : Custody bound known old hand
        ((runHook turn request.callback response).exec engine).2 := by
      rw [exec_runHook hcallback]
      split
      · exact h.forget
      · exact h.hear hid
    exact hheard.settle hcallback response _
  vendor _ payload :=
    ofAccount_custody.permanent.stable.resolveVendor (fun h hhook ↦ h.hooks.vendor _ hhook)
      (fun h hvendor ↦ ⟨h.hooks.onVendor hvendor, h.bounded, h.tracked, h.inHand, h.heard⟩)
      (fun hook hhook call hcall ↦ by rw [hhook] at hcall; cases hcall) payload

/-- Whatever the application lets happen. -/
theorem custody_application (moment : Moment) :
    EngineM.Preserves (Custody bound known old hand) ((Turn.application : Turn τ) moment) :=
  Sustained.application (fun turn _ ↦ sustained_custody turn) hand moment

/-- A request that an answer can reach during an event: it waits when the event begins, or the event
is the submission that hands it over. -/
def Answerable (event : Event τ) (engine : Engine τ) (request : TrackedRequest (Hook τ)) : Prop :=
  (request ∈ engine.tracker.requests ∧ request.isPending = true) ∨
    ∃ dependent bytes opened, event = .call (.submit dependent) ∧
      (prepare Turn.application dependent).exec engine = (.ok bytes, opened) ∧
      request ∈ (opened.queue.handOver engine.tracker.nextId dependent).1

namespace Custody

/-- An event makes no callbacks apart from those that it brings, and gives no answer to a request
that is not known. -/
theorem happen (h : Custody bound known old [] engine) {event : Event τ}
    (hevent : ∀ hook ∈ event.hooks, hook.OnlyDecides)
    (hknown : ∀ request, engine.Answerable event request → known request) :
    Custody (fun label ↦ bound label + event.offers label) known old []
      ((Engine.happen event).exec engine).2 := by
  have hbusy : Sustained Turn.busy (Custody bound known old) := sustained_custody _
  cases event with
  | completion completion => exact hbusy.happen_completion completion engine h
  | failure => exact hbusy.happen_failure engine h
  | call call =>
      show Custody _ known old [] ((perform Turn.application call).exec engine).2
      have hwider : Custody (fun label ↦ bound label + (Event.call call).offers label) known old []
          engine :=
        h.mono fun label ↦ Nat.le_add_right _ _
      refine ofAccount_custody.perform_cases custody_application hwider ?polling ?enqueue ?clear
        ?submit ?takeRetained ?onVendor
      case polling =>
        exact fun _ ↦ ofAccount_custody.permanent.durable.startBulkIn custody_application
          fun _ _ hengine ↦ hengine.congr rfl rfl
      case enqueue =>
        rintro command copies rfl
        exact h.enqueueCopies (fun hook hhook ↦ hevent hook (Option.mem_toList.2 hhook)) copies
      case clear => exact fun _ ↦ hwider.clear
      case submit =>
        rintro dependent rfl
        apply ofAccount_custody.permanent.stable.submit custody_application hwider
        · intro bytes opened hprepare hopened
          exact hopened.trackQueued fun request hrequest ↦
            hknown request (.inr ⟨dependent, bytes, opened, rfl, hprepare, hrequest⟩)
        · exact fun _ _ _ ↦ ofAccount_custody _ _ rfl
        · exact fun _ _ _ hafter ↦ hafter.concludeQueued
        · exact fun _ _ _ hafter ↦ hafter.withdrawQueued _
      case takeRetained => exact fun id _ ↦ hwider.takeRetained id
      case onVendor =>
        rintro callback rfl
        have hhooks := h.hooks.onVendor fun hook hhook ↦ hevent hook (Option.mem_toList.2 hhook)
        exact ⟨hhooks, hwider.bounded, h.tracked, h.inHand, h.heard⟩

end Custody

variable {events : List (Event τ)} {label : String}

/-- A history makes no callbacks apart from those that it brings. -/
theorem custody_after (hevents : ∀ event ∈ events, ∀ hook ∈ event.hooks, hook.OnlyDecides)
    (h : Custody bound (fun _ ↦ True) old [] engine) :
    Custody (fun label ↦ bound label + offered label events) (fun _ ↦ True) old []
      (engine.after events) := by
  refine after_induction (P := fun events ↦ Custody
    (fun label ↦ bound label + offered label events) (fun _ ↦ True) old []) ?_ ?_
  · exact h.mono fun label ↦ Nat.le_refl _
  · intro before event later heq hbefore
    have hevent := hevents event (heq ▸ List.mem_append_right before List.mem_cons_self)
    refine (hbefore.happen hevent fun _ _ ↦ trivial).mono fun label ↦ ?_
    rw [offered_append]
    simp only [offered, List.map_cons, List.map_nil, List.sum_cons, List.sum_nil]
    omega

/-- An answer that is heard during an event goes to a request that it can reach. -/
theorem exists_answerable (h : HooksIn Hook.OnlyDecides [] engine) {event : Event τ}
    (hevent : ∀ hook ∈ event.hooks, hook.OnlyDecides) :
    ∃ new, ((happen event).exec engine).2.answers = engine.answers ++ new ∧
      ∀ answer ∈ new, ∃ request, engine.Answerable event request ∧
        request.callback.label = answer.1 ∧ request.id = answer.2.id :=
  ((h.custody fun _ hrequest hpending ↦ .inl ⟨hrequest, hpending⟩).happen hevent
    fun _ hanswerable ↦ hanswerable).heard

/-- After a submission that failed only requests wait that waited before. -/
theorem pending_of_submit_error (h : HooksIn Hook.OnlyDecides [] engine) {dependent : Bool}
    {error : HostError} {after : Engine τ}
    (hsubmit : (submit Turn.application dependent).exec engine = (.error error, after)) :
    ∀ request ∈ after.tracker.requests, request.isPending = true →
      request ∈ engine.tracker.requests := by
  obtain ⟨cause, failed, hprepare, hfailed⟩ | ⟨bytes, opened, hprepare, hended⟩ :=
    exec_submit_cases Turn.application dependent engine
  · cases hsubmit.symm.trans hfailed
    have hstart := h.custody fun request hrequest _ ↦ hrequest
    have hprepared : Custody _ _ _ [] ((prepare Turn.application dependent).exec engine).2 :=
      ofAccount_custody.permanent.stable.prepare custody_application dependent engine hstart
    rw [hprepare] at hprepared
    exact hprepared.tracked
  · have hspare := h.hooksSpareQueue fun _ ↦ sparesQueue_of_onlyDecides
    have hduring := during_prepare Turn.ordinary_application dependent hspare
    rw [hprepare] at hduring
    have hcallbacks : opened.queue.HoldsCallbacks :=
      holdsCallbacks_of_exec_prepare Turn.ordinary_application hspare hprepare
    -- Until the batch is withdrawn only its requests wait besides those that waited before.
    have hstart : Custody _ (fun request ↦ request ∈ engine.tracker.requests ∨
        request ∈ (opened.queue.handOver engine.tracker.nextId dependent).1) _ [] engine :=
      h.custody fun request hrequest _ ↦ .inl hrequest
    have hopened : Custody _ _ _ [] ((prepare Turn.application dependent).exec engine).2 :=
      ofAccount_custody.permanent.stable.prepare custody_application dependent engine hstart
    rw [hprepare] at hopened
    have htracked := hopened.trackQueued fun request hrequest ↦ .inr hrequest
    have htransferred := custody_application .bulkOut
      ((opened.trackQueued engine.tracker.nextId dependent).sent bytes) (htracked.congr rfl rfl)
    have hqueue := (during_transferred Turn.ordinary_application
      (hduring.hooksSpareQueue hspare) engine.tracker.nextId dependent bytes).queue
    obtain haccepted | ⟨cause, hrefused⟩ := hended
    · cases hsubmit.symm.trans haccepted
    · cases hsubmit.symm.trans hrefused
      intro request hrequest hpending
      rw [tracker_withdrawQueued, hqueue, queue_trackQueued, CommandQueue.size_keptQueue,
        Tracker.withdraw_eq] at hrequest
      obtain ⟨hmem, hkept⟩ := Array.mem_filter.1 hrequest
      rcases htransferred.tracked request hmem hpending with hbefore | hbatch
      · exact hbefore
      · rw [CommandQueue.belongs_of_mem_handOver hcallbacks hbatch] at hkept
        cases hkept

/-- The application submits, and the submission succeeds. -/
def Accepts (engine : Engine τ) (event : Event τ) : Prop :=
  ∃ dependent ids after, event = .call (.submit dependent) ∧
    (submit Turn.application dependent).exec engine = (.ok ids, after)

/-- Only a submission that succeeds lets more requests wait. -/
theorem pending_of_not_accepts (h : HooksIn Hook.OnlyDecides [] engine) {event : Event τ}
    (hevent : ∀ hook ∈ event.hooks, hook.OnlyDecides) (hnot : ¬ engine.Accepts event) :
    ∀ request ∈ ((happen event).exec engine).2.tracker.requests, request.isPending = true →
      request ∈ engine.tracker.requests := by
  by_cases hsubmission : ∃ dependent, event = .call (.submit dependent)
  · obtain ⟨dependent, rfl⟩ := hsubmission
    have hexec : ((happen (.call (.submit dependent))).exec engine).2 =
        ((submit Turn.application dependent).exec engine).2 :=
      exec_perform_submit _ dependent engine
    rw [hexec]
    rcases hsubmit : (submit Turn.application dependent).exec engine with ⟨error | ids, after⟩
    · exact pending_of_submit_error h hsubmit
    · exact absurd ⟨dependent, ids, after, rfl, hsubmit⟩ hnot
  · have hstart : Custody _ (· ∈ engine.tracker.requests) _ [] engine :=
      h.custody fun request hrequest _ ↦ hrequest
    refine (hstart.happen hevent fun request hanswerable ↦ ?_).tracked
    rcases hanswerable with ⟨hrequest, -⟩ | ⟨dependent, _, _, rfl, -⟩
    · exact hrequest
    · exact absurd ⟨dependent, rfl⟩ hsubmission

/-- As long as no submission succeeds no request waits with a callback that none waited with. -/
theorem waiting_after (h : HooksIn Hook.OnlyDecides [] engine)
    (hevents : ∀ event ∈ events, ∀ hook ∈ event.hooks, hook.OnlyDecides)
    (hnone : ∀ before event later, events = before ++ event :: later →
      ¬ (engine.after before).Accepts event)
    (hwaiting : engine.tracker.waiting label = 0) :
    (engine.after events).tracker.waiting label = 0 := by
  refine after_induction (P := fun _ engine ↦ engine.tracker.waiting label = 0) hwaiting ?_
  intro before event later heq hbefore
  obtain ⟨hhooks, hevent⟩ := hooksIn_before hookClosed_onlyDecides h hevents heq
  have hpending := pending_of_not_accepts hhooks hevent (hnone before event later heq)
  simp only [Tracker.waiting, countNamed, List.countP_eq_zero, List.mem_filter,
    Array.mem_toList_iff] at hbefore ⊢
  rintro request ⟨hrequest, hpends⟩
  exact hbefore request ⟨hpending request hrequest hpends, hpends⟩

/-- What holds of the callbacks of a name after a history. -/
structure HeardOnce (start : Engine τ) (events : List (Event τ)) (label : String) : Prop where
  /-- At most as many answers are heard as callbacks were brought. -/
  once : (start.after events).heard label ≤ offered label events
  /-- Every answer has the identifier of a request with such a callback, which waited when the event
  began or was handed over by it. -/
  identified : ∀ before event later, events = before ++ event :: later →
    ∃ new, (start.after (before ++ [event])).answers = (start.after before).answers ++ new ∧
      ∀ response, (label, response) ∈ new → ∃ request,
        (start.after before).Answerable event request ∧ request.callback.label = label ∧
          request.id = response.id
  /-- After the queue has been cleared nothing is heard by callbacks that were brought with commands
  which no submission had accepted by then. -/
  cleared : ∀ older stretch later, events = older ++ stretch ++ .call .clear :: later →
    offered label older = 0 → offered label later = 0 →
    (∀ before event rest, stretch = before ++ event :: rest →
      ¬ (start.after (older ++ before)).Accepts event) →
    ∃ new, (start.after events).answers = (start.after (older ++ stretch)).answers ++ new ∧
      ∀ response, (label, response) ∉ new

/-- Over a whole session whose callbacks only decide which answers are kept, no callback is called
more often than it was brought, or with the answer to another request, or after its command was
cleared. -/
theorem heardOnce {transport : τ} {options : SessionOptions}
    (hopen : Session.ofTransport transport options = .ok engine)
    (hevents : ∀ event ∈ events, ∀ hook ∈ event.hooks, hook.OnlyDecides) (label : String) :
    engine.HeardOnce events label := by
  have hstart := custody_ofTransport hopen
  constructor
  case once =>
    have hbounded := (custody_after hevents hstart).bounded label
    unfold custody at hbounded
    omega
  case identified =>
    intro before event later heq
    obtain ⟨hhooks, hevent⟩ := hooksIn_before hookClosed_onlyDecides hstart.hooks hevents heq
    obtain ⟨new, hnew, hanswerable⟩ := exists_answerable hhooks hevent
    rw [after_concat]
    exact ⟨new, hnew, fun response hresponse ↦ hanswerable (label, response) hresponse⟩
  case cleared =>
    rintro older stretch later rfl holder hlater hnone
    have hmem (event : Event τ) (hevent : event ∈ older ∨ event ∈ stretch ∨ event ∈ later) :
        ∀ hook ∈ event.hooks, hook.OnlyDecides := by
      apply hevents event
      simp only [List.mem_append, List.mem_cons]
      tauto
    -- Nothing of the name exists before the stretch, so nothing waits under it when it ends.
    have holdest := custody_after (fun event hevent ↦ hmem event (.inl hevent)) hstart
    have hwaiting : (engine.after older).tracker.waiting label = 0 := by
      have hbounded := holdest.bounded label
      unfold custody at hbounded
      omega
    have hstretch := waiting_after holdest.hooks
      (fun event hevent ↦ hmem event (.inr (.inl hevent)))
      (fun before event rest heq ↦ after_append older before engine ▸ hnone before event rest heq)
      hwaiting
    have hhooks := hooksIn_after hookClosed_onlyDecides holdest.hooks
      fun event hevent ↦ hmem event (.inr (.inl hevent))
    rw [← after_append] at hstretch hhooks
    -- What was queued is forgotten, so all callbacks of the name that are left are spent.
    have hcleared : Custody _ (fun _ ↦ True) _ [] _ := hhooks.clear.custody fun _ _ _ ↦ trivial
    have hend := custody_after (fun event hevent ↦ hmem event (.inr (.inr hevent))) hcleared
    rw [after_append _ (.call .clear :: later)]
    obtain ⟨new, hnew, -⟩ := hend.heard
    refine ⟨new, hnew, fun response hresponse ↦ ?_⟩
    have hpositive : 0 < new.countP (·.1 == label) :=
      List.countP_pos_iff.2 ⟨_, hresponse, beq_self_eq_true label⟩
    have hforgotten : custody label []
        { engine.after (older ++ stretch) with queue := {} } =
          (engine.after (older ++ stretch)).heard label := by
      show _ + 0 + (engine.after (older ++ stretch)).tracker.waiting label + 0 = _
      rw [hstretch]
      rfl
    have hbounded := hend.bounded label
    simp only [hforgotten, hlater] at hbounded
    simp only [custody, Engine.heard, hnew, List.countP_append] at hbounded
    have hsame : answers { engine.after (older ++ stretch) with queue := {} } =
        (engine.after (older ++ stretch)).answers := rfl
    rw [hsame] at hbounded
    omega

/-- A device whose answer to a request comes while the request is being sent. -/
def promptDevice : ScriptedTransport where
  control
    | .getBufferAvailable => [{ data := some [0, 16, 0, 0] }]
    | .getI3cCapability => [{ data := some [16, 0, 1, 0, 1, 1, 1, 0, 6, 0, 0, 0, 32, 0, 0, 0] }]
    | _ => []
  bulkOut := [{ early := [.bulkIn (.ok [0, 0, 0, 0, 0, 0, 1, 0, 0, 0, 0, 0])] }]

/-- A session in which one command is sent and answered. -/
def oneAnswer : List (Event ScriptedTransport) :=
  [.call .bringUp, .call (.enqueue reader), .call (.submit false), .failure, .call .clear]

/-- One command is sent and answered while it is being sent, and its callback hears that once. -/
theorem heardOnce_oneAnswer : ∃ engine, Session.ofTransport promptDevice {} = .ok engine ∧
    engine.HeardOnce oneAnswer "reader" ∧ (engine.after oneAnswer).heard "reader" = 1 := by
  have hopen : Session.ofTransport promptDevice {} = .ok { transport := promptDevice } := rfl
  refine ⟨_, hopen, heardOnce hopen ?_ "reader", by decide +kernel⟩
  simp [oneAnswer, Event.hooks, Call.hooks, reader, Hook.OnlyDecides]

end Engine

end I3cHost
