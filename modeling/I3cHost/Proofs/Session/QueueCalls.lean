import I3cHost.Proofs.Session.History
import I3cHost.Proofs.Submission.Disturbed

/-!
# The calls about the queue

An application and its callbacks queue commands, clear the queue and submit it. The stock of a
session, that is, what is queued, which identifier is next and what commands have been sent,
changes only in the course of such calls, and requests begin to wait only then (`Between`). In every
history the calls come one after the other (`exists_recounted`). A submission holds the queue until
it returns, so this is about histories in which callbacks that run meanwhile leave the stock alone.
-/

namespace I3cHost

/-- A command without its callback. -/
def Command.silent {κ : Type} (command : Command κ) : Command κ :=
  { command with callback := none }

/-- Whether a transfer carries commands. -/
def carriesCommands (bytes : Bytes) : Bool :=
  match BulkRequest.decode bytes with
  | .ok (.regular _) => true
  | _ => false

/-- A vendor-specific request carries no commands. -/
theorem carriesCommands_vendorSpecific {payload bytes : Bytes}
    (h : Message.toBytes (BulkRequest.vendorSpecific payload) = .ok bytes) :
    carriesCommands bytes = false := by
  obtain rfl := Except.ok.inj ((BulkRequest.toBytes_vendorSpecific payload).symm.trans h)
  rw [carriesCommands, BulkRequest.decode_vendorSpecific]

/-- For a call about the queue the queue is held. -/
theorem Call.handlesQueue_eq_false {κ τ : Type} {call : Call κ τ} (h : call.holdsQueue = false) :
    call.handlesQueue = false := by
  cases call with
  | enqueue => cases h
  | clear => cases h
  | submit => cases h
  | _ => rfl

/-- A call about the queue, as it is made. -/
structure QueueCall (τ : Type) where
  /-- The callback that makes the call, unless the application does. -/
  caller : Option (Hook τ) := none
  request : Call (Hook τ) τ
  /-- The state in which the call is made. -/
  before : Engine τ

namespace QueueCall

variable {τ : Type} [Transport τ]

/-- A callback runs on the event thread, and keeps it busy. -/
def turn (made : QueueCall τ) : Turn τ :=
  match made.caller with
  | none => .application
  | some _ => .busy

def outcome (made : QueueCall τ) : Outcome :=
  ((Engine.perform made.turn made.request).exec made.before).1

/-- The state in which the call leaves the session. -/
def after (made : QueueCall τ) : Engine τ :=
  ((Engine.perform made.turn made.request).exec made.before).2

end QueueCall

namespace Engine

variable {τ : Type} {engine last : Engine τ} {allowed : Hook τ → Prop}
  {hand : List (TrackedRequest (Hook τ))}

/-- The queued commands without their callbacks. -/
def queued (engine : Engine τ) : List (Command (Hook τ)) :=
  engine.queue.commands.toList.map Command.silent

/-- The transfers that carried commands, oldest first. -/
def commandTransfers (engine : Engine τ) : List Bytes :=
  engine.transfers.filter carriesCommands

/-- What is queued, which identifier is next and what commands have been sent. -/
def stock (engine : Engine τ) : List (Command (Hook τ)) × UInt16 × List Bytes :=
  (engine.queued, engine.tracker.nextId, engine.commandTransfers)

/-- What can happen between two calls about the queue: the stock stays the same, and no request
begins to wait. -/
structure Between (before after : Engine τ) : Prop where
  stock : after.stock = before.stock
  tracker : before.tracker.Subsides after.tracker

/-- A property that lasts until the next call about the queue. -/
def OfBetween (Q : Engine τ → Prop) : Prop :=
  ∀ before after, Q before → before.Between after → Q after

/-- Nothing at all can happen between two calls about the queue. -/
theorem Between.refl (engine : Engine τ) : engine.Between engine :=
  ⟨rfl, .refl _⟩

/-- What can happen between two calls can be followed by more of it. -/
theorem Between.trans {before between after : Engine τ} (h : before.Between between)
    (hafter : between.Between after) : before.Between after :=
  ⟨hafter.stock.trans h.stock, h.tracker.trans hafter.tracker⟩

/-- What can happen since a state lasts until the next call about the queue. -/
theorem ofBetween_between (start : Engine τ) : OfBetween start.Between :=
  fun _ _ h hafter ↦ h.trans hafter

/-- The stock depends on queue, next identifier and transfers. -/
theorem stock_congr {before after : Engine τ} (hqueue : after.queue = before.queue)
    (hnextId : after.tracker.nextId = before.tracker.nextId)
    (htransfers : after.transfers = before.transfers) : after.stock = before.stock := by
  simp only [stock, queued, commandTransfers, hqueue, hnextId, htransfers]

/-- Between two calls the ledger may stay the same, and transfers without commands may be made. -/
theorem between_of_ledger {before after : Engine τ} (hledger : after.ledger = before.ledger)
    (htransfers : after.commandTransfers = before.commandTransfers) : before.Between after := by
  simp only [ledger, Prod.mk.injEq] at hledger
  obtain ⟨hqueue, hnextId, hrequests, -⟩ := hledger
  refine ⟨?_, .of_requests hnextId hrequests⟩
  simp only [stock, queued, hqueue, hnextId, htransfers]

/-- What leaves the account and the transfers alone can happen between two calls about the queue. -/
theorem between_of_dealings {before after : Engine τ} (h : after.dealings = before.dealings) :
    before.Between after :=
  between_of_ledger (congrArg (·.1.1) h) (congrArg (·.2.filter carriesCommands) h)

/-- What lasts until the next call about the queue survives what becomes of answers. -/
theorem OfBetween.beside {Q : Engine τ → Prop} (hQ : OfBetween Q) : Beside Q where
  stable _ _ hchange h := hQ _ _ h (between_of_dealings hchange.dealings)
  tracker _ _ hsubsides h := hQ _ _ h ⟨stock_congr rfl hsubsides.nextId rfl, hsubsides⟩
  vendorHook _ _ h := hQ _ _ h ⟨rfl, .refl _⟩
  heard _ _ _ h := hQ _ _ h ⟨rfl, .refl _⟩

/-- A transfer that is made counts if it carries commands. -/
theorem commandTransfers_sent [Transport τ] (bytes : Bytes) (engine : Engine τ) :
    (engine.sent bytes).commandTransfers =
      engine.commandTransfers ++ [bytes].filter carriesCommands := by
  rw [commandTransfers, sent, transfers_call, List.filter_append]
  rfl

/-- A vendor-specific transfer carries no commands. -/
theorem between_sent_vendorSpecific [Transport τ] {payload bytes : Bytes}
    (h : Message.toBytes (BulkRequest.vendorSpecific payload) = .ok bytes) (engine : Engine τ) :
    engine.Between (engine.sent bytes) := by
  refine between_of_ledger rfl ?_
  rw [commandTransfers_sent, List.filter_cons_of_neg, List.filter_nil, List.append_nil]
  rw [carriesCommands_vendorSpecific h]
  exact Bool.false_ne_true

variable [Transport τ] {turn : Turn τ}

/-- Calls about other things can be made between two calls about the queue. -/
theorem OfBetween.perform {Q : Engine τ → Prop} (hQ : OfBetween Q)
    (hturn : ∀ moment, EngineM.Preserves (HooksInWith allowed Q hand) (turn moment))
    {call : Call (Hook τ) τ} (hcall : call.handlesQueue = false)
    (hhooks : ∀ hook ∈ call.hooks, allowed hook) :
    EngineM.Preserves (HooksInWith allowed Q hand) (Engine.perform turn call) := by
  have hdealings : OfDealings (HooksInWith allowed Q hand) := by
    intro before after hdealings h
    exact ⟨ofLedger_hooksIn before after (congrArg (·.1.1) hdealings) h.1,
      hQ _ _ h.2 (between_of_dealings hdealings)⟩
  refine hooksInWith_perform hQ.beside hturn hhooks (fun _ ↦ ?_)
    (fun hqueue ↦ absurd hqueue (Bool.not_eq_true _ ▸ hcall)) fun _ _ hbytes engine h ↦
      hQ _ _ h (between_sent_vendorSpecific hbytes engine)
  have hpermanent := hdealings.permanent
  exact hpermanent.runBringUp hturn (hpermanent.durable.startBulkIn hturn fun engine _ h ↦
    ⟨ofLedger_hooksIn engine _ rfl h.1, hQ _ _ h.2 (between_of_ledger rfl rfl)⟩)

/-- Asking for room can be done between two calls. -/
theorem between_asked (engine : Engine τ) : engine.Between engine.asked :=
  between_of_ledger rfl (congrArg (List.filter carriesCommands)
    ((transfers_call _ _ engine).trans (List.append_nil _)))

/-- A submission has the queue to itself: neither while the device is asked for room nor during the
transfer does anything that is delivered change the stock. -/
structure Exclusive (turn : Turn τ) (dependent : Bool) (engine : Engine τ) : Prop where
  query : ((prepare turn dependent).exec engine).2.stock = engine.stock
  transfer : ∀ bytes opened, (prepare turn dependent).exec engine = (.ok bytes, opened) →
    (opened.transferred turn engine.tracker.nextId dependent bytes).stock =
      ((opened.trackQueued engine.tracker.nextId dependent).sent bytes).stock

/-- A submission holds the queue: what is delivered while the device is asked for room and during
the transfer could also happen between two calls about the queue. -/
structure HoldsQueue (turn : Turn τ) (dependent : Bool) (engine : Engine τ) : Prop where
  query : engine.Between ((prepare turn dependent).exec engine).2
  transfer : ∀ bytes opened, (prepare turn dependent).exec engine = (.ok bytes, opened) →
    ((opened.trackQueued engine.tracker.nextId dependent).sent bytes).Between
      (opened.transferred turn engine.tracker.nextId dependent bytes)

/-- A submission that holds the queue has it to itself. -/
theorem HoldsQueue.exclusive {dependent : Bool} (h : engine.HoldsQueue turn dependent) :
    engine.Exclusive turn dependent :=
  ⟨h.query.stock, fun bytes opened hprepare ↦ (h.transfer bytes opened hprepare).stock⟩

/-- Preparing a submission holds the queue if what is delivered meanwhile leaves it alone. -/
theorem between_prepare {dependent : Bool}
    (h : engine.asked.Between ((turn .bufferQuery).exec engine.asked).2) :
    engine.Between ((prepare turn dependent).exec engine).2 := by
  rcases exec_prepare_cases turn dependent engine with ⟨error, hprepare⟩ | ⟨bytes, hready⟩
  · rw [hprepare]
    exact .refl engine
  · rw [hready.exec_prepare]
    exact (between_asked engine).trans h

/-- Nothing is delivered to a busy thread. -/
theorem holdsQueue_busy (dependent : Bool) (engine : Engine τ) :
    HoldsQueue Turn.busy dependent engine :=
  ⟨between_prepare (.refl _), fun _ _ _ ↦ .refl _⟩

/-- A submission holds the queue if the transport hands out nothing meanwhile. -/
theorem Undisturbed.holdsQueue {dependent : Bool} (h : engine.Undisturbed dependent)
    (hturn : turn.Ordinary) : engine.HoldsQueue turn dependent := by
  have hquery := hturn.idle (.inl rfl) h.query
  refine ⟨between_prepare (hquery.symm ▸ .refl _), fun bytes opened hprepare ↦ ?_⟩
  have hready := ready_of_exec_prepare hprepare
  obtain rfl : engine.asked = opened := by
    rw [hready.exec_prepare, hquery] at hprepare
    exact congrArg Prod.snd hprepare
  have hsame : engine.asked.transferred turn engine.tracker.nextId dependent bytes =
      (engine.asked.trackQueued engine.tracker.nextId dependent).sent bytes :=
    hturn.idle (.inr rfl) (h.transfer bytes hready.written)
  exact hsame ▸ .refl _

section Spare

variable {start : Engine τ}

/-- What hooks do that leave the queue alone can happen between two calls about the queue. -/
theorem sustained_between (hturn : ∀ hand moment, EngineM.Preserves
      (HooksInWith Hook.SparesQueue start.Between hand) (turn moment)) :
    Sustained turn (HooksInWith Hook.SparesQueue start.Between) := by
  refine sustained_hooksInWith (ofBetween_between start).beside ?_
  rintro hook ⟨hcalls, hregistered⟩ call hcall hand
  exact (ofBetween_between start).perform (hturn hand)
    (Call.handlesQueue_eq_false (hcalls call hcall))
    (hookClosed_sparesQueue hook ⟨hcalls, hregistered⟩ call hcall)

variable (h : start.HooksSpareQueue)

include h

/-- A submission holds the queue if all hooks leave the queue alone. -/
theorem HooksSpareQueue.holdsQueue (hturn : turn.Ordinary) (dependent : Bool) :
    start.HoldsQueue turn dependent := by
  have hdeliver (engine : Engine τ) (hengine : HooksIn Hook.SparesQueue [] engine)
      (moment : Moment) (hmoment : moment = .bufferQuery ∨ moment = .bulkOut) :
      engine.Between ((turn moment).exec engine).2 :=
    (hturn.preserves hmoment
      ((sustained_between fun _ _ ↦ .pure _).deliver (fun _ ↦ .pure _) moment)
      engine ⟨hengine, .refl engine⟩).2
  constructor
  · exact between_prepare
      (hdeliver start.asked (ofLedger_hooksIn start _ rfl h.hooksIn) _ (.inl rfl))
  · intro bytes opened hprepare
    have hduring := during_prepare hturn dependent h
    rw [hprepare] at hduring
    have htracked := (hduring.hooksSpareQueue h).trackQueued start.tracker.nextId dependent
    exact hdeliver ((opened.trackQueued start.tracker.nextId dependent).sent bytes)
      (ofLedger_hooksIn (opened.trackQueued start.tracker.nextId dependent) _ rfl htracked.hooksIn)
      .bulkOut (.inr rfl)

/-- A run of initialization can be made between two calls if all hooks leave the queue alone. -/
theorem HooksSpareQueue.between_bringUp :
    start.Between ((Session.call .bringUp).exec start).2 := by
  have hturn (moment : Moment) : EngineM.Preserves
      (HooksInWith Hook.SparesQueue start.Between []) (Turn.application moment) :=
    Sustained.application (fun _ ↦ sustained_between) [] moment
  exact ((ofBetween_between start).perform hturn rfl (List.forall_mem_nil _) start
    ⟨h.hooksIn, .refl start⟩).2

end Spare

end Engine

/-- Callbacks that run while the application submits leave the stock alone. Those that run while it
initializes do so too, or else the run is as if the event thread ran them all. -/
def Event.LeavesStock {τ : Type} [Transport τ] (engine : Engine τ) : Event τ → Prop
  | .call (.submit dependent) => engine.Exclusive Turn.application dependent
  | .call .bringUp =>
      ((Session.call .bringUp).exec engine).2.stock = engine.stock ∨
        (Session.call .bringUp).exec engine = (Engine.perform Turn.waiting .bringUp).exec engine
  | _ => True

/-- While the application submits it holds the queue, and what happens while it initializes could
also happen between two calls about the queue, or else the run is as if the event thread ran all
callbacks. -/
def Event.LeavesRequests {τ : Type} [Transport τ] (engine : Engine τ) : Event τ → Prop
  | .call (.submit dependent) => engine.HoldsQueue Turn.application dependent
  | .call .bringUp =>
      engine.Between ((Session.call .bringUp).exec engine).2 ∨
        (Session.call .bringUp).exec engine = (Engine.perform Turn.waiting .bringUp).exec engine
  | _ => True

/-- The call about the queue that an event is, if it is one. -/
def Event.queueCall? {τ : Type} (engine : Engine τ) : Event τ → Option (QueueCall τ)
  | .call request => if request.handlesQueue then some { request, before := engine } else none
  | _ => none

/-- A call about the queue is made by the application, or by a callback of a set. If it is a
submission, it has the queue to itself. -/
structure QueueCall.Sound {τ : Type} [Transport τ] (allowed : Hook τ → Prop) (made : QueueCall τ) :
    Prop where
  handlesQueue : made.request.handlesQueue = true
  caller : ∀ hook ∈ made.caller, allowed hook ∧ made.request ∈ hook.followUp
  exclusive : ∀ dependent, made.request = .submit dependent →
    made.before.Exclusive made.turn dependent

namespace Engine

variable {τ : Type} [Transport τ] {engine last session : Engine τ} {allowed : Hook τ → Prop}
  {own calls : List (QueueCall τ)} {R : Engine τ → Engine τ → Prop}

/-- If no hook calls for the queue, the application holds it while it submits and initializes. -/
theorem HooksSpareQueue.leavesRequests (h : engine.HooksSpareQueue) (event : Event τ) :
    event.LeavesRequests engine := by
  unfold Event.LeavesRequests
  split
  next dependent => exact h.holdsQueue Turn.ordinary_application dependent
  next => exact .inl h.between_bringUp
  next => trivial

/-- Whoever leaves the requests alone leaves the stock alone. -/
theorem leavesStock_of_leavesRequests {event : Event τ} (h : event.LeavesRequests engine) :
    event.LeavesStock engine := by
  unfold Event.LeavesRequests at h
  unfold Event.LeavesStock
  split at h
  next => exact h.exclusive
  next => exact h.imp_left Between.stock
  next => trivial

/-- A session comes from one state to another in the course of calls about its queue, oldest first.
Between them its stock stays the same. -/
def Through (engine : Engine τ) : List (QueueCall τ) → Engine τ → Prop
  | [], last => last.stock = engine.stock
  | made :: calls, last => made.before.stock = engine.stock ∧ made.after.Through calls last

/-- Before each of the calls the session has come through those that precede it. -/
theorem Through.prefix {before later : List (QueueCall τ)} {made : QueueCall τ}
    (h : engine.Through (before ++ made :: later) last) : engine.Through before made.before := by
  induction before generalizing engine with
  | nil => exact h.1
  | cons first before ih => exact ⟨h.1, ih h.2⟩

/-- Before, between and after calls about the queue, oldest first, a relation holds. -/
def Linked (R : Engine τ → Engine τ → Prop) (engine : Engine τ) :
    List (QueueCall τ) → Engine τ → Prop
  | [], last => R engine last
  | made :: calls, last => R engine made.before ∧ made.after.Linked R calls last

/-- A relation between states of the same stock explains a history. -/
theorem Linked.through (h : engine.Linked R calls last)
    (hR : ∀ {before after}, R before after → after.stock = before.stock) :
    engine.Through calls last := by
  induction calls generalizing engine with
  | nil => exact hR h
  | cons made calls ih => exact ⟨hR h.1, ih h.2⟩

/-- The last of the calls is made where those before it have led. -/
theorem linked_concat {made : QueueCall τ} : engine.Linked R (calls ++ [made]) last ↔
    engine.Linked R calls made.before ∧ R made.after last := by
  induction calls generalizing engine with
  | nil => rfl
  | cons first calls ih => simp only [List.cons_append, Linked, ih, and_assoc]

/-- A relation that holds of states between which there is no call about the queue. -/
structure Lasting (R : Engine τ → Engine τ → Prop) : Prop where
  between : ∀ {before after}, before.Between after → R before after
  trans : ∀ {first second third}, R first second → R second third → R first third

omit [Transport τ] in
/-- What can happen between two calls lasts. -/
theorem lasting_between : Lasting (Between : Engine τ → Engine τ → Prop) :=
  ⟨id, Between.trans⟩

omit [Transport τ] in
/-- The same stock lasts until the next call about the queue. -/
theorem lasting_stock : Lasting fun before after : Engine τ ↦ after.stock = before.stock :=
  ⟨Between.stock, fun h hafter ↦ hafter.trans h⟩

/-- After the last call more may happen that lasts. -/
theorem Linked.then (h : engine.Linked R calls last) (hR : Lasting R) {other : Engine τ}
    (hother : R last other) : engine.Linked R calls other := by
  induction calls generalizing engine with
  | nil => exact hR.trans h hother
  | cons first calls ih => exact ⟨h.1, ih h.2⟩

/-- What lasts between two calls about the queue and is kept by each of some calls lasts over all of
them. -/
theorem Linked.preserves {P : Engine τ → Prop} (hP : OfBetween P)
    (h : engine.Linked Between calls last)
    (hcalls : ∀ made ∈ calls, P made.before → P made.after) (hengine : P engine) : P last := by
  induction calls generalizing engine with
  | nil => exact hP _ _ hengine h
  | cons made calls ih =>
      obtain ⟨hmade, hlater⟩ := List.forall_mem_cons.1 hcalls
      exact ih h.2 hlater (hmade (hP _ _ hengine h.1))

/-- The calls about the queue that the application makes in a history, oldest first. -/
def ownCalls (engine : Engine τ) : List (Event τ) → List (QueueCall τ)
  | [] => []
  | event :: events =>
      (event.queueCall? engine).toList ++ ((happen event).exec engine).2.ownCalls events

/-- The last event adds at most one call of the application. -/
theorem ownCalls_concat (engine : Engine τ) (events : List (Event τ)) (event : Event τ) :
    engine.ownCalls (events ++ [event]) =
      engine.ownCalls events ++ (event.queueCall? (engine.after events)).toList := by
  induction events generalizing engine with
  | nil => simp [ownCalls]
  | cons first events ih =>
      rw [List.cons_append, ownCalls, ih, ownCalls, List.append_assoc]
      rfl

/-- Calls about the queue, among them those of the application, in the course of which a session
has come into a state. -/
structure Explains (session : Engine τ) (allowed : Hook τ → Prop) (own calls : List (QueueCall τ))
    (engine : Engine τ) : Prop where
  own : calls.filter (·.caller.isNone) = own
  sound : ∀ made ∈ calls, made.Sound allowed
  through : session.Through calls engine

/-- If callbacks leave the queue alone, all calls about the queue are those of the application. -/
theorem Explains.eq_own (h : session.Explains allowed own calls engine)
    (hspares : ∀ hook, allowed hook → hook.SparesQueue) : calls = own := by
  rw [← h.own, List.filter_eq_self.2]
  intro made hmade
  have hsound := h.sound made hmade
  cases hcaller : made.caller with
  | none => rfl
  | some hook =>
      obtain ⟨hhook, hcall⟩ := hsound.caller hook hcaller
      obtain ⟨hcalls, -⟩ := hspares hook hhook
      cases (Call.handlesQueue_eq_false (hcalls _ hcall)).symm.trans hsound.handlesQueue

/-- Calls about the queue, as in `Explains`, except that before, between and after them any relation
may hold. -/
structure Recounted (R : Engine τ → Engine τ → Prop) (session : Engine τ) (allowed : Hook τ → Prop)
    (own calls : List (QueueCall τ)) (engine : Engine τ) : Prop where
  own : calls.filter (·.caller.isNone) = own
  sound : ∀ made ∈ calls, made.Sound allowed
  linked : session.Linked R calls engine

/-- Recounting calls about the queue explains the history, if the relation keeps the stock. -/
theorem Recounted.explains (h : session.Recounted R allowed own calls engine)
    (hR : ∀ {before after}, R before after → after.stock = before.stock) :
    session.Explains allowed own calls engine :=
  ⟨h.own, h.sound, h.linked.through hR⟩

/-- Calls that have been recounted are recounted until the next one is made. -/
theorem ofBetween_recounted (hR : Lasting R) : OfBetween fun engine : Engine τ ↦
    ∃ calls, session.Recounted R allowed own calls engine :=
  fun _ _ ⟨calls, h⟩ hbetween ↦
    ⟨calls, h.own, h.sound, h.linked.then hR (hR.between hbetween)⟩

/-- One more call about the queue. -/
theorem Recounted.concat (hR : Lasting R) (h : session.Recounted R allowed own calls engine)
    {made : QueueCall τ} (hmade : made.Sound allowed) (hbefore : made.before = engine) :
    session.Recounted R allowed (own ++ [made].filter (·.caller.isNone)) (calls ++ [made])
      made.after where
  own := by rw [List.filter_append, h.own]
  sound := by
    intro other hother
    rcases List.mem_append.1 hother with hmem | hmem
    · exact h.sound other hmem
    · exact List.mem_singleton.1 hmem ▸ hmade
  linked := linked_concat.2 ⟨hbefore ▸ h.linked, hR.between (.refl _)⟩

/-- While the event thread deals with completions, the calls about the queue are those of
callbacks. -/
theorem sustained_recounted (hR : Lasting R) (hclosed : HookClosed allowed) :
    Sustained (Turn.busy : Turn τ) (HooksInWith allowed fun engine ↦
      ∃ calls, session.Recounted R allowed own calls engine) := by
  refine sustained_hooksInWith (ofBetween_recounted hR).beside fun hook hhook call hcall hand ↦ ?_
  have hhooks := hclosed hook hhook call hcall
  by_cases hqueue : call.handlesQueue = false
  · exact (ofBetween_recounted hR).perform (fun _ ↦ .pure _) hqueue hhooks
  · rintro engine ⟨hengine, calls, hcalls⟩
    let made : QueueCall τ := { caller := hook, request := call, before := engine }
    have hmade : made.Sound allowed := by
      refine ⟨Bool.not_eq_false _ ▸ hqueue, ?_,
        fun dependent _ ↦ (holdsQueue_busy dependent engine).exclusive⟩
      rintro _ ⟨⟩
      exact ⟨hhook, hcall⟩
    refine ⟨hooksIn_perform (fun _ ↦ .pure _) hhooks engine hengine, calls ++ [made], ?_⟩
    have hconcat := hcalls.concat hR hmade rfl
    rwa [List.filter_cons_of_neg (by simp [made]), List.filter_nil, List.append_nil] at hconcat

/-- An event adds at most calls of callbacks and the call that it is itself. -/
theorem Recounted.happen (hR : Lasting R) (h : session.Recounted R allowed own calls engine)
    (hclosed : HookClosed allowed) (hengine : HooksIn allowed [] engine) {event : Event τ}
    (hhooks : ∀ hook ∈ event.hooks, allowed hook) (hstock : event.LeavesStock engine)
    (hbringUp : event = .call .bringUp → R engine ((Session.call .bringUp).exec engine).2 ∨
      (Session.call .bringUp).exec engine = (Engine.perform Turn.waiting .bringUp).exec engine) :
    ∃ calls, session.Recounted R allowed (own ++ (event.queueCall? engine).toList) calls
      ((Engine.happen event).exec engine).2 := by
  have hbusy : Sustained (Turn.busy : Turn τ) (HooksInWith allowed fun engine ↦
      ∃ calls, session.Recounted R allowed own calls engine) :=
    sustained_recounted hR hclosed
  have hsilent (hevent : event.queueCall? engine = none) (hafter :
      ∃ calls, session.Recounted R allowed own calls ((Engine.happen event).exec engine).2) :
      ∃ calls, session.Recounted R allowed (own ++ (event.queueCall? engine).toList) calls
        ((Engine.happen event).exec engine).2 := by
    rwa [hevent, Option.toList_none, List.append_nil]
  cases event with
  | completion completion =>
      exact hsilent rfl (hbusy.happen_completion completion engine ⟨hengine, calls, h⟩).2
  | failure => exact hsilent rfl (hbusy.happen_failure engine ⟨hengine, calls, h⟩).2
  | call request =>
      by_cases hqueue : request.handlesQueue = true
      · let made : QueueCall τ := { request, before := engine }
        have hmade : made.Sound allowed := by
          refine ⟨hqueue, by rintro _ ⟨⟩, ?_⟩
          rintro dependent rfl
          exact hstock
        have hevent : (Event.call request).queueCall? engine = some made := if_pos hqueue
        rw [hevent]
        exact ⟨calls ++ [made], h.concat hR hmade rfl⟩
      · refine hsilent (if_neg hqueue) ?_
        have hwaiting := (ofBetween_recounted hR).perform (hbusy.waiting [])
          (Bool.not_eq_true _ ▸ hqueue) hhooks engine ⟨hengine, calls, h⟩
        by_cases hrequest : request = .bringUp
        · obtain rfl := hrequest
          -- Initialization counts as between two calls, or is as if the event thread ran it.
          obtain hrelated | hsame := hbringUp rfl
          · exact ⟨calls, h.own, h.sound, h.linked.then hR hrelated⟩
          · rw [← hsame] at hwaiting
            exact hwaiting.2
        · rw [← perform_application hrequest] at hwaiting
          exact hwaiting.2

section History

variable {events : List (Event τ)} (hclosed : HookClosed allowed) (h : HooksIn allowed [] session)
  (hhooks : ∀ event ∈ events, ∀ hook ∈ event.hooks, allowed hook)

include hclosed h hhooks

/-- Every history consists of calls about the queue, those of the application and those of callbacks
in one order, and of what is within a relation that lasts between them. -/
theorem exists_recounted (hR : Lasting R)
    (hstock : ∀ before event later, events = before ++ event :: later →
      event.LeavesStock (session.after before))
    (hbringUp : ∀ before later, events = before ++ .call .bringUp :: later →
      R (session.after before) ((Session.call .bringUp).exec (session.after before)).2 ∨
        (Session.call .bringUp).exec (session.after before) =
          (Engine.perform Turn.waiting .bringUp).exec (session.after before)) :
    ∃ calls, session.Recounted R allowed (session.ownCalls events) calls
      (session.after events) := by
  refine after_induction (P := fun before engine ↦
    ∃ calls, session.Recounted R allowed (session.ownCalls before) calls engine) ?_ ?_
  · exact ⟨[], rfl, List.forall_mem_nil _, hR.between (.refl session)⟩
  · rintro before event later heq ⟨calls, hcalls⟩
    obtain ⟨hbefore, hevent⟩ := hooksIn_before hclosed h hhooks heq
    rw [ownCalls_concat]
    refine hcalls.happen hR hclosed hbefore hevent (hstock before event later heq) ?_
    rintro rfl
    exact hbringUp before later heq

/-- A history whose events leave the stock alone is explained by calls about the queue. -/
theorem exists_explains (hstock : ∀ before event later, events = before ++ event :: later →
      event.LeavesStock (session.after before)) :
    ∃ calls, session.Explains allowed (session.ownCalls events) calls (session.after events) := by
  obtain ⟨calls, hcalls⟩ := exists_recounted hclosed h hhooks lasting_stock hstock
    fun before later heq ↦ hstock before _ later heq
  exact ⟨calls, hcalls.explains id⟩

end History

end Engine

end I3cHost
