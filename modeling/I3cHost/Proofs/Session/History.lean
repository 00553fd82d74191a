import Mathlib.Data.List.Induction
import I3cHost.Proofs.Engine.Hooks
import I3cHost.Session

/-!
# Histories of a session

A history lists what happens to a session, oldest first. The application makes calls, during which
the transport hands out completions on its occasions, and the event thread deals with completions
between two calls. What every event of a history preserves holds after the history.
-/

namespace I3cHost

/-- Something that happens to a session. -/
inductive Event (τ : Type) where
  /-- The application makes a call. -/
  | call (request : Call (Hook τ) τ)
  /-- The event thread deals with a completion. -/
  | completion (completion : Completion)
  /-- Every request that waits is failed. -/
  | failure

/-- The hooks that an event brings. -/
def Event.hooks {τ : Type} : Event τ → List (Hook τ)
  | .call request => request.hooks
  | _ => []

namespace Engine

variable {τ : Type} {engine : Engine τ}

/-- A session that was just opened has done nothing yet. -/
theorem exists_of_ofTransport {transport : τ} {options : SessionOptions}
    (h : Session.ofTransport transport options = .ok engine) : ∃ table, engine =
      { transport, table
        settings := options.settings
        bringUp := { policy := options.policy }
        pipes := { bulkInPackets := options.bulkInPackets } } := by
  unfold Session.ofTransport at h
  cases htable : options.knownTargets.foldlM (·.insert ·) ({} : TargetTable) with
  | error error =>
      rw [htable] at h
      cases h
  | ok table =>
      rw [htable] at h
      exact ⟨table, (Except.ok.inj h).symm⟩

/-- In a session that was just opened nothing is queued, tracked or registered, and nothing has been
heard. -/
theorem ofTransport_eq_ok {transport : τ} {options : SessionOptions}
    (h : Session.ofTransport transport options = .ok engine) :
    engine.queue = {} ∧ engine.tracker = {} ∧ engine.vendorHook = none ∧ engine.answers = [] := by
  obtain ⟨table, rfl⟩ := exists_of_ofTransport h
  exact ⟨rfl, rfl, rfl, rfl⟩

/-- A session that was opened holds no hooks. -/
theorem hooksIn_ofTransport {transport : τ} {options : SessionOptions}
    (h : Session.ofTransport transport options = .ok engine) (allowed : Hook τ → Prop) :
    HooksIn allowed [] engine := by
  obtain ⟨hqueue, htracker, hvendor, -⟩ := ofTransport_eq_ok h
  constructor
  · simp [hqueue]
  · simp [htracker]
  · simp
  · simp [hvendor]

/-- The table of a session that was just opened was built by inserting the targets known
beforehand. -/
theorem table_ofTransport {transport : τ} {options : SessionOptions}
    (h : Session.ofTransport transport options = .ok engine) {P : TargetTable → Prop}
    (hempty : P {}) (hinsert : ∀ table device next, P table → table.insert device = .ok next →
      P next) : P engine.table := by
  have hknown (known : List TargetDevice) (before last : TargetTable) (hbefore : P before)
      (hlast : known.foldlM (·.insert ·) before = .ok last) : P last := by
    induction known generalizing before with
    | nil => exact Except.ok.inj hlast ▸ hbefore
    | cons device known ih =>
        rw [List.foldlM_cons] at hlast
        cases hnext : before.insert device with
        | error error =>
            rw [hnext] at hlast
            cases hlast
        | ok next =>
            rw [hnext] at hlast
            exact ih next (hinsert before device next hbefore hnext) hlast
  unfold Session.ofTransport at h
  cases htable : options.knownTargets.foldlM (·.insert ·) ({} : TargetTable) with
  | error error =>
      rw [htable] at h
      cases h
  | ok table =>
      rw [htable] at h
      cases h
      exact hknown _ _ _ hempty htable

variable [Transport τ]

/-- Lets an event happen. -/
def happen : Event τ → EngineM τ Unit
  | .call request => do
      let _ ← Session.call request
  | .completion completion => complete Turn.busy completion
  | .failure => failAll Turn.busy

/-- A call that initializes the device does nothing but a run. -/
theorem exec_happen_bringUp (engine : Engine τ) :
    ((happen (.call .bringUp)).exec engine).2 =
      ((runBringUp Turn.application).exec engine).2 :=
  congrArg Prod.snd (exec_settled (runBringUp Turn.application) engine)

/-- The state after a history. -/
def after (events : List (Event τ)) (engine : Engine τ) : Engine τ :=
  events.foldl (fun engine event ↦ ((happen event).exec engine).2) engine

variable {events : List (Event τ)}

/-- Before anything happens the session is as it was. -/
@[simp] theorem after_nil (engine : Engine τ) : engine.after [] = engine :=
  rfl

/-- A history may be taken in two portions. -/
theorem after_append (before later : List (Event τ)) (engine : Engine τ) :
    engine.after (before ++ later) = (engine.after before).after later :=
  List.foldl_append

/-- The last event happens in the state after all others. -/
theorem after_concat (events : List (Event τ)) (event : Event τ) (engine : Engine τ) :
    engine.after (events ++ [event]) = ((happen event).exec (engine.after events)).2 := by
  rw [after_append]
  rfl

/-- A property that every event of a history preserves, where it happens, holds after the
history. -/
theorem after_induction {P : List (Event τ) → Engine τ → Prop} (h : P [] engine)
    (hstep : ∀ before event later, events = before ++ event :: later →
      P before (engine.after before) →
      P (before ++ [event]) ((happen event).exec (engine.after before)).2) :
    P events (engine.after events) := by
  -- The induction is on how much of the history is over.
  have hover (before : List (Event τ)) : ∀ later, events = before ++ later →
      P before (engine.after before) := by
    induction before using List.reverseRecOn with
    | nil => exact fun _ _ ↦ h
    | append_singleton before event ih =>
        intro later hevents
        rw [List.append_assoc, List.singleton_append] at hevents
        rw [after_concat]
        exact hstep before event later hevents (ih _ hevents)
  exact hover events [] (List.append_nil events).symm

variable {P : List (TrackedRequest (Hook τ)) → Engine τ → Prop}

/-- While the event thread deals with a completion it is busy. -/
theorem Sustained.happen_completion (h : Sustained Turn.busy P) (completion : Completion) :
    EngineM.Preserves (P []) (happen (.completion completion)) :=
  h.complete (fun _ ↦ .pure _) completion

/-- Failing every request that waits is dealing with answers, and preserves what that does. -/
theorem Sustained.happen_failure (h : Sustained Turn.busy P) :
    EngineM.Preserves (P []) (happen (.failure : Event τ)) :=
  h.failAll

/-- All that happens outside initialization waits for the event thread only. -/
theorem perform_application {call : Call (Hook τ) τ} (h : call ≠ .bringUp) :
    perform Turn.application call = perform Turn.waiting call := by
  cases call with
  | bringUp => exact absurd rfl h
  | _ => rfl

/-- Whatever happens outside initialization, if what is asked of the state has nothing to do with
orders and transfers and survives initialization by the event thread. -/
theorem beside_happen {Q : Engine τ → Prop} (hQ : Beside Q) (horders : SparesOrders Q)
    (hsent : ∀ bytes engine, Q engine → Q (engine.sent bytes))
    (hbringUp : EngineOp.Preserves Q (runBringUp Turn.busy)) {event : Event τ}
    (hevent : event ≠ .call .bringUp) : EngineM.Preserves Q (happen event) := by
  have hbusy : Sustained Turn.busy fun _ ↦ Q :=
    sustained_beside hQ horders hsent (fun _ ↦ .pure _) hbringUp
  cases event with
  | call call =>
      have hcall : call ≠ .bringUp := fun heq ↦ hevent (congrArg Event.call heq)
      have hwaiting : EngineM.Preserves Q (perform Turn.waiting call) :=
        beside_perform hQ horders hsent (hbusy.waiting []) fun heq ↦ absurd heq hcall
      intro engine h
      show Q ((perform Turn.application call).exec engine).2
      rw [perform_application hcall]
      exact hwaiting engine h
  | completion completion => exact hbusy.happen_completion completion
  | failure => exact hbusy.happen_failure

/-- A permanent property that has nothing to do with orders, answers and transfers holds after every
history of a session in which it holds at the beginning. -/
theorem permanent_after {Q : Engine τ → Prop} (hQ : Permanent Q) (hbeside : Beside Q)
    (horders : SparesOrders Q) (hsent : ∀ bytes engine, Q engine → Q (engine.sent bytes))
    (h : Q engine) (events : List (Event τ)) : Q (engine.after events) := by
  have hbringUp (turn : Turn τ) (hturn : ∀ moment, EngineM.Preserves Q (turn moment)) :
      EngineOp.Preserves Q (runBringUp turn) :=
    hQ.runBringUp hturn (hQ.durable.startBulkIn hturn fun engine _ ↦
      hbeside.tracker engine _ (.of_requests rfl rfl))
  have hsustained (turn : Turn τ) (hturn : ∀ moment, EngineM.Preserves Q (turn moment)) :
      Sustained turn fun _ ↦ Q :=
    sustained_beside hbeside horders hsent hturn (hbringUp turn hturn)
  have happlication (moment : Moment) : EngineM.Preserves Q ((Turn.application : Turn τ) moment) :=
    Sustained.application (P := fun _ ↦ Q) (fun turn hturn ↦ hsustained turn (hturn [])) [] moment
  refine after_induction (P := fun _ ↦ Q) h fun before event later _ hbefore ↦ ?_
  by_cases hevent : event = .call .bringUp
  · rw [hevent, exec_happen_bringUp]
    exact hbringUp _ happlication _ hbefore
  · exact beside_happen hbeside horders hsent (hbringUp _ fun _ ↦ .pure _) hevent _ hbefore

omit [Transport τ] in
/-- Initialization keeps the table intact. -/
theorem permanent_integrity :
    Permanent fun engine : Engine τ ↦ TargetTable.Integrity engine.table.devices where
  durable := {
    stable before after hchange h := by
      cases hchange with
      | post event =>
          unfold Engine.post
          split <;> exact h
      | table operation => exact h.apply operation
      | _ => exact h
    step before after hstep h := by
      cases hstep with
      | mergeCapability buffer => exact h.apply (.mergeCapability buffer)
      | _ => exact h }
  post event engine h := by
    unfold Engine.post
    split <;> exact h
  role _ _ h := h
  events _ _ h := h
  progress _ _ _ h := h

/-- Whatever happens to a session, no two targets in its table share an address, all addresses have
seven bits, and no target is out of reach. -/
theorem integrity_after {transport : τ} {options : SessionOptions} {session : Engine τ}
    (h : Session.ofTransport transport options = .ok session) (events : List (Event τ)) :
    TargetTable.Integrity (session.after events).table.devices := by
  refine permanent_after permanent_integrity ⟨permanent_integrity.stable, fun _ _ _ ↦ id,
    fun _ _ ↦ id, fun _ _ _ ↦ id⟩ (fun _ _ _ ↦ id) (fun _ _ ↦ id) ?_ events
  exact table_ofTransport (P := fun table ↦ TargetTable.Integrity table.devices) h .nil
    fun _ _ _ htable ↦ htable.insert

variable {allowed : Hook τ → Prop}

section Hooks

variable (hclosed : HookClosed allowed) (h : HooksIn allowed [] engine)
  (hevents : ∀ event ∈ events, ∀ hook ∈ event.hooks, allowed hook)

include hclosed h hevents

/-- The hooks of a session stay within a set if all that come from outside belong to it. -/
theorem hooksIn_after : HooksIn allowed [] (engine.after events) := by
  have hsustained (turn : Turn τ) (hturn) : Sustained turn (HooksIn allowed) :=
    sustained_hooksIn hclosed hturn
  refine after_induction (P := fun _ ↦ HooksIn allowed []) h
    fun before event later heq hbefore ↦ ?_
  have hevent := hevents event (heq ▸ List.mem_append_right before List.mem_cons_self)
  have hbusy : Sustained Turn.busy (HooksIn allowed) := hsustained _ fun _ _ ↦ .pure _
  cases event with
  | call request => exact hooksIn_perform (Sustained.application hsustained []) hevent _ hbefore
  | completion completion => exact hbusy.happen_completion completion _ hbefore
  | failure => exact hbusy.happen_failure _ hbefore

/-- The hooks where an event happens, and those that it brings. -/
theorem hooksIn_before {before : List (Event τ)} {event : Event τ} {later : List (Event τ)}
    (heq : events = before ++ event :: later) :
    HooksIn allowed [] (engine.after before) ∧ ∀ hook ∈ event.hooks, allowed hook := by
  subst heq
  refine ⟨hooksIn_after hclosed h fun other hother ↦ ?_, ?_⟩
  · exact hevents other (List.mem_append_left _ hother)
  · exact hevents event (List.mem_append_right before List.mem_cons_self)

end Hooks

end Engine

/-- A command that reads one word. -/
def reader {τ : Type} : Command (Hook τ) where
  kind := .regular
  target := 8
  transfer := .read 4
  callback := some { label := "reader" }

/-- A device that has room for everything and accepts everything. Completions are handed out while
it is asked for room. -/
structure RoomyTransport where
  meanwhile : List Completion := []

instance : Transport RoomyTransport where
  maxPacketSize _ := 512
  controlIn _ _ _ := return .ok [255, 255, 255, 255]
  submitControlIn _ _ _ _ := return .ok ()
  controlOut _ _ _ := return .ok ()
  bulkOut data := return .ok data.length
  startBulkIn _ := return .ok ()
  startInterruptIn := return .ok ()
  next? moment transport :=
    match moment, transport.meanwhile with
    | .bufferQuery, completion :: others => some (completion, ⟨others⟩)
    | _, _ => none

/-- Such a device hands out nothing once it has handed out all that it had. -/
theorem RoomyTransport.next?_eq_none {transport : RoomyTransport}
    (h : transport.meanwhile = []) (moment : Moment) :
    Transport.next? moment transport = none := by
  obtain ⟨meanwhile⟩ := transport
  obtain rfl := h
  cases moment <;> rfl

end I3cHost
