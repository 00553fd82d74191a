import I3cHost.Proofs.BringUp.Controller
import I3cHost.Proofs.Session.History

/-!
# Which callback handles a vendor-specific transfer

A callback for vendor-specific transfers is taken out while it runs, and put back when it returns
unless another one has been registered meanwhile. Transfers may arrive, and anybody may register
another callback or none, at any time (`VendorStep`); callbacks that run inside each other return in
reverse order.

Put back is also a callback that was to be removed while it ran. So the callback that was registered
most recently handles the next transfer if it is not running, but a removal is in force only until a
callback returns that ran when it was made (`vendorHook_after`).
-/

namespace I3cHost

/-- What concerns the callback for vendor-specific transfers. -/
inductive VendorStep (τ : Type) where
  /-- Somebody makes a call, for instance a callback that runs. What arrives while the call waits is
  steps of its own. -/
  | call (request : Call (Hook τ) τ)
  /-- A transfer arrives, and the callback for it begins to run. -/
  | arrive (payload : Bytes)
  /-- The callback that began last returns. -/
  | finish

/-- A vendor-specific transfer that a notice reports, under the name of the callback that handled
it. -/
def Notice.vendor? : Notice → Option (String × Bytes)
  | .vendor label payload => some (label, payload)
  | _ => none

/-- A session, the callbacks for vendor-specific transfers that run, and what was registered. -/
structure VendorRun (τ : Type) where
  engine : Engine τ
  /-- What was registered most recently. -/
  latest : Option (Hook τ)
  /-- The callbacks that run and began since then, the last first. -/
  since : List (Hook τ) := []
  /-- The callbacks that run and began before that, the last first. -/
  before : List (Hook τ) := []
  /-- The first callback to return of those that began before. -/
  returned : Option (Hook τ) := none

namespace VendorRun

variable {τ : Type}

/-- Nothing runs yet. -/
def start (engine : Engine τ) : VendorRun τ where
  engine
  latest := engine.vendorHook

/-- The callbacks that run, the last first. -/
def running (run : VendorRun τ) : List (Hook τ) :=
  run.since ++ run.before

/-- A transfer arrives. -/
def arrive (payload : Bytes) (run : VendorRun τ) : VendorRun τ :=
  match Engine.takeVendorHook run.engine with
  | (some hook, engine) =>
      { run with
        engine := Engine.report (.vendor hook.label payload) engine
        since := hook :: run.since }
  | (none, engine) => { run with engine }

/-- The callback that began last returns, if any runs. -/
def finish (run : VendorRun τ) : VendorRun τ :=
  match run.since, run.before with
  | hook :: since, _ => { run with engine := Engine.restoreVendorHook hook run.engine, since }
  | [], hook :: before =>
      { run with
        engine := Engine.restoreVendorHook hook run.engine
        before, returned := run.returned.or (some hook) }
  | [], [] => run

variable [Transport τ]

/-- Somebody makes a call. -/
def call (request : Call (Hook τ) τ) (run : VendorRun τ) : VendorRun τ :=
  let engine := ((Engine.perform Turn.busy request).exec run.engine).2
  match request with
  | .onVendor callback => { engine, latest := callback, before := run.running }
  | _ => { run with engine }

/-- The run after a step. -/
def step (run : VendorRun τ) : VendorStep τ → VendorRun τ
  | .call request => run.call request
  | .arrive payload => run.arrive payload
  | .finish => run.finish

/-- The run after several steps. -/
def after (steps : List (VendorStep τ)) (run : VendorRun τ) : VendorRun τ :=
  steps.foldl step run

end VendorRun

namespace Engine

variable {τ : Type} [Transport τ]

/-- Only registering a callback for vendor-specific transfers changes which one there is. -/
theorem vendorHook_perform {request : Call (Hook τ) τ}
    (h : ∀ callback, request ≠ .onVendor callback) (engine : Engine τ) :
    ((perform Turn.busy request).exec engine).2.vendorHook = engine.vendorHook := by
  have hledger : OfLedger fun after : Engine τ ↦ after.vendorHook = engine.vendorHook :=
    fun _ _ hledger hbefore ↦ (congrArg (·.2.2.2) hledger).trans hbefore
  have hbusy (moment : Moment) :
      EngineM.Preserves (fun after : Engine τ ↦ after.vendorHook = engine.vendorHook)
        (Turn.busy moment) :=
    .pure _
  refine hledger.ofAccount.perform_cases hbusy rfl ?polling ?enqueue ?clear ?submit ?takeRetained
    ?onVendor
  case polling =>
    exact fun _ ↦ hledger.permanent.durable.startBulkIn hbusy fun _ _ hengine ↦ hengine
  case enqueue =>
    intro command copies _
    obtain ⟨accepted, -, heq, -⟩ := enqueueCopies_eq command copies engine
    rw [heq]
  case clear => exact fun _ ↦ rfl
  case submit =>
    intro dependent _
    exact hledger.permanent.stable.submit hbusy rfl (fun _ _ _ hopened ↦ hopened)
      (fun _ _ _ htracked ↦ htracked) (fun _ _ _ hafter ↦ hafter) fun _ _ _ hafter ↦ hafter
  case takeRetained =>
    intro id _
    unfold takeRetained
    split <;> rfl
  case onVendor => exact fun callback heq ↦ absurd heq (h callback)

variable {turn : Turn τ} {engine : Engine τ}

/-- Without a callback a vendor-specific transfer is dropped. -/
theorem exec_resolveVendor_of_none (h : engine.vendorHook = none) (payload : Bytes) :
    ((resolveVendor turn payload).exec engine).2 = engine := by
  simp only [resolveVendor, takeVendorHook, EngineM.exec_bind, EngineM.exec_modifyGet, h]
  cases engine
  cases h
  rfl

/-- A callback is taken out while it hears a transfer and makes its calls, and put back then. -/
theorem exec_resolveVendor_of_some {hook : Hook τ} (h : engine.vendorHook = some hook)
    (payload : Bytes) :
    ((resolveVendor turn payload).exec engine).2 = restoreVendorHook hook
      ((follow turn hook).exec
        (report (.vendor hook.label payload) { engine with vendorHook := none })).2 := by
  simp only [resolveVendor, takeVendorHook, EngineM.exec_bind, EngineM.exec_modifyGet, h]
  rfl

/-- A callback makes its calls, and at most reports what came of them. -/
theorem exec_follow (turn : Turn τ) (hook : Hook τ) (engine : Engine τ) :
    let called := ((hook.followUp.mapM (perform turn)).exec engine).2
    ((follow turn hook).exec engine).2 = called ∨
      ∃ outcomes, ((follow turn hook).exec engine).2 =
        report (.followUp hook.label outcomes) called := by
  unfold follow
  split
  next hempty =>
    rw [List.isEmpty_iff.1 hempty]
    exact .inl rfl
  next => exact .inr ⟨_, rfl⟩

end Engine

namespace VendorRun

variable {τ : Type} {run : VendorRun τ}

/-- Which callback there is follows from what was registered and which callbacks run: at most one of
those that run began since the latest registration, and only while it runs there is none. -/
inductive Settled (run : VendorRun τ) : Prop
  | resting (hsince : run.since = []) (hslot : run.engine.vendorHook = run.latest.or run.returned)
  | running (hook : Hook τ) (hsince : run.since = [hook]) (hslot : run.engine.vendorHook = none)
      (howner : run.latest.or run.returned = some hook)

/-- A transfer that nobody handles changes nothing. -/
theorem arrive_of_none (h : run.engine.vendorHook = none) (payload : Bytes) :
    run.arrive payload = run := by
  obtain ⟨engine, latest, since, before, returned⟩ := run
  cases engine
  cases h
  rfl

/-- The callback that handles a transfer begins to run, and is taken out. -/
theorem arrive_of_some {hook : Hook τ} (h : run.engine.vendorHook = some hook) (payload : Bytes) :
    run.arrive payload = { run with
      engine := Engine.report (.vendor hook.label payload) { run.engine with vendorHook := none }
      since := hook :: run.since } := by
  unfold arrive Engine.takeVendorHook
  rw [h]

/-- At the start nothing runs, and what is registered is in its place. -/
theorem settled_start (engine : Engine τ) : (start engine).Settled :=
  .resting rfl (Option.or_none).symm

/-- A callback that begins to run is the one that the latest registration calls for. -/
theorem Settled.arrive (h : run.Settled) (payload : Bytes) : (run.arrive payload).Settled := by
  cases hslot : run.engine.vendorHook with
  | none =>
      rw [arrive_of_none hslot]
      exact h
  | some hook =>
      rw [arrive_of_some hslot]
      cases h with
      | resting hsince howner =>
          exact .running hook (congrArg (hook :: ·) hsince) rfl (howner.symm.trans hslot)
      | running _ _ hnone => cases hnone.symm.trans hslot

/-- A callback that began since the latest registration was the one to be called, so it comes back.
One that began before comes back only if nothing is registered by now. -/
theorem Settled.finish (h : run.Settled) : run.finish.Settled := by
  unfold VendorRun.finish
  cases h with
  | resting hsince hslot =>
      rw [hsince]
      cases run.before with
      | nil => exact .resting hsince hslot
      | cons hook before =>
          refine .resting rfl ?_
          show run.engine.vendorHook.or (some hook) = run.latest.or (run.returned.or (some hook))
          rw [hslot, Option.or_assoc]
  | running hook hsince hslot howner =>
      rw [hsince]
      refine .resting rfl ?_
      show run.engine.vendorHook.or (some hook) = run.latest.or run.returned
      rw [hslot, howner, Option.none_or]

/-- The callback that began last is the one that returns. -/
theorem running_finish (run : VendorRun τ) : run.finish.running = run.running.tail := by
  obtain ⟨engine, latest, _ | ⟨_, _⟩, _ | ⟨_, _⟩, returned⟩ := run <;> rfl

/-- A callback that returns is put back, unless another one is there. -/
theorem engine_finish {hook : Hook τ} {others : List (Hook τ)}
    (h : run.running = hook :: others) :
    run.finish.engine = Engine.restoreVendorHook hook run.engine := by
  obtain ⟨engine, latest, _ | ⟨_, _⟩, _ | ⟨_, _⟩, returned⟩ := run <;> cases h <;> rfl

variable [Transport τ]

/-- Only a registration changes which callback there is, and the new one is there at once. -/
theorem Settled.call (h : run.Settled) (request : Call (Hook τ) τ) :
    (run.call request).Settled := by
  by_cases hregisters : ∃ callback, request = .onVendor callback
  · obtain ⟨callback, rfl⟩ := hregisters
    exact .resting rfl Option.or_none.symm
  · have hspares (callback : Option (Hook τ)) : request ≠ .onVendor callback :=
      fun heq ↦ hregisters ⟨callback, heq⟩
    have hslot := Engine.vendorHook_perform hspares run.engine
    unfold VendorRun.call
    split
    next callback => exact absurd rfl (hspares callback)
    next =>
      cases h with
      | resting hsince hrests => exact .resting hsince (hslot.trans hrests)
      | running hook hsince hruns howner => exact .running hook hsince (hslot.trans hruns) howner

/-- Whatever happens, which callback there is follows from what was registered and what runs. -/
theorem Settled.after (h : run.Settled) (steps : List (VendorStep τ)) :
    (run.after steps).Settled := by
  induction steps generalizing run with
  | nil => exact h
  | cons step steps ih =>
      refine ih ?_
      cases step with
      | call request => exact h.call request
      | arrive payload => exact h.arrive payload
      | finish => exact h.finish

/-- A call neither begins nor ends a callback; what arrives meanwhile is steps of its own. -/
@[simp] theorem running_call (request : Call (Hook τ) τ) (run : VendorRun τ) :
    (run.call request).running = run.running := by
  unfold call
  split <;> rfl

/-- Steps may be taken in two portions. -/
theorem after_append (first later : List (VendorStep τ)) (run : VendorRun τ) :
    run.after (first ++ later) = (run.after first).after later :=
  List.foldl_append

/-- While a callback makes its calls no other begins or returns. -/
theorem after_calls (requests : List (Call (Hook τ) τ)) (run : VendorRun τ) :
    (run.after (requests.map .call)).running = run.running ∧
      (run.after (requests.map .call)).engine =
        ((requests.mapM (Engine.perform Turn.busy)).exec run.engine).2 := by
  induction requests generalizing run with
  | nil => exact ⟨rfl, rfl⟩
  | cons request requests ih =>
      obtain ⟨hrunning, hengine⟩ := ih (run.call request)
      refine ⟨hrunning.trans (running_call request run), hengine.trans ?_⟩
      have hcalled : (run.call request).engine =
          ((Engine.perform Turn.busy request).exec run.engine).2 := by
        unfold call
        split <;> rfl
      rw [List.mapM_cons, hcalled]
      rfl

/-- What happens when a transfer is dealt with: the callback for it begins to run, makes its calls
and returns. -/
def handling (payload : Bytes) (run : VendorRun τ) : List (VendorStep τ) :=
  match run.engine.vendorHook with
  | none => [.arrive payload]
  | some hook => .arrive payload :: hook.followUp.map .call ++ [.finish]

/-- A session deals with a transfer in these steps. Besides it at most reports what came of the
calls of the callback. -/
theorem exec_dispatch (payload : Bytes) (run : VendorRun τ) :
    let handled := run.after (run.handling payload)
    let engine := ((Engine.dispatch Turn.busy (.vendorSpecific payload)).exec run.engine).2
    handled.running = run.running ∧ (engine = handled.engine ∨
      ∃ label outcomes, engine = Engine.report (.followUp label outcomes) handled.engine) := by
  simp only [Engine.dispatch, handling]
  cases hslot : run.engine.vendorHook with
  | none =>
      have hunchanged : run.after [.arrive payload] = run := arrive_of_none hslot payload
      dsimp only
      rw [hunchanged]
      exact ⟨rfl, .inl (Engine.exec_resolveVendor_of_none hslot payload)⟩
  | some hook =>
      have hbegun := arrive_of_some hslot payload
      have hrunning : (run.arrive payload).running = hook :: run.running := by
        rw [hbegun]
        rfl
      have hengine : (run.arrive payload).engine =
          Engine.report (.vendor hook.label payload) { run.engine with vendorHook := none } := by
        rw [hbegun]
      obtain ⟨hstill, hcalled⟩ := after_calls hook.followUp (run.arrive payload)
      -- When its calls are over the callback is still the one that began last.
      have hreturns := hstill.trans hrunning
      have hhandled : run.after (.arrive payload :: hook.followUp.map .call ++ [.finish]) =
          ((run.arrive payload).after (hook.followUp.map .call)).finish :=
        after_append _ _ _
      dsimp only
      rw [hhandled, engine_finish hreturns, hcalled, Engine.exec_resolveVendor_of_some hslot,
        ← hengine]
      refine ⟨(running_finish _).trans (congrArg List.tail hreturns), ?_⟩
      obtain hfollow | ⟨outcomes, hfollow⟩ :=
        Engine.exec_follow Turn.busy hook (run.arrive payload).engine
      · exact .inl (congrArg _ hfollow)
      · exact .inr ⟨hook.label, outcomes, congrArg _ hfollow⟩

/-- The latest registration decides who handles a transfer that arrives now: a callback unless it is
running, and a removal until a callback returns that ran when it was made, and again whenever that
callback runs. -/
def InForce (run : VendorRun τ) : Prop :=
  match run.latest with
  | some _ => run.since = []
  | none => run.returned = none ∨ run.since ≠ []

omit [Transport τ] in
/-- What was registered most recently is there exactly if it is in force. -/
theorem Settled.eq_latest_iff (h : run.Settled) :
    run.engine.vendorHook = run.latest ↔ run.InForce := by
  unfold InForce
  cases h with
  | resting hsince hslot =>
      rw [hslot, hsince]
      cases run.latest with
      | some hook => simp
      | none => simp
  | running hook hsince hslot howner =>
      rw [hslot, hsince]
      cases run.latest with
      | some hook => simp
      | none => simp

omit [Transport τ] in
/-- The callback that is there, read off what was registered and what runs. -/
theorem Settled.vendorHook_eq (h : run.Settled) : run.engine.vendorHook =
    if run.since.isEmpty then run.latest.or run.returned else none := by
  cases h with
  | resting hsince hslot => rw [hslot, hsince, List.isEmpty_nil, if_pos rfl]
  | running hook hsince hslot => rw [hslot, hsince]; rfl

omit [Transport τ] in
/-- A transfer is handled once when it arrives, if a callback for it is there. -/
theorem journal_arrive (payload : Bytes) (run : VendorRun τ) :
    (run.arrive payload).engine.journal.toList = run.engine.journal.toList ++
      run.engine.vendorHook.toList.map fun hook ↦ .vendor hook.label payload := by
  cases hslot : run.engine.vendorHook with
  | none =>
      rw [arrive_of_none hslot]
      exact (List.append_nil _).symm
  | some hook =>
      rw [arrive_of_some hslot]
      exact Array.toList_push

/-- Whatever is registered or removed, and by whom, while transfers arrive and callbacks run: a
transfer is handled by the callback that was registered most recently, or by none if that was
removed, exactly if this is in force. It is handled at once and once. This is how a session deals
with a transfer. -/
theorem handled_by_latest_iff (engine : Engine τ) (steps : List (VendorStep τ)) (payload : Bytes) :
    let run := (start engine).after steps
    (run.engine.vendorHook = run.latest ↔ run.InForce) ∧
      run.engine.vendorHook =
        (if run.since.isEmpty then run.latest.or run.returned else none) ∧
      (run.arrive payload).engine.journal.toList = run.engine.journal.toList ++
        run.engine.vendorHook.toList.map (fun hook ↦ .vendor hook.label payload) ∧
      let handled := run.after (run.handling payload)
      let dealt := ((Engine.dispatch Turn.busy (.vendorSpecific payload)).exec run.engine).2
      handled.running = run.running ∧ (dealt = handled.engine ∨
        ∃ label outcomes, dealt = Engine.report (.followUp label outcomes) handled.engine) := by
  intro run
  have hsettled : run.Settled := (settled_start engine).after steps
  exact ⟨hsettled.eq_latest_iff, hsettled.vendorHook_eq, journal_arrive payload run,
    exec_dispatch payload run⟩

/-- A callback that wants to be called once. -/
def once : Hook ScriptedTransport where
  label := "once"
  followUp := [.onVendor none]

/-- A transfer with a payload of one word. -/
def wordTransfer : TransportResult Bytes :=
  .ok [2, 0, 0, 0, 1, 2, 3, 4]

/-- A callback that is removed while it runs is there again when it returns, and handles the next
transfer too. -/
theorem handled_again_once :
    let removed := (start (Engine.opened {})).after
      [.call (.onVendor (some once)), .arrive [1, 2, 3, 4], .call (.onVendor none), .finish]
    let session := (Engine.opened (Engine.twoTargetDevice [Engine.capableReply]
      [Engine.busReply .success])).after [.call .bringUp, .call (.onVendor (some once)),
        .completion (.bulkIn wordTransfer), .completion (.bulkIn wordTransfer)]
    removed.latest = none ∧ removed.engine.vendorHook ≠ removed.latest ∧
      session.journal.toList.filterMap Notice.vendor? =
        [("once", [1, 2, 3, 4]), ("once", [1, 2, 3, 4])] :=
  ⟨rfl, nofun, by decide +kernel⟩

end VendorRun

end I3cHost
