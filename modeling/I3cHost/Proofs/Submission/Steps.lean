import I3cHost.Proofs.Engine.Stability

/-!
# How a submission proceeds

A submission first makes sure that it can be sent at all (`prepare`), which is where it leaves the
queue and the tracked requests alone. Then the requests are tracked, the transfer is made, and
its outcome decides whether they are withdrawn. `exec_submit` says so in one equation. So a property
that does not depend on the transport is preserved by a submission if tracking, the transfer,
concluding and withdrawing preserve it (`Stable.submit`).
-/

namespace I3cHost.Engine

variable {τ : Type} {engine : Engine τ} {dependent : Bool}

/-- While a batch is tracked its commands stay queued, without their callbacks. -/
theorem queue_trackQueued (first : UInt16) (dependent : Bool) (engine : Engine τ) :
    (engine.trackQueued first dependent).queue = (engine.queue.handOver first dependent).2 :=
  rfl

/-- The requests of a batch are tracked behind all others. -/
theorem tracker_trackQueued (first : UInt16) (dependent : Bool) (engine : Engine τ) :
    (engine.trackQueued first dependent).tracker =
      engine.tracker.track (engine.queue.handOver first dependent).1 :=
  rfl

/-- Withdrawing a batch returns callbacks to the commands that are queued. -/
theorem queue_withdrawQueued (first : UInt16) (engine : Engine τ) :
    (engine.withdrawQueued first).queue =
      engine.queue.takeBack first (engine.tracker.withdraw first engine.queue.size).1 :=
  rfl

/-- Withdrawing a batch takes back requests that wait under its identifiers. -/
theorem tracker_withdrawQueued (first : UInt16) (engine : Engine τ) :
    (engine.withdrawQueued first).tracker =
      (engine.tracker.withdraw first engine.queue.size).2 :=
  rfl

variable [Transport τ] {turn : Turn τ}

/-- The state right after the device has been asked for room, before anything else happens. -/
def asked (engine : Engine τ) : Engine τ :=
  (engine.call (.controlIn .getBufferAvailable 0 bufferAvailableLength)
    (Transport.controlIn .getBufferAvailable 0 bufferAvailableLength)).2

/-- Asking for room leaves the queue alone. -/
@[simp] theorem queue_asked (engine : Engine τ) : engine.asked.queue = engine.queue :=
  rfl

/-- Asking for room leaves the tracker alone. -/
@[simp] theorem tracker_asked (engine : Engine τ) : engine.asked.tracker = engine.tracker :=
  rfl

/-- Asking for room is one request for data. -/
@[simp] theorem trace_asked (engine : Engine τ) : engine.asked.trace =
    engine.trace.push (.controlIn .getBufferAvailable 0 bufferAvailableLength) :=
  rfl

/-- The room that the device reports. -/
def reportedRoom (engine : Engine τ) : HostResult UInt32 := do
  let data ← ((Transport.controlIn .getBufferAvailable 0 bufferAvailableLength).run
    engine.transport).1.mapError .transport
  HostResult.ofCodec (Record.read data 0)

/-- Whether the device reports enough room. -/
def roomFor (required : Nat) (engine : Engine τ) : HostResult Unit := do
  let available ← engine.reportedRoom
  if required > available.toNat then
    throw (.bufferUnavailable required available.toNat)

/-- The state right after a transfer has been made, before anything else happens. -/
def sent (bytes : Bytes) (engine : Engine τ) : Engine τ :=
  (engine.call (.bulkOut bytes) (Transport.bulkOut bytes)).2

/-- A transfer leaves the queue alone. -/
@[simp] theorem queue_sent (bytes : Bytes) (engine : Engine τ) :
    (engine.sent bytes).queue = engine.queue :=
  rfl

/-- A transfer leaves the tracker alone. -/
@[simp] theorem tracker_sent (bytes : Bytes) (engine : Engine τ) :
    (engine.sent bytes).tracker = engine.tracker :=
  rfl

/-- A transfer is one call, with all the bytes. -/
@[simp] theorem trace_sent (bytes : Bytes) (engine : Engine τ) :
    (engine.sent bytes).trace = engine.trace.push (.bulkOut bytes) :=
  rfl

/-- Whether the device accepts a transfer as a whole. -/
def acceptance (bytes : Bytes) (engine : Engine τ) : HostResult Unit := do
  let written ← ((Transport.bulkOut bytes).run engine.transport).1.mapError .transport
  if written ≠ bytes.length then
    throw (.protocol (.shortTransfer bytes.length written))

/-- Asking for room succeeds if the device reports enough of it. -/
theorem exec_ensureRoom (turn : Turn τ) (required : Nat) (engine : Engine τ) :
    (ensureRoom turn required).exec engine =
      (engine.roomFor required, ((turn .bufferQuery).exec engine.asked).2) := by
  unfold ensureRoom bufferAvailable roomFor reportedRoom
  simp only [EngineOp.exec_bind, EngineOp.exec_controlIn, call, asked]
  rcases (Transport.controlIn .getBufferAvailable 0 bufferAvailableLength).run engine.transport
    with ⟨error | data, transport⟩
  · rfl
  · simp only [mapError_transport_ok, EngineOp.exec_ofResult, bind, Except.bind]
    rcases HostResult.ofCodec (Record.read data 0 : CodecResult UInt32) with error | available
    · rfl
    · simp only [EngineOp.exec_pure]
      split <;> rfl

/-- Writing a request succeeds if the device accepts the transfer as a whole. -/
theorem exec_writeRequest (turn : Turn τ) (bytes : Bytes) (engine : Engine τ) :
    (writeRequest turn bytes).exec engine =
      (engine.acceptance bytes, ((turn .bulkOut).exec (engine.sent bytes)).2) := by
  unfold writeRequest acceptance
  simp only [EngineOp.exec_bind, EngineOp.exec_bulkOut, call, sent]
  rcases (Transport.bulkOut bytes).run engine.transport with ⟨error | written, transport⟩
  · rfl
  · simp only [mapError_transport_ok, bind, Except.bind]
    split <;> rfl

/-- Makes sure that the queued commands can be sent, and returns the request that carries them. -/
def prepare (turn : Turn τ) (dependent : Bool) : EngineOp τ Bytes := do
  let engine ← get
  ofResult (ensureSendable engine.queue)
  ofResult engine.tracker.ensureReceiving
  let bytes ← ofResult
    (.ofCodec (Message.toBytes (engine.queue.request engine.tracker.nextId dependent)))
  ensureRoom turn bytes.length
  return bytes

/-- The queued commands can be sent, answers to them can arrive, and these bytes carry them. -/
structure Ready (engine : Engine τ) (dependent : Bool) (bytes : Bytes) : Prop where
  sendable : ensureSendable engine.queue = .ok ()
  receiving : engine.tracker.ensureReceiving = .ok ()
  written : Message.toBytes (engine.queue.request engine.tracker.nextId dependent) = .ok bytes

omit [Transport τ] in
/-- Only a session that receives answers is ready to send. -/
theorem Ready.isReceiving {bytes : Bytes} (h : engine.Ready dependent bytes) :
    engine.tracker.receiving = true := by
  have hensured := h.receiving
  unfold Tracker.ensureReceiving at hensured
  split at hensured
  next hreceiving => exact hreceiving
  next => cases hensured

/-- Whether there is room decides the rest, and nothing but what happens while the device is asked
for it precedes the transfer. -/
theorem Ready.exec_prepare {bytes : Bytes} (h : engine.Ready dependent bytes) (turn : Turn τ) :
    (prepare turn dependent).exec engine =
      ((engine.roomFor bytes.length).map fun _ ↦ bytes,
        ((turn .bufferQuery).exec engine.asked).2) := by
  unfold prepare
  simp only [EngineOp.exec_bind, EngineOp.exec_get, EngineOp.exec_ofResult, exec_ensureRoom,
    EngineOp.exec_pure, h.sendable, h.receiving, h.written, HostResult.ofCodec_ok]
  rcases engine.roomFor bytes.length with error | ⟨⟩ <;> rfl

/-- A submission that is not ready fails before anything has been asked of the device. -/
theorem exec_prepare_cases (turn : Turn τ) (dependent : Bool) (engine : Engine τ) :
    (∃ error, (prepare turn dependent).exec engine = (.error error, engine)) ∨
      ∃ bytes, engine.Ready dependent bytes := by
  unfold prepare
  simp only [EngineOp.exec_bind, EngineOp.exec_get, EngineOp.exec_ofResult]
  rcases hsendable : ensureSendable engine.queue with error | ⟨⟩
  · exact .inl ⟨error, rfl⟩
  rcases hreceiving : engine.tracker.ensureReceiving with error | ⟨⟩
  · exact .inl ⟨error, rfl⟩
  rcases hwritten : Message.toBytes (engine.queue.request engine.tracker.nextId dependent)
    with error | bytes
  · exact .inl ⟨_, rfl⟩
  · exact .inr ⟨bytes, hsendable, hreceiving, hwritten⟩

/-- A transfer is made only of what is ready. -/
theorem ready_of_exec_prepare {opened : Engine τ} {bytes : Bytes}
    (h : (prepare turn dependent).exec engine = (.ok bytes, opened)) :
    engine.Ready dependent bytes := by
  rcases exec_prepare_cases turn dependent engine with ⟨error, hprepare⟩ | ⟨written, hready⟩
  · rw [hprepare] at h
    cases h
  · rw [hready.exec_prepare] at h
    obtain ⟨hbytes, -⟩ := Prod.mk.inj h
    rcases hroom : engine.roomFor written.length with error | ⟨⟩
    · rw [hroom] at hbytes
      cases hbytes
    · rw [hroom] at hbytes
      cases hbytes
      exact hready

/-- The state in which the requests are tracked and the transfer is over. -/
def transferred (turn : Turn τ) (first : UInt16) (dependent : Bool) (bytes : Bytes)
    (engine : Engine τ) : Engine τ :=
  ((turn .bulkOut).exec ((engine.trackQueued first dependent).sent bytes)).2

/-- A submission prepares a request, tracks its commands and makes the transfer. If the device
accepts it the commands leave the queue, and otherwise they are withdrawn. -/
theorem exec_submit (turn : Turn τ) (dependent : Bool) (engine : Engine τ) :
    (submit turn dependent).exec engine =
      match (prepare turn dependent).exec engine with
      | (.error error, after) => (.error error, after)
      | (.ok bytes, opened) =>
          let first := engine.tracker.nextId
          match (opened.trackQueued first dependent).acceptance bytes with
          | .ok () =>
              (.ok (engine.queue.ids first),
                (opened.transferred turn first dependent bytes).concludeQueued)
          | .error error =>
              (.error error,
                (opened.transferred turn first dependent bytes).withdrawQueued first) := by
  unfold submit prepare transferred
  simp only [EngineOp.exec_bind, EngineOp.exec_get, EngineOp.exec_ofResult, exec_ensureRoom,
    EngineOp.exec_pure]
  rcases ensureSendable engine.queue with error | ⟨⟩
  · rfl
  rcases engine.tracker.ensureReceiving with error | ⟨⟩
  · rfl
  rcases HostResult.ofCodec (Message.toBytes (engine.queue.request engine.tracker.nextId dependent))
    with error | bytes
  · rfl
  simp only
  rcases engine.roomFor bytes.length with error | ⟨⟩
  · rfl
  simp only [EngineOp.exec_modify, EngineOp.exec_tryCatch, exec_writeRequest]
  rcases (trackQueued engine.tracker.nextId dependent
    ((turn .bufferQuery).exec engine.asked).2).acceptance bytes with error | ⟨⟩ <;> rfl

/-- How a submission can end. -/
theorem exec_submit_cases (turn : Turn τ) (dependent : Bool) (engine : Engine τ) :
    (∃ error after, (prepare turn dependent).exec engine = (.error error, after) ∧
      (submit turn dependent).exec engine = (.error error, after)) ∨
    ∃ bytes opened, (prepare turn dependent).exec engine = (.ok bytes, opened) ∧
      ((submit turn dependent).exec engine = (.ok (engine.queue.ids engine.tracker.nextId),
          (opened.transferred turn engine.tracker.nextId dependent bytes).concludeQueued) ∨
        ∃ error, (submit turn dependent).exec engine = (.error error,
          (opened.transferred turn engine.tracker.nextId dependent bytes).withdrawQueued
            engine.tracker.nextId)) := by
  have hsubmit := exec_submit turn dependent engine
  rcases hprepare : (prepare turn dependent).exec engine with ⟨error | bytes, opened⟩
  · rw [hprepare] at hsubmit
    exact .inl ⟨error, opened, rfl, hsubmit⟩
  · rw [hprepare] at hsubmit
    refine .inr ⟨bytes, opened, rfl, ?_⟩
    dsimp only at hsubmit
    split at hsubmit
    next => exact .inl hsubmit
    next error _ => exact .inr ⟨error, hsubmit⟩

namespace Stable

variable {P : Engine τ → Prop} (hP : Stable P)
  (hturn : ∀ moment, EngineM.Preserves P (turn moment))

include hP hturn

/-- Preparing a submission at most asks the device for room. -/
theorem prepare (dependent : Bool) : EngineOp.Preserves P (Engine.prepare turn dependent) :=
  .bind .get fun _ ↦ .bind (.ofResult _) fun _ ↦ .bind (.ofResult _) fun _ ↦
    .bind (.ofResult _) fun _ ↦ .bind (hP.ensureRoom hturn _) fun _ ↦ .pure _

/-- A submission, as far as tracking, the transfer, concluding and withdrawing go well. -/
theorem submit (h : P engine)
    (htrack : ∀ bytes opened, (Engine.prepare turn dependent).exec engine = (.ok bytes, opened) →
      P opened → P (opened.trackQueued engine.tracker.nextId dependent))
    (hsend : ∀ bytes opened, (Engine.prepare turn dependent).exec engine = (.ok bytes, opened) →
      P (opened.trackQueued engine.tracker.nextId dependent) →
      P ((opened.trackQueued engine.tracker.nextId dependent).sent bytes))
    (hconclude : ∀ bytes opened,
      (Engine.prepare turn dependent).exec engine = (.ok bytes, opened) →
      P (opened.transferred turn engine.tracker.nextId dependent bytes) →
      P (opened.transferred turn engine.tracker.nextId dependent bytes).concludeQueued)
    (hwithdraw : ∀ bytes opened,
      (Engine.prepare turn dependent).exec engine = (.ok bytes, opened) →
      P (opened.transferred turn engine.tracker.nextId dependent bytes) →
      P ((opened.transferred turn engine.tracker.nextId dependent bytes).withdrawQueued
        engine.tracker.nextId)) :
    P ((Engine.submit turn dependent).exec engine).2 := by
  have hprepared : P ((Engine.prepare turn dependent).exec engine).2 :=
    hP.prepare hturn dependent engine h
  obtain ⟨error, after, hprepare, hsubmit⟩ | ⟨bytes, opened, hprepare, hsubmit⟩ :=
    exec_submit_cases turn dependent engine
  · rw [hprepare] at hprepared
    rwa [hsubmit]
  · rw [hprepare] at hprepared
    have htracked := htrack bytes opened hprepare hprepared
    have htransferred : P (opened.transferred turn engine.tracker.nextId dependent bytes) :=
      hturn _ _ (hsend bytes opened hprepare htracked)
    obtain hsubmit | ⟨error, hsubmit⟩ := hsubmit
    · rw [hsubmit]
      exact hconclude bytes opened hprepare htransferred
    · rw [hsubmit]
      exact hwithdraw bytes opened hprepare htransferred

end Stable

end I3cHost.Engine
