import I3cHost.Proofs.Command.Block
import I3cHost.Proofs.Command.Queue
import I3cHost.Proofs.Engine.Delivery
import I3cHost.Proofs.Submission.Steps
import I3cHost.Transport.Scripted

/-!
# Submissions that nothing interferes with

If the transport hands out no completion while a request is being sent, a submission either
succeeds, and then device and tracker agree about every command, or it fails and leaves queue and
tracker exactly as they were.
-/

namespace I3cHost.Engine

variable {τ : Type} {engine after : Engine τ} {dependent : Bool}

/-- A queue can be sent if there is something in it and every command has a callback. -/
theorem ensureSendable_eq_ok_iff {queue : CommandQueue (Hook τ)} :
    ensureSendable queue = .ok () ↔ queue.isEmpty = false ∧ queue.HoldsCallbacks := by
  unfold ensureSendable
  rw [← CommandQueue.withoutCallback?_eq_none_iff]
  cases queue.isEmpty <;> cases queue.withoutCallback? <;> simp

/-- The blocks that carry the queued commands. -/
def blocks (engine : Engine τ) (dependent : Bool) : List CommandBlock :=
  (engine.queue.commands.mapIdx fun index command ↦
    command.block (CommandQueue.idAt engine.tracker.nextId index)
      (CommandQueue.dependentAt dependent index)).toList

/-- There is one block for each command. -/
theorem length_blocks (engine : Engine τ) (dependent : Bool) :
    (engine.blocks dependent).length = engine.queue.size := by
  simp [blocks, CommandQueue.size]

/-- The block at a position carries the command at that position. -/
theorem getElem?_blocks {index : Nat} {command : Command (Hook τ)}
    (h : engine.queue.commands[index]? = some command) :
    (engine.blocks dependent)[index]? = some (command.block
      (CommandQueue.idAt engine.tracker.nextId index)
      (CommandQueue.dependentAt dependent index)) := by
  simp [blocks, h]

/-- The identifiers of a submission are those of its blocks. -/
theorem ids_eq_map_blocks (engine : Engine τ) (dependent : Bool) :
    engine.queue.ids engine.tracker.nextId = (engine.blocks dependent).map (·.id) := by
  apply List.ext_getElem?
  intro index
  simp only [CommandQueue.ids, blocks, List.getElem?_map, Array.getElem?_toList,
    Array.getElem?_mapIdx, CommandQueue.size]
  by_cases hindex : index < engine.queue.commands.size
  · simp [hindex, Command.block]
  · simp [hindex]

/-- The blocks of commands that nothing is wrong with are coherent. -/
theorem coherent_blocks (h : ∀ command ∈ engine.queue.commands, command.fault? = none)
    (dependent : Bool) :
    ∀ block ∈ engine.blocks dependent, block.Coherent := by
  intro block hblock
  obtain ⟨index, hindex, rfl⟩ := Array.mem_mapIdx.1 (Array.mem_toList_iff.1 hblock)
  exact Command.coherent_block (h _ (Array.getElem_mem hindex))

/-- Commands that nothing is wrong with are sent as the layout of their blocks. -/
theorem toBytes_request (h : ∀ command ∈ engine.queue.commands, command.fault? = none)
    (dependent : Bool) :
    Message.toBytes (engine.queue.request engine.tracker.nextId dependent) =
      .ok (BulkRequest.layout (engine.blocks dependent)) :=
  BulkRequest.toBytes_regular (coherent_blocks h dependent)

/-- What a successful submission has done: the device was sent one request in which block by block
the commands are carried in order, and the same blocks are tracked with the callbacks. -/
structure Accepted (before : Engine τ) (dependent : Bool) (ids : List UInt16) (after : Engine τ)
    (blocks : List CommandBlock) : Prop where
  /-- There is one block for each command. -/
  size : blocks.length = before.queue.size
  identifiers : ids = blocks.map (·.id)
  /-- The blocks carry the commands in order, under consecutive identifiers that wrap around. -/
  commands : ∀ (index : Nat) (command : Command (Hook τ)),
    before.queue.commands[index]? = some command → ∃ block : CommandBlock,
      blocks[index]? = some block ∧
      block.id.toNat = (before.tracker.nextId.toNat + index) % 65536 ∧
      block.dependent = (decide (0 < index) || dependent) ∧ block.Carries command
  /-- The device was asked for room once, and then exactly one transfer was made. -/
  transfer : ∃ bytes, BulkRequest.decode bytes = .ok (.regular blocks) ∧
    after.trace = before.trace ++
      #[.controlIn .getBufferAvailable 0 bufferAvailableLength, .bulkOut bytes]
  /-- For each block one request that waits is tracked behind all others. -/
  tracked : ∃ requests : Array (TrackedRequest (Hook τ)),
    after.tracker.requests = before.tracker.requests ++ requests ∧
    requests.size = blocks.length ∧
    ∀ (index : Nat) (command : Command (Hook τ)) (block : CommandBlock),
      before.queue.commands[index]? = some command → blocks[index]? = some block →
        ∃ request : TrackedRequest (Hook τ), requests[index]? = some request ∧
          request.id = block.id ∧ request.dependent = block.dependent ∧
          command.callback = some request.callback ∧ request.response = none
  nextId : after.tracker.nextId.toNat = (before.tracker.nextId.toNat + blocks.length) % 65536
  queue : after.queue.commands = #[]

variable [Transport τ] {turn : Turn τ}

/-- The transport hands out nothing while the queued commands are being sent. -/
structure Undisturbed (engine : Engine τ) (dependent : Bool) : Prop where
  query : Transport.next? .bufferQuery engine.asked.transport = none
  transfer : ∀ bytes,
    Message.toBytes (engine.queue.request engine.tracker.nextId dependent) = .ok bytes →
      Transport.next? .bulkOut (engine.asked.sent bytes).transport = none

/-- The device reports enough room for the queued commands, and accepts them as a whole. -/
def Accepting (engine : Engine τ) (dependent : Bool) : Prop :=
  ∀ bytes, Message.toBytes (engine.queue.request engine.tracker.nextId dependent) = .ok bytes →
    engine.roomFor bytes.length = .ok () ∧ engine.asked.acceptance bytes = .ok ()

/-- The state after an undisturbed transfer of the queued commands. -/
def handedOver (engine : Engine τ) (dependent : Bool) (bytes : Bytes) : Engine τ :=
  (engine.asked.trackQueued engine.tracker.nextId dependent).sent bytes

/-- After the transfer the commands are still queued, without their callbacks. -/
theorem queue_handedOver (engine : Engine τ) (dependent : Bool) (bytes : Bytes) :
    (engine.handedOver dependent bytes).queue =
      (engine.queue.handOver engine.tracker.nextId dependent).2 :=
  rfl

/-- After the transfer the requests of the batch are tracked. -/
theorem tracker_handedOver (engine : Engine τ) (dependent : Bool) (bytes : Bytes) :
    (engine.handedOver dependent bytes).tracker =
      engine.tracker.track (engine.queue.handOver engine.tracker.nextId dependent).1 :=
  rfl

/-- The device is asked for room, and then one transfer is made. -/
theorem trace_handedOver (engine : Engine τ) (dependent : Bool) (bytes : Bytes) :
    (engine.handedOver dependent bytes).trace = engine.trace ++
      #[.controlIn .getBufferAvailable 0 bufferAvailableLength, .bulkOut bytes] := by
  apply Array.toList_inj.1
  simp [handedOver, trackQueued]

/-- An undisturbed submission that is ready asks for room, and makes the transfer if there is
enough. -/
theorem Ready.exec_submit {bytes : Bytes} (h : engine.Ready dependent bytes)
    (hturn : turn.Ordinary) (hundisturbed : engine.Undisturbed dependent) :
    (submit turn dependent).exec engine =
      match engine.roomFor bytes.length, engine.asked.acceptance bytes with
      | .error error, _ => (.error error, engine.asked)
      | .ok (), .ok () => (.ok (engine.queue.ids engine.tracker.nextId),
          (engine.handedOver dependent bytes).concludeQueued)
      | .ok (), .error error => (.error error,
          (engine.handedOver dependent bytes).withdrawQueued engine.tracker.nextId) := by
  have hquery : ((turn .bufferQuery).exec engine.asked).2 = engine.asked :=
    hturn.idle (.inl rfl) hundisturbed.query
  have htransfer : engine.asked.transferred turn engine.tracker.nextId dependent bytes =
      engine.handedOver dependent bytes :=
    hturn.idle (.inr rfl) (hundisturbed.transfer bytes h.written)
  -- Tracking the requests is nothing that the device could notice.
  have hacceptance : (engine.asked.trackQueued engine.tracker.nextId dependent).acceptance bytes =
      engine.asked.acceptance bytes := rfl
  rw [Engine.exec_submit, h.exec_prepare, hquery]
  rcases engine.roomFor bytes.length with error | ⟨⟩
  · rfl
  · simp only [Except.map, htransfer, hacceptance]
    rcases engine.asked.acceptance bytes with error | ⟨⟩ <;> rfl

/-- The transfer of a queue that was built, if it is accepted. -/
theorem accepted_concludeQueued (hbuilt : engine.queue.Built)
    (hcallbacks : engine.queue.HoldsCallbacks) (dependent : Bool) :
    engine.Accepted dependent (engine.queue.ids engine.tracker.nextId)
      (engine.handedOver dependent
        (BulkRequest.layout (engine.blocks dependent))).concludeQueued
      (engine.blocks dependent) := by
  constructor
  case size => exact engine.length_blocks dependent
  case identifiers => exact engine.ids_eq_map_blocks dependent
  case commands =>
    intro index command hcommand
    have hfault := hbuilt.fault?_eq_none command (Array.mem_of_getElem? hcommand)
    refine ⟨_, getElem?_blocks hcommand, CommandQueue.toNat_idAt _ _, ?_,
      Command.carries_block hfault⟩
    cases index <;> rfl
  case transfer =>
    exact ⟨_, BulkRequest.decode_layout (coherent_blocks hbuilt.fault?_eq_none dependent),
      engine.trace_handedOver dependent _⟩
  case tracked =>
    refine ⟨(engine.queue.handOver engine.tracker.nextId dependent).1, rfl, ?_, ?_⟩
    · rw [CommandQueue.size_handOver hcallbacks, length_blocks]
    · intro index command block hcommand hblock
      obtain ⟨callback, hcallback⟩ := hcallbacks.exists_callback hcommand
      obtain rfl := Option.some.inj (hblock.symm.trans (getElem?_blocks hcommand))
      refine ⟨CommandQueue.requestAt _ dependent index callback, ?_, rfl, rfl, hcallback, rfl⟩
      simp [CommandQueue.getElem?_handOver hcallbacks, hcommand, hcallback]
  case nextId =>
    rw [length_blocks]
    simp [concludeQueued, handedOver, trackQueued, Tracker.advance, Tracker.track,
      CommandQueue.handOver, CommandQueue.size, UInt16.toNat_add]
  case queue => rfl

/-- A submission of a queue that was built and holds all callbacks succeeds whenever the transport
does, and then device and tracker agree on what was sent. -/
theorem submit_accepted (hturn : turn.Ordinary) (hbuilt : engine.queue.Built)
    (hcallbacks : engine.queue.HoldsCallbacks) (hreceiving : engine.tracker.receiving = true)
    (hundisturbed : engine.Undisturbed dependent) (haccepting : engine.Accepting dependent) :
    ∃ ids after blocks, (submit turn dependent).exec engine = (.ok ids, after) ∧
      engine.Accepted dependent ids after blocks := by
  have hsendable : ensureSendable engine.queue = .ok () :=
    ensureSendable_eq_ok_iff.2 ⟨hbuilt.isEmpty_eq_false, hcallbacks⟩
  have hready : engine.Ready dependent (BulkRequest.layout (engine.blocks dependent)) :=
    ⟨hsendable, by rw [Tracker.ensureReceiving, if_pos hreceiving],
      toBytes_request hbuilt.fault?_eq_none dependent⟩
  obtain ⟨hroom, hacceptance⟩ := haccepting _ hready.written
  refine ⟨_, _, _, ?_, accepted_concludeQueued hbuilt hcallbacks dependent⟩
  rw [hready.exec_submit hturn hundisturbed, hroom, hacceptance]

/-- A callback that keeps every answer. -/
def keeper (label : String) : Hook ScriptedTransport where
  label
  keep := fun _ ↦ true

/-- A session in which a write, a read, a reset action and a reset pattern wait to be sent under
the last identifier and the first three. One older request still waits, and the answer to another
was kept under an identifier that is about to be used again. -/
def wrappingBatch (replies : List BulkOutReply) : Engine ScriptedTransport where
  transport :=
    { control := fun _ ↦ [{ data := some [0, 16, 0, 0] }]
      bulkOut := replies }
  tracker :=
    { nextId := 65535
      requests := #[
        { id := 7, dependent := false, callback := keeper "older" },
        { id := 0, dependent := true, callback := keeper "kept",
          response := some
            { id := 0, attempted := true, status := .success, hasData := false, data := [] } }]
      receiving := true }
  queue := ⟨#[
    { kind := .regular, target := 8, transfer := .write [1, 2, 3]
      callback := some (keeper "writer") },
    { kind := .regular, target := 8, transfer := .read 4, callback := some (keeper "reader") },
    { kind := .cccWithDefiningByte resetActionDirect 1, target := 8, transfer := .write []
      errorHandling := .doNotTerminateIncludingNack, callback := some (keeper "action") },
    { kind := .targetResetPattern, target := broadcastAddress, transfer := .write []
      callback := some (keeper "pattern") }]⟩
  pipes := { bulkInAttached := true }

/-- Every command of the batch is allowed where it stands. -/
theorem built_wrappingBatch (replies : List BulkOutReply) : (wrappingBatch replies).queue.Built :=
  .next (.next (.next (.first (CommandQueue.push_eq_ok_iff.2 ⟨rfl, rfl⟩))
    (CommandQueue.push_eq_ok_iff.2 ⟨rfl, rfl⟩)) (CommandQueue.push_eq_ok_iff.2 ⟨rfl, rfl⟩))
    (CommandQueue.push_eq_ok_iff.2 ⟨rfl, rfl⟩)

/-- Every command of the batch has a callback. -/
theorem holdsCallbacks_wrappingBatch (replies : List BulkOutReply) :
    (wrappingBatch replies).queue.HoldsCallbacks := by
  simp [wrappingBatch, CommandQueue.HoldsCallbacks]

/-- The batch is sent in one transfer, under identifiers that wrap around. -/
theorem accepted_wrappingBatch : ∃ after blocks,
    (submit Turn.application true).exec (wrappingBatch []) = (.ok [65535, 0, 1, 2], after) ∧
      (wrappingBatch []).Accepted true [65535, 0, 1, 2] after blocks := by
  have hbuilt := built_wrappingBatch []
  have hundisturbed : (wrappingBatch []).Undisturbed true := ⟨rfl, fun _ _ ↦ rfl⟩
  have haccepting : (wrappingBatch []).Accepting true := by
    intro bytes hbytes
    have hwritten := toBytes_request hbuilt.fault?_eq_none true
    obtain rfl := Except.ok.inj (hwritten.symm.trans hbytes)
    exact ⟨rfl, rfl⟩
  obtain ⟨ids, after, blocks, hsubmit, haccepted⟩ := submit_accepted Turn.ordinary_application
    hbuilt (holdsCallbacks_wrappingBatch []) rfl hundisturbed haccepting
  have hids : ((submit Turn.application true).exec (wrappingBatch [])).1 =
      .ok [65535, 0, 1, 2] := by
    decide +kernel
  rw [hsubmit] at hids
  obtain rfl := Except.ok.inj hids
  exact ⟨after, blocks, hsubmit, haccepted⟩

/-- An undisturbed transfer that is not accepted is undone by withdrawing the batch, provided no
other request waits under one of its identifiers. -/
theorem withdrawQueued_handedOver (hcallbacks : engine.queue.HoldsCallbacks)
    (hsize : engine.queue.size ≤ 65536)
    (hfresh : ∀ request ∈ engine.tracker.requests, request.isPending = true →
      request.id ∉ engine.queue.ids engine.tracker.nextId) (bytes : Bytes) :
    ((engine.handedOver dependent bytes).withdrawQueued engine.tracker.nextId).queue =
        engine.queue ∧
      ((engine.handedOver dependent bytes).withdrawQueued engine.tracker.nextId).tracker =
        engine.tracker := by
  have hqueue : ((engine.handedOver dependent bytes).withdrawQueued engine.tracker.nextId).queue =
      engine.queue := by
    rw [queue_withdrawQueued, queue_handedOver, tracker_handedOver, CommandQueue.size_keptQueue,
      CommandQueue.takeBack_withdraw_eq_iff hcallbacks]
    refine ⟨hsize, fun index command hcommand ↦ ?_⟩
    obtain ⟨callback, hcallback⟩ := hcallbacks.exists_callback hcommand
    rw [Tracker.waitingUnder_track,
      CommandQueue.filter_handOver hcallbacks hsize hcommand hcallback, hcallback]
    simp [CommandQueue.requestAt]
  have htracker : ((engine.handedOver dependent bytes).withdrawQueued
      engine.tracker.nextId).tracker = engine.tracker := by
    rw [tracker_withdrawQueued, queue_handedOver, tracker_handedOver, CommandQueue.size_keptQueue]
    refine Tracker.withdraw_track (fun request hrequest ↦ ?_) fun request hrequest ↦
      CommandQueue.belongs_of_mem_handOver hcallbacks hrequest
    rw [← Bool.not_eq_true, Tracker.belongs, Bool.and_eq_true, ← CommandQueue.mem_ids_iff]
    exact fun hboth ↦ hfresh request hrequest hboth.1 hboth.2
  exact ⟨hqueue, htracker⟩

/-- What is left of an undisturbed submission that failed: requests were made, but nothing that a
later submission depends on has changed. -/
structure Unchanged (before after : Engine τ) (dependent : Bool) : Prop where
  /-- The commands, their order and their callbacks. -/
  queue : after.queue = before.queue
  /-- The tracked requests, their order and the next identifier. -/
  tracker : after.tracker = before.tracker
  /-- Every transfer that was made carried the commands. -/
  transfers : ∃ calls, after.trace = before.trace ++ calls ∧ ∀ bytes, .bulkOut bytes ∈ calls →
    Message.toBytes (before.queue.request before.tracker.nextId dependent) = .ok bytes

/-- An undisturbed submission that fails, for whatever reason, leaves queue and tracker as they
were. -/
theorem unchanged_of_exec_submit (hturn : turn.Ordinary)
    (hundisturbed : engine.Undisturbed dependent) (hsize : engine.queue.size ≤ 65536)
    (hfresh : ∀ request ∈ engine.tracker.requests, request.isPending = true →
      request.id ∉ engine.queue.ids engine.tracker.nextId) {error : HostError}
    (h : (submit turn dependent).exec engine = (.error error, after)) :
    engine.Unchanged after dependent := by
  rcases exec_prepare_cases turn dependent engine with ⟨cause, hprepare⟩ | ⟨bytes, hready⟩
  · rw [exec_submit, hprepare] at h
    obtain ⟨-, rfl⟩ := Prod.mk.inj h
    exact ⟨rfl, rfl, #[], by simp, by simp⟩
  have hcallbacks := (ensureSendable_eq_ok_iff.1 hready.sendable).2
  rw [hready.exec_submit hturn hundisturbed] at h
  split at h
  next cause _ =>
    obtain ⟨-, rfl⟩ := Prod.mk.inj h
    exact ⟨rfl, rfl, #[.controlIn .getBufferAvailable 0 bufferAvailableLength], by simp, by simp⟩
  next => cases h
  next cause _ =>
    obtain ⟨-, rfl⟩ := Prod.mk.inj h
    -- Only here have callbacks left the queue.
    obtain ⟨hqueue, htracker⟩ := withdrawQueued_handedOver hcallbacks hsize hfresh bytes
    refine ⟨hqueue, htracker, _, engine.trace_handedOver dependent bytes, fun data hdata ↦ ?_⟩
    obtain rfl : data = bytes := by simpa using hdata
    exact hready.written

/-- A successful submission from the same queue and the same next identifier sends the same
bytes under the same identifiers. -/
theorem exec_submit_eq_ok {later final : Engine τ} {ids : List UInt16} (hturn : turn.Ordinary)
    (hundisturbed : later.Undisturbed dependent)
    (h : (submit turn dependent).exec later = (.ok ids, final)) :
    ids = later.queue.ids later.tracker.nextId ∧ ∃ bytes,
      Message.toBytes (later.queue.request later.tracker.nextId dependent) = .ok bytes ∧
      final.trace = later.trace ++
        #[.controlIn .getBufferAvailable 0 bufferAvailableLength, .bulkOut bytes] := by
  rcases exec_prepare_cases turn dependent later with ⟨cause, hprepare⟩ | ⟨bytes, hready⟩
  · rw [exec_submit, hprepare] at h
    cases h
  rw [hready.exec_submit hturn hundisturbed] at h
  split at h
  next => cases h
  next =>
    obtain ⟨hids, rfl⟩ := Prod.mk.inj h
    exact ⟨(Except.ok.inj hids).symm, bytes, hready.written, later.trace_handedOver dependent bytes⟩
  next => cases h

/-- An undisturbed submission that fails, for whatever reason, leaves queue and tracker as they
were, so that a later submission that succeeds sends the same bytes under the same identifiers. -/
theorem submit_error_unchanged (hturn : turn.Ordinary) (hundisturbed : engine.Undisturbed dependent)
    (hsize : engine.queue.size ≤ 65536)
    (hfresh : ∀ request ∈ engine.tracker.requests, request.isPending = true →
      request.id ∉ engine.queue.ids engine.tracker.nextId) {error : HostError}
    (h : (submit turn dependent).exec engine = (.error error, after)) :
    engine.Unchanged after dependent ∧
      ∀ (next : Turn τ) (later final : Engine τ) (ids : List UInt16), next.Ordinary →
        later.queue = after.queue → later.tracker.nextId = after.tracker.nextId →
        later.Undisturbed dependent → (submit next dependent).exec later = (.ok ids, final) →
        ids = engine.queue.ids engine.tracker.nextId ∧ ∃ bytes,
          Message.toBytes (engine.queue.request engine.tracker.nextId dependent) = .ok bytes ∧
          final.trace = later.trace ++
            #[.controlIn .getBufferAvailable 0 bufferAvailableLength, .bulkOut bytes] := by
  have hunchanged := unchanged_of_exec_submit hturn hundisturbed hsize hfresh h
  refine ⟨hunchanged, fun next later final ids hnext hqueue hid hlater hsubmit ↦ ?_⟩
  have hsent := exec_submit_eq_ok hnext hlater hsubmit
  rwa [hqueue, hid, hunchanged.queue, hunchanged.tracker] at hsent

/-- The batch that stalled is sent under the same identifiers once the device accepts it. -/
theorem unchanged_wrappingBatch :
    let stalled := wrappingBatch [{ error := some .stall }]
    let after := ((submit Turn.application false).exec stalled).2
    let later := { after with transport := (wrappingBatch []).transport }
    stalled.Unchanged after false ∧ ∃ final bytes,
      (submit Turn.application false).exec later = (.ok [65535, 0, 1, 2], final) ∧
      Message.toBytes (stalled.queue.request 65535 false) = .ok bytes ∧
      final.trace = later.trace ++
        #[.controlIn .getBufferAvailable 0 bufferAvailableLength, .bulkOut bytes] := by
  intro stalled after later
  have hfails : (submit Turn.application false).exec stalled =
      (.error (.transport .stall), after) :=
    Prod.ext (by decide +kernel) rfl
  have hundisturbed : stalled.Undisturbed false := ⟨rfl, fun _ _ ↦ rfl⟩
  obtain ⟨hunchanged, hagain⟩ := submit_error_unchanged Turn.ordinary_application hundisturbed
    (by decide) (by simp [stalled, wrappingBatch]; decide) hfails
  have hsent : ((submit Turn.application false).exec later).1 = .ok [65535, 0, 1, 2] := by
    decide +kernel
  obtain ⟨-, bytes, hwritten, htrace⟩ := hagain Turn.application later _ _
    Turn.ordinary_application rfl rfl ⟨rfl, fun _ _ ↦ rfl⟩ (Prod.ext hsent rfl)
  exact ⟨hunchanged, _, bytes, Prod.ext hsent rfl, hwritten, htrace⟩

end I3cHost.Engine
