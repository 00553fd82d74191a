import I3cHost.Proofs.Session.Submissions

/-!
# Whom an answer is for

An answer is handed to the first request that waits under its identifier, which is the right one as
long as no two requests wait under one identifier (`Distinct`). Identifiers are counted in sixteen
bits without regard to the requests that still wait, so this holds only as long as each batch that
is accepted, be it submitted by the application or by a callback, has distinct identifiers, none of
which is still waited under (`Recounted.distinct`). It does hold as long as every batch that is
accepted lies, together with the requests that still wait, within the last 65536 identifiers that
were returned (`Recounted.takesFree`), and in particular as long as no more commands are accepted
than there are identifiers (`Accounted.distinct`).
-/

namespace I3cHost

/-- The commands that a transfer carries. -/
def carriedCommands (bytes : Bytes) : List CommandBlock :=
  match BulkRequest.decode bytes with
  | .ok (.regular blocks) => blocks
  | _ => []

namespace CommandQueue

variable {κ : Type} {queue : CommandQueue κ}

/-- The requests of a batch have the identifiers of the commands. -/
theorem ids_handOver (h : queue.HoldsCallbacks) (first : UInt16) (dependent : Bool) :
    (queue.handOver first dependent).1.toList.map (·.id) = queue.ids first := by
  apply List.ext_getElem?
  intro index
  simp only [List.getElem?_map, Array.getElem?_toList, getElem?_handOver h, ids]
  by_cases hindex : index < queue.commands.size
  · obtain ⟨callback, hcallback⟩ := h.exists_callback (Array.getElem?_eq_getElem hindex)
    simp [hindex, hcallback, requestAt, size]
  · simp [hindex, size]

/-- Requests for some of the commands have the identifiers of these. -/
theorem ids_filterMap_sublist (commands : List (Command κ)) (name : Nat → UInt16)
    (depends : Nat → Bool) :
    (((commands.mapIdx fun index command ↦ command.callback.map fun callback ↦
      (⟨name index, depends index, callback, none⟩ : TrackedRequest κ)).filterMap id).map
        (·.id)).Sublist (commands.mapIdx fun index _ ↦ name index) := by
  induction commands generalizing name depends with
  | nil => exact .slnil
  | cons command commands ih =>
      have hrest := ih (name <| · + 1) (depends <| · + 1)
      rw [List.mapIdx_cons, List.mapIdx_cons]
      cases hcallback : command.callback with
      | none => exact hrest.cons _
      | some callback => exact hrest.cons_cons _

/-- Whether or not every command holds a callback, requests have the identifiers of commands. -/
theorem ids_handOver_sublist (queue : CommandQueue κ) (first : UInt16) (dependent : Bool) :
    ((queue.handOver first dependent).1.toList.map (·.id)).Sublist (queue.ids first) := by
  have hids : queue.ids first = queue.commands.toList.mapIdx fun index _ ↦ idAt first index := by
    refine List.ext_getElem (by simp [ids, size]) fun index _ _ ↦ ?_
    simp [ids]
  rw [hids, handOver, Array.toList_filterMap, Array.toList_mapIdx]
  exact ids_filterMap_sublist _ _ _

end CommandQueue

/-- The identifiers that were returned last, oldest first. -/
def Books.last {τ : Type} (count : Nat) (books : Books τ) : List UInt16 :=
  books.ids.drop (books.ids.length - count)

/-- The identifiers of a submission that succeeds are noted down behind all others. -/
theorem Books.ids_note_of_submitted {τ : Type} [Transport τ] (books : Books τ)
    {made : QueueCall τ} {dependent : Bool} {ids : List UInt16}
    (hrequest : made.request = .submit dependent) (houtcome : made.outcome = .submitted ids) :
    (books.note made).ids = books.ids ++ ids := by
  simp only [note, hrequest, houtcome]

/-- The last identifiers are those of the latest submission and as many before it as are left. -/
theorem Books.last_note {τ : Type} [Transport τ] (books : Books τ) {made : QueueCall τ}
    {dependent : Bool} {ids : List UInt16} {count : Nat}
    (hrequest : made.request = .submit dependent) (houtcome : made.outcome = .submitted ids)
    (hcount : ids.length ≤ count) :
    (books.note made).last count = books.last (count - ids.length) ++ ids := by
  have hskipped : books.ids.length + ids.length - count =
      books.ids.length - (count - ids.length) := by omega
  rw [last, last, books.ids_note_of_submitted hrequest houtcome, List.length_append, hskipped,
    List.drop_append_of_le_length (Nat.sub_le _ _)]

/-- Identifiers are noted down only of submissions that succeed. -/
theorem Books.ids_note_of_ne {τ : Type} [Transport τ] (books : Books τ) {made : QueueCall τ}
    (h : ∀ ids, made.outcome ≠ .submitted ids) : (books.note made).ids = books.ids := by
  unfold note
  split
  next => split <;> rfl
  next => rfl
  next =>
    split
    next ids houtcome => exact absurd houtcome (h ids)
    next => rfl
  next => rfl

/-- A submission that succeeds returns distinct identifiers, and nobody waits under them when its
requests are tracked. -/
def QueueCall.TakesFree {τ : Type} [Transport τ] (made : QueueCall τ) : Prop :=
  ∀ dependent ids bytes opened, made.request = .submit dependent →
    made.outcome = .submitted ids →
    (Engine.prepare made.turn dependent).exec made.before = (.ok bytes, opened) →
      ids.Nodup ∧ ∀ request ∈ opened.tracker.requests, request.isPending = true → request.id ∉ ids

/-- A submission that succeeds returns at most 65536 identifiers, and whoever waits when its
requests are tracked does so under one of the identifiers that were returned before. Together with
those of the submission these are among the last 65536. -/
def QueueCall.InTime {τ : Type} [Transport τ] (books : Books τ) (made : QueueCall τ) : Prop :=
  ∀ dependent ids bytes opened, made.request = .submit dependent →
    made.outcome = .submitted ids →
    (Engine.prepare made.turn dependent).exec made.before = (.ok bytes, opened) →
      ids.length ≤ 65536 ∧ ∀ request ∈ opened.tracker.requests, request.isPending = true →
        request.id ∈ books.last (65536 - ids.length)

/-- Whenever a batch is accepted, it lies together with the requests that still wait within the last
65536 identifiers that were returned. -/
def Timely {τ : Type} [Transport τ] (calls : List (QueueCall τ)) : Prop :=
  ∀ before made later, calls = before ++ made :: later → made.InTime (Books.of before)

namespace Engine

variable {τ : Type} {engine start after : Engine τ} {dependent : Bool}

/-- No two requests wait under one identifier. -/
def Distinct (engine : Engine τ) : Prop :=
  ∀ id, (engine.tracker.waitingUnder id).length ≤ 1

/-- The commands that were sent, oldest first. One that was sent again comes again. -/
def sentCommands (engine : Engine τ) : List CommandBlock :=
  engine.commandTransfers.flatMap carriedCommands

/-- Requests stay apart as long as none begins to wait. -/
theorem Distinct.of_subsides (h : engine.Distinct)
    (hafter : engine.tracker.Subsides after.tracker) : after.Distinct :=
  fun id ↦ (hafter.latest id).length_le.trans (h id)

/-- As many more requests wait under an identifier as commands are submitted under it, at most. -/
theorem length_waitingUnder_trackQueued (first : UInt16) (engine : Engine τ) (id : UInt16) :
    ((engine.trackQueued first dependent).tracker.waitingUnder id).length ≤
      (engine.tracker.waitingUnder id).length + (engine.queue.ids first).count id := by
  rw [tracker_trackQueued, Tracker.waitingUnder_track, List.length_append]
  refine Nat.add_le_add_left ?_ _
  refine Nat.le_trans ?_
    ((CommandQueue.ids_handOver_sublist engine.queue first dependent).count_le id)
  rw [List.count, List.countP_map, ← List.countP_eq_length_filter]
  refine List.countP_mono_left fun request _ hselected ↦ ?_
  exact (Bool.and_eq_true_iff.1 hselected).1

/-- A submission that fails withdraws whoever waits under an identifier of its batch. So no request
begins to wait. -/
theorem subsides_withdrawQueued {transferred : Engine τ} {first : UInt16}
    (h : (engine.trackQueued first dependent).tracker.Subsides transferred.tracker)
    (hsize : transferred.queue.size = engine.queue.size) :
    engine.tracker.Subsides (transferred.withdrawQueued first).tracker := by
  refine ⟨h.nextId, fun id ↦ ?_⟩
  have hlatest := h.latest id
  rw [tracker_trackQueued, Tracker.waitingUnder_track] at hlatest
  rw [tracker_withdrawQueued, hsize, Tracker.withdraw_eq, Tracker.waitingUnder,
    Array.toList_filter, List.filter_filter]
  by_cases hid : Tracker.inBatch first engine.queue.size id = true
  · have hnone : (transferred.tracker.requests.toList.filter fun request ↦
        (request.id == id && request.isPending) &&
          !Tracker.belongs first engine.queue.size request) = [] := by
      refine List.filter_eq_nil_iff.2 fun request _ hselected ↦ ?_
      obtain ⟨hwaits, hkept⟩ := Bool.and_eq_true_iff.1 hselected
      obtain ⟨hsame, hpending⟩ := Bool.and_eq_true_iff.1 hwaits
      rw [Tracker.belongs, beq_iff_eq.1 hsame, hid, hpending] at hkept
      cases hkept
    exact hnone ▸ List.nil_suffix
  · -- Nobody is withdrawn who waits under the identifier, and the batch does not have it.
    have hbatch : ((engine.queue.handOver first dependent).1.toList.filter fun request ↦
        request.id == id && request.isPending) = [] := by
      refine List.filter_eq_nil_iff.2 fun request hrequest hselected ↦ hid ?_
      rw [← beq_iff_eq.1 (Bool.and_eq_true_iff.1 hselected).1]
      exact CommandQueue.mem_ids_iff.1
        ((CommandQueue.ids_handOver_sublist _ _ _).mem (List.mem_map_of_mem hrequest))
    have hkept : (transferred.tracker.requests.toList.filter fun request ↦
        (request.id == id && request.isPending) &&
          !Tracker.belongs first engine.queue.size request) =
        transferred.tracker.waitingUnder id := by
      refine List.filter_congr fun request _ ↦ ?_
      by_cases hsame : request.id = id
      · simp [hsame, Tracker.belongs, hid]
      · simp [hsame]
    rw [hbatch, List.append_nil] at hlatest
    exact hkept ▸ hlatest

/-- A queue of copies of a command was built. -/
theorem built_replicate (settings : TransferSettings) (copies : Nat) :
    (⟨Array.replicate (copies + 1) { reader with settings }⟩ : CommandQueue (Hook τ)).Built := by
  have hnone (queue : CommandQueue (Hook τ)) : queue.fault? { reader with settings } = none := rfl
  induction copies with
  | zero => exact .first (CommandQueue.push_eq_ok_iff.2 ⟨hnone _, rfl⟩)
  | succ copies ih =>
      refine .next ih (CommandQueue.push_eq_ok_iff.2 ⟨hnone _, ?_⟩)
      rw [CommandQueue.append, ← Array.replicate_succ]

/-- Blocks without data take as many bytes as their headers. -/
theorem length_layout_le {blocks : List CommandBlock} (hcoherent : ∀ block ∈ blocks, block.Coherent)
    (hbare : ∀ block ∈ blocks, block.data = []) :
    (BulkRequest.layout blocks).length ≤ 4 + 20 * blocks.length := by
  rw [BulkRequest.length_layout hcoherent]
  show 4 + blocks.foldr (fun block size ↦ block.encodedSize + size) 0 ≤ _
  clear hcoherent
  induction blocks with
  | nil => simp
  | cons block blocks ih =>
      have hrest := ih fun other hother ↦ hbare other (List.mem_cons_of_mem block hother)
      have hblock : block.encodedSize = 20 := by
        rw [CommandBlock.encodedSize, hbare block List.mem_cons_self]
        rfl
      rw [List.foldr_cons, List.length_cons, hblock]
      omega

/-- A queue of copies can be sent. -/
theorem ready_replicate {engine : Engine τ} (hreceiving : engine.tracker.receiving = true)
    {copies : Nat} {settings : TransferSettings}
    (hqueue : engine.queue = ⟨Array.replicate (copies + 1) { reader with settings }⟩) :
    ∃ bytes, engine.Ready dependent bytes ∧ bytes.length ≤ 4 + 20 * (copies + 1) := by
  have hbuilt : engine.queue.Built := hqueue ▸ built_replicate settings copies
  have hcallbacks : engine.queue.HoldsCallbacks := by
    intro command hcommand
    rw [hqueue] at hcommand
    obtain ⟨-, rfl⟩ := Array.mem_replicate.1 hcommand
    rfl
  have hlength := length_layout_le (coherent_blocks hbuilt.fault?_eq_none dependent) (by
    intro block hblock
    obtain ⟨index, hindex, rfl⟩ := Array.mem_mapIdx.1 (Array.mem_toList_iff.1 hblock)
    simp [hqueue, Command.block, reader, CommandTransfer.payload])
  rw [length_blocks, hqueue] at hlength
  refine ⟨_, ⟨ensureSendable_eq_ok_iff.2 ⟨hbuilt.isEmpty_eq_false, hcallbacks⟩,
    by rw [Tracker.ensureReceiving, if_pos hreceiving],
    toBytes_request hbuilt.fault?_eq_none dependent⟩, ?_⟩
  simpa [CommandQueue.size] using hlength

/-- The queue has as many commands as before if the stock is the same. -/
theorem size_queue_of_stock (h : after.stock = engine.stock) :
    after.queue.size = engine.queue.size := by
  have hqueued : after.queued = engine.queued := congrArg Prod.fst h
  rw [← length_queued, ← length_queued, hqueued]

/-- Identifiers count up, so 65536 that were returned one after the other are distinct. -/
theorem Agrees.nodup_last {books : Books τ} (h : Agrees books engine) :
    (books.last 65536).Nodup := by
  have hbounds {number : Nat} (hnumber : number ∈
      (List.range books.ids.length).drop (books.ids.length - 65536)) :
      books.ids.length - 65536 ≤ number ∧ number < books.ids.length := by
    obtain ⟨index, hindex, rfl⟩ := List.mem_drop_iff_getElem.1 hnumber
    rw [List.length_range] at hindex
    rw [List.getElem_range]
    exact ⟨Nat.le_add_right _ _, Nat.add_comm index _ ▸ hindex⟩
  have hlast : books.last 65536 = ((List.range books.ids.length).drop
      (books.ids.length - 65536)).map UInt16.ofNat := by
    rw [List.map_drop, ← h.ids, Books.last]
  rw [hlast]
  refine List.Nodup.map_on (fun first hfirst second hsecond hsame ↦ ?_)
    (List.nodup_range.sublist (List.drop_sublist _ _))
  have hvalues := congrArg UInt16.toNat hsame
  rw [UInt16.toNat_ofNat', UInt16.toNat_ofNat'] at hvalues
  have hfirst := hbounds hfirst
  have hsecond := hbounds hsecond
  omega

/-- A session agrees with the books, which know of no more identifiers than commands were sent. As
many requests wait under an identifier as it was returned, at most. -/
structure Accounted (books : Books τ) (engine : Engine τ) : Prop where
  agrees : Agrees books engine
  sent : books.ids.length ≤ engine.sentCommands.length
  waiting : ∀ id, (engine.tracker.waitingUnder id).length ≤ books.ids.count id

namespace Accounted

variable {books : Books τ}

/-- What happens between two calls about the queue leaves the books in order. -/
theorem between (h : Accounted books engine) (hafter : engine.Between after) :
    Accounted books after where
  agrees := h.agrees.of_stock hafter.stock
  sent := by
    have htransfers : after.commandTransfers = engine.commandTransfers :=
      congrArg (·.2.2) hafter.stock
    rw [sentCommands, htransfers]
    exact h.sent
  waiting id := (hafter.tracker.latest id).length_le.trans (h.waiting id)

/-- As long as no more commands are accepted than there are identifiers, no identifier is returned
twice. -/
theorem distinct (h : Accounted books engine) (hcount : books.ids.length ≤ 65536) :
    engine.Distinct := by
  have hnodup := h.agrees.nodup_last
  rw [Books.last, Nat.sub_eq_zero_of_le hcount, List.drop_zero] at hnodup
  exact fun id ↦ (h.waiting id).trans (List.nodup_iff_count_le_one.1 hnodup id)

end Accounted

variable [Transport τ] {turn : Turn τ}

namespace HoldsQueue

variable (h : engine.HoldsQueue turn dependent)

include h

/-- No command is queued or removed during a transfer. -/
theorem size_transferred {bytes : Bytes} {opened : Engine τ}
    (hprepare : (prepare turn dependent).exec engine = (.ok bytes, opened)) :
    (opened.transferred turn engine.tracker.nextId dependent bytes).queue.size =
      opened.queue.size := by
  rw [size_queue_of_stock (h.transfer bytes opened hprepare).stock, queue_sent, queue_trackQueued,
    CommandQueue.size_keptQueue]

/-- In a submission that fails no request begins to wait. -/
theorem subsides_of_error {error : HostError}
    (hsubmit : (submit turn dependent).exec engine = (.error error, after)) :
    engine.tracker.Subsides after.tracker := by
  have hquery := h.query.tracker
  obtain ⟨cause, failed, hprepare, hfails⟩ | ⟨bytes, opened, hprepare, hfails | ⟨cause, hfails⟩⟩ :=
    exec_submit_cases turn dependent engine
  · rw [hprepare] at hquery
    obtain ⟨-, rfl⟩ := Prod.mk.inj (hfails.symm.trans hsubmit)
    exact hquery
  · cases hfails.symm.trans hsubmit
  · rw [hprepare] at hquery
    obtain ⟨-, rfl⟩ := Prod.mk.inj (hfails.symm.trans hsubmit)
    exact hquery.trans (subsides_withdrawQueued (h.transfer bytes opened hprepare).tracker
      (h.size_transferred hprepare))

/-- In a submission that succeeds as many requests begin to wait under an identifier as are
submitted under it, at most. -/
theorem waiting_of_ok {ids : List UInt16}
    (hsubmit : (submit turn dependent).exec engine = (.ok ids, after)) :
    ∃ bytes opened, (prepare turn dependent).exec engine = (.ok bytes, opened) ∧
      engine.tracker.Subsides opened.tracker ∧
      ∀ id, (after.tracker.waitingUnder id).length ≤
        (opened.tracker.waitingUnder id).length + ids.count id := by
  have hquery := h.query
  obtain ⟨cause, failed, -, hfails⟩ | ⟨bytes, opened, hprepare, hsucceeds | ⟨cause, hfails⟩⟩ :=
    exec_submit_cases turn dependent engine
  · cases hfails.symm.trans hsubmit
  · rw [hprepare] at hquery
    obtain ⟨hids, rfl⟩ := Prod.mk.inj (hsucceeds.symm.trans hsubmit)
    obtain rfl := Except.ok.inj hids
    have hsame : opened.queue.ids engine.tracker.nextId =
        engine.queue.ids engine.tracker.nextId := by
      rw [CommandQueue.ids, CommandQueue.ids, size_queue_of_stock hquery.stock]
    refine ⟨bytes, opened, hprepare, hquery.tracker, fun id ↦ ?_⟩
    calc ((opened.transferred turn engine.tracker.nextId dependent bytes).tracker.waitingUnder
          id).length
      _ ≤ ((opened.trackQueued engine.tracker.nextId dependent).tracker.waitingUnder id).length :=
          ((h.transfer bytes opened hprepare).tracker.latest id).length_le
      _ ≤ _ := hsame ▸ length_waitingUnder_trackQueued engine.tracker.nextId opened id
  · cases hfails.symm.trans hsubmit

end HoldsQueue

section Calls

variable {allowed : Hook τ → Prop} {made : QueueCall τ} {calls : List (QueueCall τ)}

/-- What was sent stays sent. -/
theorem sentCommands_prefix_of_call (hmade : made.Sound allowed) :
    made.before.sentCommands <+: made.after.sentCommands := by
  have hsent : made.before.commandTransfers <+: made.after.commandTransfers := by
    by_cases hsubmit : ∃ dependent, made.request = .submit dependent
    · obtain ⟨dependent, hrequest⟩ := hsubmit
      rw [QueueCall.after, hrequest, exec_perform_submit]
      exact (hmade.exclusive dependent hrequest).prefix_of_submit
    · rw [commandTransfers_of_not_submit hmade fun dependent hrequest ↦
        hsubmit ⟨dependent, hrequest⟩]
  exact hsent.flatMap carriedCommands

variable (hmade : made.Sound allowed)
  (hholds : ∀ dependent, made.request = .submit dependent →
    made.before.HoldsQueue made.turn dependent)

include hmade hholds

/-- What a call about the queue does to those who wait: if it is a submission that succeeds, as many
begin to wait under an identifier as it returns that identifier, at most, and otherwise none. -/
theorem waiting_of_call :
    (∀ ids, made.outcome ≠ .submitted ids) ∧ made.before.tracker.Subsides made.after.tracker ∨
    ∃ dependent ids bytes opened, made.request = .submit dependent ∧
      made.outcome = .submitted ids ∧
      (prepare made.turn dependent).exec made.before = (.ok bytes, opened) ∧
      made.before.tracker.Subsides opened.tracker ∧
      ∀ id, (made.after.tracker.waitingUnder id).length ≤
        (opened.tracker.waitingUnder id).length + ids.count id := by
  obtain ⟨caller, request, before⟩ := made
  obtain ⟨command, copies, rfl⟩ | rfl | ⟨dependent, rfl⟩ :=
    Call.exists_of_handlesQueue hmade.handlesQueue
  · refine .inl ?_
    show (∀ ids, (enqueueCopies command copies before).1 ≠ .submitted ids) ∧
      before.tracker.Subsides (enqueueCopies command copies before).2.tracker
    obtain ⟨fault, -, heq⟩ | ⟨-, heq⟩ := enqueueCopies_cases command copies before
    · rw [heq]
      exact ⟨by rintro _ ⟨⟩, .refl _⟩
    · rw [heq]
      exact ⟨by rintro _ ⟨⟩, .refl _⟩
  · exact .inl ⟨by rintro _ ⟨⟩, .refl _⟩
  · have hsubmission := hholds dependent rfl
    simp only [QueueCall.outcome, QueueCall.after, exec_perform_submit_eq]
    rcases hsubmit : (submit (QueueCall.turn ⟨caller, .submit dependent, before⟩) dependent).exec
      before with ⟨error | ids, after⟩
    · exact .inl ⟨by rintro _ ⟨⟩, hsubmission.subsides_of_error hsubmit⟩
    · obtain ⟨bytes, opened, hprepare, hopened, hwaiting⟩ := hsubmission.waiting_of_ok hsubmit
      exact .inr ⟨dependent, ids, bytes, opened, rfl, rfl, hprepare, hopened, hwaiting⟩

/-- What is noted down of a call accounts for those who wait. -/
theorem Accounted.note {books : Books τ} (h : Accounted books made.before) :
    Accounted (books.note made) made.after := by
  have hagrees := h.agrees.note hmade
  have hsent := h.sent
  obtain ⟨hnone, hsubsides⟩ | ⟨dependent, ids, bytes, opened, hrequest, houtcome, -, hopened,
    hwaiting⟩ := waiting_of_call hmade hholds
  · have hids : (books.note made).ids = books.ids := books.ids_note_of_ne hnone
    refine ⟨hagrees, ?_, fun id ↦ ?_⟩
    · exact hids ▸ hsent.trans (sentCommands_prefix_of_call hmade).length_le
    · exact hids ▸ (hsubsides.latest id).length_le.trans (h.waiting id)
  · have hids := books.ids_note_of_submitted hrequest houtcome
    obtain ⟨transfer, blocks, htransfers, hdecode, -, rfl⟩ := h.agrees.transfer hmade houtcome
    refine ⟨hagrees, ?_, fun id ↦ ?_⟩
    · have hcarried : carriedCommands transfer = blocks := by rw [carriedCommands, hdecode]
      rw [sentCommands, htransfers, List.flatMap_append, List.flatMap_singleton, hcarried, hids,
        List.length_append, List.length_append, List.length_map]
      exact Nat.add_le_add_right hsent _
    · rw [hids, List.count_append]
      have hbefore := ((hopened.latest id).length_le.trans (h.waiting id))
      have hafter := hwaiting id
      omega

/-- A call keeps requests apart unless it is a submission that succeeds with identifiers that
repeat, or under which somebody waits when its requests are tracked. -/
theorem distinct_of_call (h : made.before.Distinct) (hfree : made.TakesFree) :
    made.after.Distinct := by
  obtain ⟨-, hsubsides⟩ | ⟨dependent, ids, bytes, opened, hrequest, houtcome, hprepare, hopened,
    hwaiting⟩ := waiting_of_call hmade hholds
  · exact h.of_subsides hsubsides
  · obtain ⟨hnodup, hunused⟩ := hfree dependent ids bytes opened hrequest houtcome hprepare
    intro id
    have hafter := hwaiting id
    by_cases hid : id ∈ ids
    · -- Whoever waits under the identifier belongs to the batch, which has it once.
      have hnone : opened.tracker.waitingUnder id = [] := by
        refine List.eq_nil_iff_forall_not_mem.2 fun request hrequest ↦ ?_
        obtain ⟨hmem, rfl, hpending⟩ := Tracker.mem_waitingUnder.1 hrequest
        exact hunused request hmem hpending hid
      have honce := List.nodup_iff_count_le_one.1 hnodup id
      rw [hnone, List.length_nil] at hafter
      omega
    · have hbefore := h.of_subsides hopened id
      rw [List.count_eq_zero_of_not_mem hid] at hafter
      omega

omit hholds in
/-- What has been returned last is returned again only when 65536 others have been. -/
theorem takesFree_of_inTime {books : Books τ} (h : Agrees books made.before)
    (hintime : made.InTime books) : made.TakesFree := by
  intro dependent ids bytes opened hrequest houtcome hprepare
  obtain ⟨hsize, hwithin⟩ := hintime dependent ids bytes opened hrequest houtcome hprepare
  have hnodup := (h.note hmade).nodup_last
  rw [books.last_note hrequest houtcome hsize] at hnodup
  obtain ⟨-, hids, happart⟩ := List.nodup_append.1 hnodup
  exact ⟨hids, fun request hrequest hpending hmem ↦
    happart _ (hwithin request hrequest hpending) _ hmem rfl⟩

end Calls

/-- An answer is handed to the one request that waits under its identifier. -/
theorem exec_resolve (h : engine.Distinct) {request : TrackedRequest (Hook τ)}
    (hrequest : request ∈ engine.tracker.requests) (hpending : request.isPending = true)
    (turn : Turn τ) {response : CommandResponse} (hid : response.id = request.id) :
    ∃ rest, engine.tracker.takePending response.id = some (request, rest) ∧
      (resolve turn response).exec engine =
        (answer turn request response).exec { engine with tracker := rest } := by
  rw [hid]
  obtain ⟨found, rest, htake⟩ := Tracker.exists_takePending hrequest hpending
  obtain ⟨front, back, hrequests, -, hselect, -⟩ := Tracker.takePending_eq_some htake
  have hfound : found ∈ engine.tracker.waitingUnder request.id := by
    rw [Tracker.waitingUnder, hrequests]
    exact List.mem_filter.2 ⟨List.mem_append_right front List.mem_cons_self, hselect⟩
  -- Only one request waits under the identifier, so that is the one which was found.
  obtain rfl : found = request := by
    have hwaits := Tracker.mem_waitingUnder.2 ⟨hrequest, rfl, hpending⟩
    have hone : (engine.tracker.waitingUnder request.id).length = 1 :=
      Nat.le_antisymm (h request.id) (List.length_pos_of_mem hwaits)
    obtain ⟨only, honly⟩ := List.length_eq_one_iff.1 hone
    rw [honly] at hfound hwaits
    rw [List.mem_singleton.1 hfound, List.mem_singleton.1 hwaits]
  refine ⟨rest, htake, ?_⟩
  rw [resolve, hid, EngineM.exec_bind, EngineM.exec_modifyGet, takePending, htake]

/-- The application makes its calls itself, and each is an event of the history. -/
theorem exists_event_of_mem_ownCalls {events : List (Event τ)} {made : QueueCall τ}
    (h : made ∈ engine.ownCalls events) : made.caller = none ∧
      ∃ before later, events = before ++ .call made.request :: later ∧
        made.before = engine.after before := by
  induction events generalizing engine with
  | nil => cases h
  | cons event events ih =>
      rcases List.mem_append.1 h with hfirst | hlater
      · cases event with
        | call request =>
            rw [Event.queueCall?] at hfirst
            split at hfirst
            next =>
              obtain rfl := List.mem_singleton.1 hfirst
              exact ⟨rfl, [], events, rfl, rfl⟩
            next => cases hfirst
        | completion => cases hfirst
        | failure => cases hfirst
      · obtain ⟨hcaller, before, later, rfl, hbefore⟩ := ih hlater
        exact ⟨hcaller, event :: before, later, rfl, hbefore⟩

/-- The books account for those who wait after any calls about the queue. -/
theorem Linked.accounted {calls : List (QueueCall τ)} {books : Books τ}
    (hlinked : engine.Linked Between calls after) (h : Accounted books engine)
    (hcalls : ∀ made ∈ calls, ∀ {books : Books τ}, Accounted books made.before →
      Accounted (books.note made) made.after) :
    Accounted (calls.foldl Books.note books) after := by
  induction calls generalizing engine books with
  | nil => exact h.between hlinked
  | cons made calls ih =>
      obtain ⟨hmade, hlater⟩ := List.forall_mem_cons.1 hcalls
      exact ih hlinked.2 (hmade (h.between hlinked.1)) hlater

section History

variable {session : Engine τ} {allowed : Hook τ → Prop} {events : List (Event τ)}
  {calls : List (QueueCall τ)}
  (hholds : ∀ before event later, events = before ++ event :: later →
    event.LeavesRequests (session.after before))
  (hcalls : session.Recounted Between allowed (session.ownCalls events) calls
    (session.after events))

include hholds hcalls

/-- Every submission of a history holds the queue: those of callbacks do since the event thread is
busy then. -/
theorem Recounted.holdsQueue : ∀ made ∈ calls, ∀ dependent, made.request = .submit dependent →
    made.before.HoldsQueue made.turn dependent := by
  intro made hmade dependent hrequest
  cases hcaller : made.caller with
  | some hook =>
      rw [QueueCall.turn, hcaller]
      exact holdsQueue_busy dependent made.before
  | none =>
      have hown : made ∈ session.ownCalls events := by
        rw [← hcalls.own, List.mem_filter, hcaller]
        exact ⟨hmade, rfl⟩
      obtain ⟨-, before, later, heq, hbefore⟩ := exists_event_of_mem_ownCalls hown
      have hevent := hholds before _ later heq
      rw [hrequest] at hevent
      rw [QueueCall.turn, hcaller, hbefore]
      exact hevent

/-- After a history the books are in order, if nothing waited at its start. -/
theorem Recounted.accounted (h : Agrees {} session) (hnone : session.tracker.requests = #[]) :
    Accounted (Books.of calls) (session.after events) := by
  have hstart : Accounted {} session :=
    ⟨h, Nat.zero_le _, fun id ↦ by simp [Tracker.waitingUnder, hnone]⟩
  have hkept (made) (hmade : made ∈ calls) {books} (hbefore : Accounted books made.before) :
      Accounted (books.note made) made.after :=
    hbefore.note (hcalls.sound made hmade) (hcalls.holdsQueue hholds made hmade)
  exact hcalls.linked.accounted hstart hkept

omit hholds in
/-- Batches that are accepted in time take identifiers that are free. -/
theorem Recounted.takesFree (h : Agrees {} session) (htimely : Timely calls) :
    ∀ made ∈ calls, made.TakesFree := by
  intro made hmade
  obtain ⟨before, later, rfl⟩ := List.append_of_mem hmade
  have hbefore := (hcalls.explains Between.stock).agrees_before h
  exact takesFree_of_inTime (hcalls.sound made hmade) hbefore (htimely before made later rfl)

/-- Requests stay apart if every submission that succeeds takes identifiers that are free. -/
theorem Recounted.distinct (h : session.Distinct) (hfree : ∀ made ∈ calls, made.TakesFree) :
    (session.after events).Distinct := by
  refine hcalls.linked.preserves (fun _ _ hbefore hafter ↦ hbefore.of_subsides hafter.tracker)
    (fun made hmade hbefore ↦ ?_) h
  exact distinct_of_call (hcalls.sound made hmade) (hcalls.holdsQueue hholds made hmade) hbefore
    (hfree made hmade)

end History

/-- In every history of a session, with any callbacks, as long as those that run while the
application submits leave queue and requests alone: two requests wait under one identifier only if
some submission that succeeded, of the application or of a callback, returned an identifier twice,
or one under which somebody still waited. Then some request that still waited, or some of the batch
itself, was not among the last 65536 that had been accepted, and so more than 65536 commands have
been accepted. If no two requests wait under one identifier, every answer is handed to the request
that it is for. -/
theorem distinct_after {allowed : Hook τ → Prop} {transport : τ} {options : SessionOptions}
    {session : Engine τ} (h : Session.ofTransport transport options = .ok session)
    {events : List (Event τ)} (hclosed : HookClosed allowed)
    (hhooks : ∀ event ∈ events, ∀ hook ∈ event.hooks, allowed hook)
    (hholds : (∀ hook, allowed hook → hook.SparesQueue) ∨
      ∀ before event later, events = before ++ event :: later →
        event.LeavesRequests (session.after before)) :
    (∃ calls, session.Recounted Between allowed (session.ownCalls events) calls
      (session.after events)) ∧
    ∀ calls, session.Recounted Between allowed (session.ownCalls events) calls
        (session.after events) →
      ((∀ hook, allowed hook → hook.SparesQueue) → calls = session.ownCalls events) ∧
      (Books.of calls).ids.length ≤ (session.after events).sentCommands.length ∧
      ((∀ made ∈ calls, made.TakesFree) ∨ Timely calls ∨ (Books.of calls).ids.length ≤ 65536 →
        (session.after events).Distinct ∧
        ∀ request ∈ (session.after events).tracker.requests, request.isPending = true →
          ∀ (turn : Turn τ) (response : CommandResponse), response.id = request.id →
            ∃ rest, (session.after events).tracker.takePending response.id =
                some (request, rest) ∧
              (resolve turn response).exec (session.after events) =
                (answer turn request response).exec
                  { session.after events with tracker := rest }) := by
  have hstart : HooksIn allowed [] session := hooksIn_ofTransport h allowed
  have hleaves (before) (event : Event τ) (later) (heq : events = before ++ event :: later) :
      event.LeavesRequests (session.after before) := by
    obtain hspare | hholds := hholds
    · obtain ⟨hbefore, -⟩ := hooksIn_before hclosed hstart hhooks heq
      exact (hbefore.hooksSpareQueue hspare).leavesRequests event
    · exact hholds before event later heq
  have hagrees : Agrees {} session := agrees_ofTransport h
  have hnone : session.tracker.requests = #[] := by
    obtain ⟨table, rfl⟩ := exists_of_ofTransport h
    rfl
  constructor
  · refine exists_recounted hclosed hstart hhooks lasting_between ?_ ?_
    · intro before event later heq
      exact leavesStock_of_leavesRequests (hleaves before event later heq)
    · exact fun before later heq ↦ hleaves before _ later heq
  · intro calls hcalls
    have haccounted := hcalls.accounted hleaves hagrees hnone
    refine ⟨(hcalls.explains Between.stock).eq_own, haccounted.sent, fun hfree ↦ ?_⟩
    have hfirst : session.Distinct := fun id ↦ by simp [Tracker.waitingUnder, hnone]
    have hdistinct : (session.after events).Distinct := by
      obtain hfree | htimely | hcount := hfree
      · exact hcalls.distinct hleaves hfirst hfree
      · exact hcalls.distinct hleaves hfirst (hcalls.takesFree hagrees htimely)
      · exact haccounted.distinct hcount
    exact ⟨hdistinct, fun request hrequest hpending turn response hid ↦
      exec_resolve hdistinct hrequest hpending turn hid⟩

/-- A command whose callback queues another and submits it. -/
def resubmit : Command (Hook ScriptedTransport) :=
  { relay with
    callback := some { label := "resubmit", followUp := [.enqueue reader, .submit false] } }

/-- A command is sent at the second attempt, and answered. -/
def resubmitted : List (Event ScriptedTransport) :=
  [.call .bringUp, .call (.enqueue resubmit), .call (.submit false), .call (.submit false),
    .completion (.bulkIn (.ok [0, 0, 0, 0, 0, 0, 1, 0, 0, 0, 0, 0]))]

/-- After the answer the command waits that the callback has submitted. -/
theorem distinct_resubmitted :
    Session.ofTransport retrying.transport {} = .ok retrying ∧
      (retrying.after resubmitted).tracker.requests.toList.map (·.id) = [1] ∧
      (retrying.after resubmitted).sentCommands.length = 3 ∧
      (∃ calls, retrying.Recounted Between (fun _ ↦ True) (retrying.ownCalls resubmitted) calls
        (retrying.after resubmitted)) ∧
      (retrying.after resubmitted).Distinct := by
  have hopened : Session.ofTransport retrying.transport {} = .ok retrying := rfl
  have hwaiting : (retrying.after resubmitted).tracker.requests.toList.map (·.id) = [1] := by
    decide +kernel
  have hsent : (retrying.after resubmitted).sentCommands.length = 3 := by decide +kernel
  have hearly : ∀ before ∈ resubmitted.inits,
      (retrying.after before).transport.bulkOut.all (·.early.isEmpty) = true := by
    decide +kernel
  generalize retrying = session at hopened hwaiting hsent hearly ⊢
  have hspare : session.HooksSpareQueue :=
    (hooksIn_ofTransport hopened Hook.SparesQueue).hooksSpareQueue fun _ ↦ id
  have hclosed : HookClosed fun _ : Hook ScriptedTransport ↦ True := fun _ _ _ _ _ _ ↦ trivial
  have hholds := leavesRequests_of_scripted hspare (by simp [resubmitted]) hearly
  obtain ⟨⟨calls, hcalls⟩, hdistinct⟩ :=
    distinct_after hopened hclosed (fun _ _ _ _ ↦ trivial) (.inr hholds)
  obtain ⟨-, hcount, hapart⟩ := hdistinct calls hcalls
  exact ⟨hopened, hwaiting, hsent, ⟨calls, hcalls⟩, (hapart (.inr (.inr (by omega)))).1⟩

/-- Nothing is queued, answers are received, and the device hands out nothing any more. -/
structure Idle (engine : Engine RoomyTransport) : Prop where
  quiet : engine.transport.meanwhile = []
  receiving : engine.tracker.receiving = true
  queue : engine.queue = {}

/-- A batch of copies of a command is sent. -/
def batch (copies : Nat) : List (Event RoomyTransport) :=
  [.call (.enqueue reader copies), .call (.submit false)]

/-- Such a device has room for all that can be asked of it. -/
theorem roomFor_roomy {required : Nat} (h : required < 4294967296)
    (engine : Engine RoomyTransport) : engine.roomFor required = .ok () := by
  have hreported : engine.reportedRoom = .ok 4294967295 := rfl
  have hroom : ¬ required > (4294967295 : UInt32).toNat := by
    show ¬ required > 4294967295
    omega
  simp only [roomFor, hreported, bind, Except.bind, hroom, if_false]
  rfl

/-- Such a device accepts every transfer as a whole. -/
theorem acceptance_roomy (bytes : Bytes) (engine : Engine RoomyTransport) :
    engine.acceptance bytes = .ok () := by
  have hwritten : ((Transport.bulkOut bytes).run engine.transport).1 =
      (.ok bytes.length : TransportResult Nat) := rfl
  simp [acceptance, hwritten, bind, Except.bind]
  rfl

/-- A batch is accepted, and from then on one more request waits under its first identifier. -/
theorem Idle.sent {engine : Engine RoomyTransport} (h : engine.Idle) (copies : Nat)
    (hpositive : 0 < copies) (hcopies : copies ≤ 65536) :
    (engine.after (batch copies)).Idle ∧
      (engine.after (batch copies)).tracker.nextId =
        engine.tracker.nextId + UInt16.ofNat copies ∧
      ∀ id, (engine.tracker.waitingUnder id).length +
          (if id = engine.tracker.nextId then 1 else 0) ≤
        ((engine.after (batch copies)).tracker.waitingUnder id).length := by
  obtain ⟨copies, rfl⟩ := Nat.exists_eq_add_of_lt hpositive
  rw [Nat.zero_add] at hcopies ⊢
  obtain ⟨accepted, -, heq, hall⟩ := enqueueCopies_eq reader (copies + 1) engine
  obtain rfl := hall fun _ ↦ rfl
  let queued : Engine RoomyTransport := { engine with
    queue := ⟨Array.replicate (copies + 1) { reader with settings := engine.settings }⟩ }
  have hqueued : ((happen (.call (.enqueue reader (copies + 1)))).exec engine).2 = queued := by
    refine heq.trans ?_
    rw [h.queue, Array.empty_append]
  have hquiet (moment : Moment) : Transport.next? moment queued.transport = none :=
    RoomyTransport.next?_eq_none h.quiet moment
  obtain ⟨bytes, hready, hlength⟩ : ∃ bytes, queued.Ready false bytes ∧
      bytes.length ≤ 4 + 20 * (copies + 1) :=
    have hreceiving : queued.tracker.receiving = true := h.receiving
    ready_replicate hreceiving rfl
  have hsubmit := hready.exec_submit Turn.ordinary_application
    ⟨hquiet _, fun _ _ ↦ hquiet _⟩
  rw [roomFor_roomy (by omega), acceptance_roomy] at hsubmit
  have hafter : engine.after (batch (copies + 1)) =
      (queued.handedOver false bytes).concludeQueued := by
    show ((perform Turn.application (.submit false)).exec
      ((happen (.call (.enqueue reader (copies + 1)))).exec engine).2).2 = _
    rw [hqueued, exec_perform_submit, hsubmit]
  have hcallbacks := (ensureSendable_eq_ok_iff.1 hready.sendable).2
  rw [hafter]
  refine ⟨⟨h.quiet, h.receiving, rfl⟩, ?_, fun id ↦ ?_⟩
  · show queued.tracker.nextId + UInt16.ofNat (queued.handedOver false bytes).queue.size = _
    rw [queue_handedOver, CommandQueue.size_keptQueue]
    simp [queued, CommandQueue.size]
  · show _ ≤ ((queued.handedOver false bytes).tracker.waitingUnder id).length
    rw [tracker_handedOver, Tracker.waitingUnder_track, List.length_append]
    refine Nat.add_le_add_left ?_ _
    split
    next hid =>
      -- The first request of the batch has the identifier.
      have hfirst : id ∈ queued.queue.ids queued.tracker.nextId := by
        refine List.mem_map.2 ⟨0, List.mem_range.2 (by simp [queued, CommandQueue.size]), ?_⟩
        rw [hid]
        exact UInt16.add_zero _
      rw [← CommandQueue.ids_handOver hcallbacks _ false] at hfirst
      obtain ⟨request, hrequest, hsame⟩ := List.mem_map.1 hfirst
      have hpending := CommandQueue.isPending_handOver queued.queue queued.tracker.nextId false
        request (Array.mem_toList_iff.1 hrequest)
      refine List.length_pos_of_mem (List.mem_filter.2 ⟨hrequest, ?_⟩)
      rw [hsame, hpending, beq_self_eq_true, Bool.true_and]
    next => exact Nat.zero_le _

/-- A session in which answers are received and nothing has been submitted. -/
def listening : Engine RoomyTransport where
  transport := {}
  tracker := { receiving := true }

/-- One request, then as many as there are other identifiers, and then one more, which waits under
the identifier of the first. -/
theorem not_distinct_wrapped :
    ¬ (listening.after (batch 1 ++ batch 65535 ++ batch 1)).Distinct := by
  intro hdistinct
  have hidle : listening.Idle := ⟨rfl, rfl, rfl⟩
  obtain ⟨hone, hnext, hfirst⟩ := hidle.sent 1 (by omega) (by omega)
  obtain ⟨hmany, hwrapped, hkept⟩ := hone.sent 65535 (by omega) (by omega)
  obtain ⟨-, -, hlast⟩ := hmany.sent 1 (by omega) (by omega)
  have hstart : 0 = listening.tracker.nextId := rfl
  -- After as many requests as there are identifiers the first one comes again.
  have hagain : 0 = ((listening.after (batch 1)).after (batch 65535)).tracker.nextId := by
    rw [hwrapped, hnext]
    rfl
  have hbefore := hfirst 0
  have hstill := Nat.le_trans (Nat.le_add_right _ _) (hkept 0)
  have hafter := hlast 0
  have htogether := hdistinct 0
  rw [if_pos hstart] at hbefore
  rw [if_pos hagain] at hafter
  rw [after_append, after_append] at htogether
  omega

end Engine

end I3cHost
