import Mathlib.Data.List.Infix
import I3cHost.Proofs.Session.QueueCalls
import I3cHost.Transport.Scripted

/-!
# What the submissions of a session have sent

From the outcomes of the calls about the queue one can tell which commands wait to be sent and which
identifiers have been given out (`Books`). The session agrees with these books at all times, so a
submission that succeeds sends exactly the commands that wait, and the identifiers that all
submissions return count up from zero (`agrees_through`, `submitted_waiting`). What fails in
between, and on whatever ground, has no part in either.
-/

namespace I3cHost

/-- What can be told from the outcomes of calls about the queue. -/
structure Books (τ : Type) where
  /-- The commands that were accepted and since then neither sent nor dropped, oldest first, as they
  were accepted but without callbacks. -/
  waiting : List (Command (Hook τ)) := []
  /-- The identifiers that were returned, oldest first. -/
  ids : List UInt16 := []

namespace Books

variable {τ : Type} [Transport τ]

/-- What is noted down of a call. -/
def note (books : Books τ) (made : QueueCall τ) : Books τ :=
  match made.request with
  | .enqueue command copies =>
      match made.outcome with
      | .done => { books with
          waiting := books.waiting ++ List.replicate copies
            (Command.silent { command with settings := made.before.settings }) }
      | _ => books
  | .clear => { books with waiting := [] }
  | .submit _ =>
      match made.outcome with
      | .submitted ids => { waiting := [], ids := books.ids ++ ids }
      | _ => books
  | _ => books

/-- The books of some calls, oldest first. -/
def of (calls : List (QueueCall τ)) : Books τ :=
  calls.foldl note {}

end Books

namespace Engine

variable {τ : Type} {engine : Engine τ} {books : Books τ}

/-- A session agrees with the books. -/
structure Agrees (books : Books τ) (engine : Engine τ) : Prop where
  waiting : engine.queued = books.waiting
  faultless : ∀ command ∈ engine.queue.commands, command.fault? = none
  ids : books.ids = (List.range books.ids.length).map UInt16.ofNat
  nextId : engine.tracker.nextId = UInt16.ofNat books.ids.length

/-- As many commands are queued with callbacks as without. -/
theorem length_queued (engine : Engine τ) : engine.queued.length = engine.queue.size := by
  simp [queued, CommandQueue.size]

/-- Block by block the queued commands are carried. -/
theorem carries_blocks (h : ∀ command ∈ engine.queue.commands, command.fault? = none)
    (dependent : Bool) :
    List.Forall₂ CommandBlock.Carries (engine.blocks dependent) engine.queued := by
  refine List.forall₂_iff_get.2 ⟨by rw [length_blocks, length_queued], fun index hblock _ ↦ ?_⟩
  rw [length_blocks] at hblock
  have hfault : engine.queue.commands[index].silent.fault? = none :=
    h engine.queue.commands[index] (Array.getElem_mem hblock)
  simp only [blocks, queued, List.get_eq_getElem, Array.getElem_toList, Array.getElem_mapIdx,
    List.getElem_map]
  exact Command.carries_block hfault

/-- Withdrawing only gives commands their callbacks back. -/
theorem queued_withdrawQueued (first : UInt16) (engine : Engine τ) :
    (engine.withdrawQueued first).queued = engine.queued := by
  apply List.ext_getElem?
  intro index
  simp only [queued, queue_withdrawQueued, List.getElem?_map, Array.getElem?_toList,
    CommandQueue.getElem?_takeBack, Option.map_map]
  rfl

/-- Handing callbacks over leaves the commands queued. -/
theorem queued_trackQueued (first : UInt16) (dependent : Bool) (engine : Engine τ) :
    (engine.trackQueued first dependent).queued = engine.queued := by
  simp only [queued, queue_trackQueued, CommandQueue.handOver, Array.toList_map, List.map_map]
  rfl

/-- Nothing is wrong with a command whatever its callback. -/
theorem faultless_iff_queued : (∀ command ∈ engine.queue.commands, command.fault? = none) ↔
    ∀ command ∈ engine.queued, command.fault? = none := by
  simp only [queued, List.mem_map, Array.mem_toList_iff, forall_exists_index, and_imp,
    forall_apply_eq_imp_iff₂]
  rfl

/-- Identifiers go on where the ones before ended. -/
theorem ids_ofNat (queue : CommandQueue (Hook τ)) (count : Nat) :
    (List.range count).map UInt16.ofNat ++ queue.ids (UInt16.ofNat count) =
      (List.range (count + queue.size)).map UInt16.ofNat := by
  rw [List.range_add, List.map_append, List.map_map]
  congr 1
  refine List.map_congr_left fun index _ ↦ ?_
  rw [CommandQueue.idAt, Function.comp_apply, UInt16.ofNat_add]

namespace Agrees

variable (h : Agrees books engine)

include h

/-- The books are about what is queued and which identifier is next. -/
theorem of_queued {after : Engine τ} (hqueued : after.queued = engine.queued)
    (hnextId : after.tracker.nextId = engine.tracker.nextId) : Agrees books after where
  waiting := hqueued.trans h.waiting
  faultless := faultless_iff_queued.2 (hqueued ▸ faultless_iff_queued.1 h.faultless)
  ids := h.ids
  nextId := hnextId.trans h.nextId

/-- The books are about the stock. -/
theorem of_stock {after : Engine τ} (hstock : after.stock = engine.stock) : Agrees books after :=
  h.of_queued (congrArg Prod.fst hstock) (congrArg (·.2.1) hstock)

/-- When the queue is cleared nothing waits to be sent. -/
theorem clear : Agrees { books with waiting := [] } { engine with queue := {} } where
  waiting := rfl
  faultless _ hcommand := absurd hcommand (Array.not_mem_empty _)
  ids := h.ids
  nextId := h.nextId

/-- Commands that are accepted are queued with the settings of the session. -/
theorem enqueue {command : Command (Hook τ)} {copies : Nat} (hfault : 0 < copies →
      engine.queue.fault? { command with settings := engine.settings } = none) :
    Agrees { books with
        waiting := books.waiting ++
          List.replicate copies (Command.silent { command with settings := engine.settings }) }
      { engine with queue := ⟨engine.queue.commands ++
        Array.replicate copies { command with settings := engine.settings }⟩ } where
  waiting := by
    simp [queued, ← h.waiting]
  faultless other hother := by
    rcases Array.mem_append.1 hother with hqueued | hcopy
    · exact h.faultless other hqueued
    · obtain ⟨hcopies, rfl⟩ := Array.mem_replicate.1 hcopy
      exact CommandQueue.fault?_eq_none_of_push
        (CommandQueue.push_eq_ok_iff.2 ⟨hfault (Nat.pos_of_ne_zero hcopies), rfl⟩)
  ids := h.ids
  nextId := h.nextId

/-- Which identifiers are next depends on the books only. -/
theorem ids_eq {other : Engine τ} (hother : Agrees books other) :
    engine.queue.ids engine.tracker.nextId = other.queue.ids other.tracker.nextId := by
  rw [CommandQueue.ids, CommandQueue.ids, ← length_queued, ← length_queued, h.waiting,
    hother.waiting, h.nextId, hother.nextId]

/-- Commands that have been sent have used up as many identifiers. -/
theorem conclude : Agrees
    { waiting := [], ids := books.ids ++ engine.queue.ids engine.tracker.nextId }
    engine.concludeQueued where
  waiting := rfl
  faultless _ hcommand := absurd hcommand (Array.not_mem_empty _)
  ids := by
    rw [List.length_append, CommandQueue.length_ids, h.nextId, ← ids_ofNat, ← h.ids]
  nextId := by
    show engine.tracker.nextId + UInt16.ofNat engine.queue.size = _
    rw [List.length_append, CommandQueue.length_ids, UInt16.ofNat_add, h.nextId]

end Agrees

section Calls

variable [Transport τ] {turn : Turn τ} {dependent : Bool} {allowed : Hook τ → Prop}
  {made : QueueCall τ}

/-- A submission that succeeds empties the queue and uses up as many identifiers. One that fails
leaves the commands queued and uses up none. -/
theorem Agrees.submit (h : Agrees books engine) (hexclusive : engine.Exclusive turn dependent) :
    (∃ ids after, (Engine.submit turn dependent).exec engine = (.ok ids, after) ∧
      Agrees { waiting := [], ids := books.ids ++ ids } after) ∨
    ∃ error after, (Engine.submit turn dependent).exec engine = (.error error, after) ∧
      Agrees books after := by
  have hprepared := h.of_stock hexclusive.query
  obtain ⟨error, after, hprepare, hsubmit⟩ | ⟨bytes, opened, hprepare, hsubmit⟩ :=
    exec_submit_cases turn dependent engine
  · rw [hprepare] at hprepared
    exact .inr ⟨error, after, hsubmit, hprepared⟩
  · rw [hprepare] at hprepared
    have hsent : Agrees books
        ((opened.trackQueued engine.tracker.nextId dependent).sent bytes) :=
      hprepared.of_queued (queued_trackQueued engine.tracker.nextId dependent opened) rfl
    have htransferred := hsent.of_stock (hexclusive.transfer bytes opened hprepare)
    obtain hsubmit | ⟨error, hsubmit⟩ := hsubmit
    · refine .inl ⟨_, _, hsubmit, ?_⟩
      rw [← htransferred.ids_eq h]
      exact htransferred.conclude
    · exact .inr ⟨error, _, hsubmit, htransferred.of_queued (queued_withdrawQueued _ _) rfl⟩

/-- A submission that succeeds makes one transfer, which carries the queued commands block by block
under the identifiers that are returned. -/
theorem Exclusive.transfer_of_submit (h : engine.Exclusive turn dependent)
    (hfaultless : ∀ command ∈ engine.queue.commands, command.fault? = none) {ids : List UInt16}
    {after : Engine τ} (hsubmit : (submit turn dependent).exec engine = (.ok ids, after)) :
    ∃ bytes blocks, after.commandTransfers = engine.commandTransfers ++ [bytes] ∧
      BulkRequest.decode bytes = .ok (.regular blocks) ∧
      List.Forall₂ CommandBlock.Carries blocks engine.queued ∧ ids = blocks.map (·.id) := by
  obtain ⟨error, _, -, hfails⟩ | ⟨bytes, opened, hprepare, hsucceeds | ⟨error, hfails⟩⟩ :=
    exec_submit_cases turn dependent engine
  · cases hfails.symm.trans hsubmit
  · cases hsucceeds.symm.trans hsubmit
    have hquery := h.query
    rw [hprepare] at hquery
    obtain rfl := Except.ok.inj ((toBytes_request hfaultless dependent).symm.trans
      (ready_of_exec_prepare hprepare).written)
    have hdecode := BulkRequest.decode_layout (coherent_blocks hfaultless dependent)
    refine ⟨_, engine.blocks dependent, ?_, hdecode, carries_blocks hfaultless dependent,
      engine.ids_eq_map_blocks dependent⟩
    have hcarries : carriesCommands (BulkRequest.layout (engine.blocks dependent)) = true := by
      rw [carriesCommands, hdecode]
    calc (opened.transferred turn engine.tracker.nextId dependent _).commandTransfers
      _ = ((opened.trackQueued engine.tracker.nextId dependent).sent _).commandTransfers :=
          congrArg (·.2.2) (h.transfer _ opened hprepare)
      _ = opened.commandTransfers ++ [_].filter carriesCommands := commandTransfers_sent _ _
      _ = engine.commandTransfers ++ [BulkRequest.layout (engine.blocks dependent)] := by
          rw [List.filter_cons_of_pos hcarries, show opened.commandTransfers = _ from
            congrArg (·.2.2) hquery]
          rfl
  · cases hfails.symm.trans hsubmit

/-- What was sent stays sent, whatever comes of a submission. -/
theorem Exclusive.prefix_of_submit (h : engine.Exclusive turn dependent) :
    engine.commandTransfers <+: ((submit turn dependent).exec engine).2.commandTransfers := by
  have hquery : ((prepare turn dependent).exec engine).2.commandTransfers =
      engine.commandTransfers := congrArg (·.2.2) h.query
  rw [← hquery]
  obtain ⟨error, after, hprepare, hsubmit⟩ | ⟨bytes, opened, hprepare, hsubmit⟩ :=
    exec_submit_cases turn dependent engine
  · rw [hprepare, hsubmit]
  · have htransferred :
        (opened.transferred turn engine.tracker.nextId dependent bytes).commandTransfers =
          opened.commandTransfers ++ [bytes].filter carriesCommands :=
      (congrArg (·.2.2) (h.transfer bytes opened hprepare)).trans (commandTransfers_sent bytes _)
    have hafter : ((submit turn dependent).exec engine).2.commandTransfers =
        (opened.transferred turn engine.tracker.nextId dependent bytes).commandTransfers := by
      obtain hsubmit | ⟨error, hsubmit⟩ := hsubmit <;> rw [hsubmit] <;> rfl
    rw [hprepare, hafter, htransferred]
    exact List.prefix_append _ _

/-- What is noted down of a call keeps the books right. -/
theorem Agrees.note (h : Agrees books made.before) (hmade : made.Sound allowed) :
    Agrees (books.note made) made.after := by
  obtain ⟨caller, request, before⟩ := made
  obtain ⟨command, copies, rfl⟩ | rfl | ⟨dependent, rfl⟩ :=
    Call.exists_of_handlesQueue hmade.handlesQueue
  · show Agrees (match (enqueueCopies command copies before).1 with
      | .done => _
      | _ => _) (enqueueCopies command copies before).2
    obtain ⟨fault, -, heq⟩ | ⟨hfault, heq⟩ := enqueueCopies_cases command copies before
    · rw [heq]
      exact h
    · rw [heq]
      exact h.enqueue hfault
  · exact h.clear
  · rw [Books.note, QueueCall.outcome, QueueCall.after, exec_perform_submit_eq]
    obtain ⟨ids, after, hsubmit, hafter⟩ | ⟨error, after, hsubmit, hafter⟩ :=
      h.submit (hmade.exclusive dependent rfl)
    · rw [hsubmit]
      exact hafter
    · rw [hsubmit]
      exact hafter

/-- Queueing commands and clearing the queue sends nothing. -/
theorem commandTransfers_of_not_submit (hmade : made.Sound allowed)
    (h : ∀ dependent, made.request ≠ .submit dependent) :
    made.after.commandTransfers = made.before.commandTransfers := by
  obtain ⟨caller, request, before⟩ := made
  obtain ⟨command, copies, rfl⟩ | rfl | ⟨dependent, rfl⟩ :=
    Call.exists_of_handlesQueue hmade.handlesQueue
  · show (enqueueCopies command copies before).2.commandTransfers = before.commandTransfers
    obtain ⟨accepted, -, heq, -⟩ := enqueueCopies_eq command copies before
    rw [heq]
    rfl
  · rfl
  · exact absurd rfl (h dependent)

/-- Only a submission returns identifiers, and it sends what waits according to the books. -/
theorem Agrees.transfer (h : Agrees books made.before) (hmade : made.Sound allowed)
    {ids : List UInt16} (houtcome : made.outcome = .submitted ids) :
    ∃ bytes blocks, made.after.commandTransfers = made.before.commandTransfers ++ [bytes] ∧
      BulkRequest.decode bytes = .ok (.regular blocks) ∧
      List.Forall₂ CommandBlock.Carries blocks books.waiting ∧ ids = blocks.map (·.id) := by
  obtain ⟨caller, request, before⟩ := made
  obtain ⟨command, copies, rfl⟩ | rfl | ⟨dependent, rfl⟩ :=
    Call.exists_of_handlesQueue hmade.handlesQueue
  · change (enqueueCopies command copies before).1 = .submitted ids at houtcome
    obtain ⟨fault, -, heq⟩ | ⟨-, heq⟩ := enqueueCopies_cases command copies before
    · rw [heq] at houtcome
      cases houtcome
    · rw [heq] at houtcome
      cases houtcome
  · cases houtcome
  · rw [QueueCall.outcome, exec_perform_submit_eq] at houtcome
    rw [QueueCall.after, exec_perform_submit_eq, ← h.waiting]
    rcases hsubmit : (Engine.submit (QueueCall.turn ⟨caller, .submit dependent, before⟩)
      dependent).exec before with ⟨error | returned, after⟩
    · rw [hsubmit] at houtcome
      cases houtcome
    · rw [hsubmit] at houtcome
      cases houtcome
      exact (hmade.exclusive dependent rfl).transfer_of_submit h.faultless hsubmit

/-- The books are right after any calls about the queue. -/
theorem agrees_through {calls : List (QueueCall τ)} {last : Engine τ} (h : Agrees books engine)
    (hthrough : engine.Through calls last) (hcalls : ∀ made ∈ calls, made.Sound allowed) :
    Agrees (calls.foldl Books.note books) last := by
  induction calls generalizing engine books with
  | nil => exact h.of_stock hthrough
  | cons made calls ih =>
      obtain ⟨hmade, hlater⟩ := List.forall_mem_cons.1 hcalls
      exact ih ((h.of_stock hthrough.1).note hmade) hthrough.2 hlater

/-- The books are right before each of the calls in the course of which a session has come into a
state. -/
theorem Explains.agrees_before {session last : Engine τ} {own before later : List (QueueCall τ)}
    (h : session.Explains allowed own (before ++ made :: later) last) (hstart : Agrees {} session) :
    Agrees (Books.of before) made.before :=
  agrees_through hstart h.through.prefix fun other hother ↦
    h.sound other (List.mem_append_left _ hother)

omit [Transport τ] in
/-- Nothing is noted down when a session is opened. -/
theorem agrees_ofTransport {transport : τ} {options : SessionOptions} {session : Engine τ}
    (h : Session.ofTransport transport options = .ok session) : Agrees {} session := by
  obtain ⟨table, rfl⟩ := exists_of_ofTransport h
  exact ⟨rfl, fun _ hcommand ↦ absurd hcommand (Array.not_mem_empty _), rfl, rfl⟩

/-- In every history of a session, with any callbacks, as long as those that run while the
application submits leave the queue alone: the calls about the queue, those of the application and
those of callbacks if any make such calls, come one after the other. Each submission that succeeds
makes one transfer, which carries exactly the commands that were accepted since the queue was last
cleared or sent, in order, each with the settings that were in force when it was accepted, and
nothing but submissions sends commands. These commands are what is queued in the end, and the
identifiers that all submissions have returned count up from zero, modulo 65536. -/
theorem submitted_waiting {transport : τ} {options : SessionOptions} {session : Engine τ}
    (h : Session.ofTransport transport options = .ok session) {events : List (Event τ)}
    (hclosed : HookClosed allowed) (hhooks : ∀ event ∈ events, ∀ hook ∈ event.hooks, allowed hook)
    (hstock : ∀ before event later, events = before ++ event :: later →
      event.LeavesStock (session.after before)) :
    ∃ calls, session.Explains allowed (session.ownCalls events) calls (session.after events) ∧
      ((∀ hook, allowed hook → hook.SparesQueue) → calls = session.ownCalls events) ∧
      (∀ before made later, calls = before ++ made :: later →
        (∀ ids, made.outcome = .submitted ids → ∃ bytes blocks,
          made.after.commandTransfers = made.before.commandTransfers ++ [bytes] ∧
          BulkRequest.decode bytes = .ok (.regular blocks) ∧
          List.Forall₂ CommandBlock.Carries blocks (Books.of before).waiting ∧
          ids = blocks.map (·.id)) ∧
        ((∀ dependent, made.request ≠ .submit dependent) →
          made.after.commandTransfers = made.before.commandTransfers)) ∧
      (session.after events).queued = (Books.of calls).waiting ∧
      (Books.of calls).ids = (List.range (Books.of calls).ids.length).map UInt16.ofNat := by
  have hstart : Agrees {} session := agrees_ofTransport h
  obtain ⟨calls, hcalls⟩ :=
    exists_explains hclosed (hooksIn_ofTransport h allowed) hhooks hstock
  have hagrees := agrees_through hstart hcalls.through hcalls.sound
  refine ⟨calls, hcalls, hcalls.eq_own, ?_, hagrees.waiting, hagrees.ids⟩
  rintro before made later rfl
  have hmade := hcalls.sound made (List.mem_append_right before List.mem_cons_self)
  exact ⟨fun ids ↦ (hcalls.agrees_before hstart).transfer hmade,
    commandTransfers_of_not_submit hmade⟩

end Calls

/-- A session with a device that refuses the first transfer. -/
def retrying : Engine ScriptedTransport where
  transport :=
    { control := fun
        | .getBufferAvailable => [{ data := some [0, 16, 0, 0] }]
        | .getI3cCapability =>
            [{ data := some [16, 0, 1, 0, 1, 1, 1, 0, 6, 0, 0, 0, 32, 0, 0, 0] }]
        | _ => []
      bulkOut := [{ error := some .stall }, {}] }

/-- A command whose callback queues another. -/
def relay : Command (Hook ScriptedTransport) where
  kind := .regular
  target := 8
  transfer := .read 4
  callback := some { label := "relay", followUp := [.enqueue reader] }

/-- A command is not sent at the first attempt. When it is answered the settings have changed. -/
def relayed : List (Event ScriptedTransport) :=
  [.call .bringUp, .call (.enqueue relay), .call (.submit false), .call (.submit false),
    .call (.setSettings { modeInfo := 1 }),
    .completion (.bulkIn (.ok [0, 0, 0, 0, 0, 0, 1, 0, 0, 0, 0, 0]))]

/-- A device that follows a script hands out nothing during transfers if no reply says so. -/
theorem undisturbed_of_scripted {engine : Engine ScriptedTransport}
    (h : engine.transport.bulkOut.all (·.early.isEmpty) = true) (dependent : Bool) :
    engine.Undisturbed dependent := by
  have hearly (bytes : Bytes) : (engine.asked.sent bytes).transport.early = false := by
    show (!(ScriptedTransport.nextReply engine.transport.bulkOut).1.early.isEmpty) = false
    rcases hreplies : engine.transport.bulkOut with _ | ⟨reply, _ | ⟨other, replies⟩⟩
    · rfl
    · simpa [ScriptedTransport.nextReply, hreplies] using h
    · rw [hreplies, List.all_cons, Bool.and_eq_true] at h
      simpa [ScriptedTransport.nextReply] using h.1
  refine ⟨rfl, fun bytes _ ↦ ?_⟩
  show (if (engine.asked.sent bytes).transport.early then _ else none) = none
  rw [hearly]
  rfl

/-- A history over a transport that follows a script leaves the requests alone if nothing is
delivered during transfers, and initialization comes first, when no callback uses the queue. -/
theorem leavesRequests_of_scripted {session : Engine ScriptedTransport}
    (h : session.HooksSpareQueue) {events : List (Event ScriptedTransport)}
    (hfirst : .call .bringUp ∉ events.tail)
    (hearly : ∀ before ∈ events.inits,
      (session.after before).transport.bulkOut.all (·.early.isEmpty) = true) :
    ∀ before event later, events = before ++ event :: later →
      event.LeavesRequests (session.after before) := by
  intro before event later heq
  unfold Event.LeavesRequests
  split
  next dependent =>
    have hbefore : before ∈ events.inits := (List.mem_inits _ _).2 ⟨_, heq.symm⟩
    exact (undisturbed_of_scripted (hearly before hbefore) dependent).holdsQueue
      Turn.ordinary_application
  next =>
    cases before with
    | nil => exact .inl h.between_bringUp
    | cons first before => exact absurd (by simp [heq]) hfirst
  next => trivial

/-- After the first answer the queue holds the command of the callback, with the settings that the
application had changed to. -/
theorem submitted_relayed :
    Session.ofTransport retrying.transport {} = .ok retrying ∧
      (retrying.ownCalls relayed).length = 3 ∧
      (retrying.after relayed).queued.map (·.settings.modeInfo) = [1] ∧
      ∃ calls, retrying.Explains (fun _ ↦ True) (retrying.ownCalls relayed) calls
          (retrying.after relayed) ∧
        (retrying.after relayed).queued = (Books.of calls).waiting := by
  have hopened : Session.ofTransport retrying.transport {} = .ok retrying := rfl
  have hown : (retrying.ownCalls relayed).length = 3 := by decide +kernel
  have hqueued : (retrying.after relayed).queued.map (·.settings.modeInfo) = [1] := by
    decide +kernel
  have hearly : ∀ before ∈ relayed.inits,
      (retrying.after before).transport.bulkOut.all (·.early.isEmpty) = true := by
    decide +kernel
  generalize retrying = session at hopened hown hqueued hearly ⊢
  have hspare : session.HooksSpareQueue :=
    (hooksIn_ofTransport hopened Hook.SparesQueue).hooksSpareQueue fun _ ↦ id
  have hclosed : HookClosed fun _ : Hook ScriptedTransport ↦ True := fun _ _ _ _ _ _ ↦ trivial
  have hstock (before) (event : Event ScriptedTransport) (later)
      (heq : relayed = before ++ event :: later) : event.LeavesStock (session.after before) :=
    leavesStock_of_leavesRequests
      (leavesRequests_of_scripted hspare (by simp [relayed]) hearly before event later heq)
  obtain ⟨calls, hcalls, -, -, hwaiting, -⟩ := submitted_waiting hopened hclosed
    (fun _ _ _ _ ↦ trivial) hstock
  exact ⟨hopened, hown, hqueued, calls, hcalls, hwaiting⟩

end Engine

end I3cHost
