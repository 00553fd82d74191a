import I3cHost.Proofs.Command.Order
import I3cHost.Proofs.Session.Submissions

/-!
# Commands are queued and sent by the rules

A command is only checked against the last one that is queued, and clearing, submitting and taking
callbacks back change the queue as well. Still the queue keeps the rules whatever happens to a
session, and so does every transfer that carries commands, whoever has submitted them
(`keepsRules_after`).
-/

namespace I3cHost

/-- A transfer to the device carries no commands, or commands whose descriptors keep the rules. -/
def LawfulTransfer (bytes : Bytes) : Prop :=
  (∃ payload, BulkRequest.decode bytes = .ok (.vendorSpecific payload)) ∨
    ∃ blocks commands, BulkRequest.decode bytes = .ok (.regular blocks) ∧
      blocks.mapM (·.descriptor.traits) = .ok commands ∧ Lawful commands

/-- A vendor-specific transfer carries no commands. -/
theorem lawfulTransfer_vendorSpecific {payload bytes : Bytes}
    (h : Message.toBytes (BulkRequest.vendorSpecific payload) = .ok bytes) :
    LawfulTransfer bytes := by
  obtain rfl := Except.ok.inj ((BulkRequest.toBytes_vendorSpecific payload).symm.trans h)
  exact .inl ⟨_, BulkRequest.decode_vendorSpecific _⟩

namespace Engine

variable {τ : Type} {engine last : Engine τ} {dependent : Bool}

/-- What is queued keeps the rules, and so does whatever was sent. -/
structure KeepsRules (engine : Engine τ) : Prop where
  faultless : ∀ command ∈ engine.queue.commands, command.fault? = none
  queued : Lawful engine.queue.traits
  sent : ∀ bytes ∈ engine.transfers, LawfulTransfer bytes

/-- The rules have nothing to do with callbacks. -/
theorem traits_queue (engine : Engine τ) :
    engine.queue.traits = engine.queued.map Command.traits := by
  simp only [CommandQueue.traits, Engine.queued, List.map_map]
  rfl

/-- The request for commands that nothing is wrong with decodes to blocks whose descriptors declare
the traits of the commands. -/
theorem exists_traits_of_written (h : ∀ command ∈ engine.queue.commands, command.fault? = none)
    {bytes : Bytes} (hwritten : Message.toBytes
      (engine.queue.request engine.tracker.nextId dependent) = .ok bytes) :
    ∃ blocks, BulkRequest.decode bytes = .ok (.regular blocks) ∧
      blocks.mapM (·.descriptor.traits) = .ok engine.queue.traits := by
  obtain rfl := Except.ok.inj ((toBytes_request h dependent).symm.trans hwritten)
  refine ⟨engine.blocks dependent, BulkRequest.decode_layout (coherent_blocks h dependent), ?_⟩
  rw [traits_blocks (carries_blocks h dependent), traits_queue]

/-- A transfer that is made is the latest one. -/
theorem transfers_sent [Transport τ] (bytes : Bytes) (engine : Engine τ) :
    (engine.sent bytes).transfers = engine.transfers ++ [bytes] :=
  transfers_call (.bulkOut bytes) _ engine

namespace KeepsRules

variable (h : engine.KeepsRules)

include h

/-- Only the queued commands, their callbacks apart, and the transfers matter. -/
theorem of_queued (hqueued : last.queued = engine.queued)
    (htransfers : last.transfers = engine.transfers) : last.KeepsRules where
  faultless := faultless_iff_queued.2 (hqueued ▸ faultless_iff_queued.1 h.faultless)
  queued := by
    rw [traits_queue, hqueued, ← traits_queue]
    exact h.queued
  sent := htransfers ▸ h.sent

/-- An empty queue keeps the rules. -/
theorem clear : { engine with queue := {} }.KeepsRules where
  faultless _ hcommand := absurd hcommand (Array.not_mem_empty _)
  queued := lawful_nil
  sent := h.sent

/-- A command is queued only if the rules allow it behind those before it. -/
theorem enqueue (command : Command (Hook τ)) :
    (Engine.enqueue command engine).2.KeepsRules := by
  unfold Engine.enqueue
  dsimp only
  split
  next => exact h
  next hfault =>
    have hordered := ((CommandQueue.fault?_eq_none_iff h.queued).1 hfault).1
    refine ⟨fun other hother ↦ ?_, hordered, h.sent⟩
    rcases Array.mem_push.1 hother with hqueued | rfl
    · exact h.faultless other hqueued
    · exact CommandQueue.fault?_eq_none_of_push (CommandQueue.push_eq_ok_iff.2 ⟨hfault, rfl⟩)

/-- Any number of copies of a command, up to the first one that the rules do not allow. -/
theorem enqueueCopies (command : Command (Hook τ)) (copies : Nat) :
    (Engine.enqueueCopies command copies engine).2.KeepsRules := by
  induction copies generalizing engine with
  | zero => exact h
  | succ copies ih =>
      have hnext := h.enqueue command
      unfold Engine.enqueueCopies
      split
      next queued hqueued =>
        rw [hqueued] at hnext
        exact ih hnext
      next refusal refused _ hrefused =>
        rw [hrefused] at hnext
        exact hnext

/-- Making a transfer that keeps the rules. -/
theorem sent_of_lawful [Transport τ] {bytes : Bytes} (hbytes : LawfulTransfer bytes) :
    (engine.sent bytes).KeepsRules where
  faultless := h.faultless
  queued := h.queued
  sent := by
    rw [transfers_sent]
    exact List.forall_mem_append.2 ⟨h.sent, List.forall_mem_singleton.2 hbytes⟩

end KeepsRules

/-- The rules are about queue and transfers, and so survive what becomes of answers. -/
theorem besideAnswers_keepsRules : BesideAnswers (KeepsRules : Engine τ → Prop) :=
  fun h hqueue _ htransfers _ ↦
    h.of_queued (congrArg (·.commands.toList.map Command.silent) hqueue) htransfers

/-- The rules do not depend on how far initialization has come. -/
theorem ofDealings_keepsRules : OfDealings (KeepsRules : Engine τ → Prop) := by
  intro before after hdealings h
  have hledger := congrArg Prod.fst (congrArg Prod.fst hdealings)
  exact h.of_queued (congrArg (·.1.commands.toList.map Command.silent) hledger)
    (congrArg Prod.snd hdealings)

variable [Transport τ] {turn : Turn τ}

section Calls

variable (hturn : ∀ moment, EngineM.Preserves KeepsRules (turn moment))

include hturn

/-- A submission sends what is queued, and leaves nothing queued that was not so before. -/
theorem keepsRules_submit (h : engine.KeepsRules) :
    ((submit turn dependent).exec engine).2.KeepsRules := by
  apply ofDealings_keepsRules.permanent.stable.submit hturn h
  · exact fun _ _ _ hopened ↦ hopened.of_queued (queued_trackQueued _ _ _) rfl
  · -- What is sent was written before the device was asked for room.
    intro bytes opened hprepare htracked
    obtain ⟨blocks, hdecode, htraits⟩ :=
      exists_traits_of_written h.faultless (ready_of_exec_prepare hprepare).written
    exact htracked.sent_of_lawful (.inr ⟨blocks, _, hdecode, htraits, h.queued⟩)
  · exact fun _ _ _ htransferred ↦ htransferred.clear.of_queued rfl rfl
  · exact fun _ _ _ htransferred ↦ htransferred.of_queued (queued_withdrawQueued _ _) rfl

/-- Any call, whoever makes it. -/
theorem keepsRules_perform (call : Call (Hook τ) τ) :
    EngineM.Preserves KeepsRules (perform turn call) := by
  intro engine h
  have hpermanent : Permanent (KeepsRules : Engine τ → Prop) := ofDealings_keepsRules.permanent
  refine hpermanent.stable.perform_cases hturn h ?bringUp ?submitVendor ?enqueue ?clear ?submit
    ?takeRetained ?onVendor
  case bringUp =>
    exact fun _ ↦ hpermanent.runBringUp hturn
      (hpermanent.durable.startBulkIn hturn fun _ _ hengine ↦ hengine.of_queued rfl rfl)
  case submitVendor =>
    exact fun payload _ ↦ hpermanent.stable.submitVendor hturn payload
      fun bytes engine hbytes hengine ↦
        hengine.sent_of_lawful (lawfulTransfer_vendorSpecific hbytes)
  case enqueue => exact fun command copies _ ↦ h.enqueueCopies command copies
  case clear => exact fun _ ↦ h.clear
  case submit => exact fun dependent _ ↦ keepsRules_submit hturn h
  case takeRetained =>
    intro id _
    unfold takeRetained
    split
    next => exact h.of_queued rfl rfl
    next => exact h
  case onVendor => exact fun callback _ ↦ h.of_queued rfl rfl

/-- Whatever completions there are, and whatever hooks do. -/
theorem sustained_keepsRules : Sustained turn fun _ ↦ KeepsRules := by
  have hsustained : Sustained turn (HooksInWith (fun _ ↦ True) KeepsRules) :=
    sustained_hooksInWith besideAnswers_keepsRules.beside fun _ _ call _ _ ↦
      hooksInWith_anyone ▸ keepsRules_perform hturn call
  rwa [hooksInWith_anyone] at hsustained

end Calls

/-- Whatever an application lets happen while it waits keeps the rules. -/
theorem keepsRules_application (moment : Moment) :
    EngineM.Preserves KeepsRules ((Turn.application : Turn τ) moment) :=
  Sustained.application (fun _ hturn ↦ sustained_keepsRules (hturn [])) [] moment

/-- Every call, completion and failed wait keeps the rules. -/
theorem keepsRules_happen (event : Event τ) : EngineM.Preserves KeepsRules (happen event) := by
  have hbusy : Sustained (Turn.busy : Turn τ) fun _ ↦ KeepsRules :=
    sustained_keepsRules fun _ ↦ .pure _
  cases event with
  | call call => exact keepsRules_perform keepsRules_application call
  | completion completion => exact hbusy.happen_completion completion
  | failure => exact hbusy.happen_failure

/-- Whatever happens to a session, the rules are kept. -/
theorem KeepsRules.through (h : engine.KeepsRules) (events : List (Event τ)) :
    (engine.after events).KeepsRules :=
  after_induction (P := fun _ ↦ KeepsRules) h fun _ event _ _ ↦ keepsRules_happen event _

/-- Transfers have been made, and others since. -/
def HasSent (before : List Bytes) (engine : Engine τ) : Prop :=
  before <+: engine.transfers

section Sent

omit [Transport τ] in
/-- Transfers that were made are not undone by what happens beside submissions. -/
theorem besideAccount_hasSent (before : List Bytes) :
    BesideAccount (HasSent before : Engine τ → Prop) := by
  intro first last h htransfers _
  rwa [HasSent, htransfers]

/-- Making a transfer undoes none of those before it. -/
theorem HasSent.sent {before : List Bytes} (h : engine.HasSent before) (bytes : Bytes) :
    (engine.sent bytes).HasSent before := by
  rw [HasSent, transfers_sent]
  exact h.trans (List.prefix_append _ _)

/-- What was sent stays sent, whatever the application lets happen. -/
theorem hasSent_application (before : List Bytes) (moment : Moment) :
    EngineM.Preserves (HasSent before) ((Turn.application : Turn τ) moment) := by
  have hbeside : BesideAccount (HasSent before : Engine τ → Prop) := besideAccount_hasSent before
  have hpermanent : Permanent (HasSent before : Engine τ → Prop) := by
    refine OfDealings.permanent fun first last hdealings h ↦ ?_
    have htransfers : last.transfers = first.transfers := congrArg Prod.snd hdealings
    rwa [HasSent, htransfers]
  have hsustained (turn : Turn τ)
      (hturn : ∀ (_ : List (TrackedRequest (Hook τ))) moment,
        EngineM.Preserves (HasSent before) (turn moment)) :
      Sustained turn fun _ ↦ HasSent before :=
    sustained_beside hbeside.beside hbeside.sparesOrders (fun bytes _ h ↦ h.sent bytes) (hturn [])
      (hpermanent.runBringUp (hturn []) (hpermanent.durable.startBulkIn (hturn []) fun _ _ h ↦ h))
  exact Sustained.application hsustained [] moment

/-- A submission that succeeds has sent the request that it was ready to send. -/
theorem exists_transfer_of_submit
    (hturn : ∀ before moment, EngineM.Preserves (HasSent before) (turn moment))
    {ids : List UInt16} (h : (submit turn dependent).exec engine = (.ok ids, last)) :
    ∃ meanwhile bytes later, engine.Ready dependent bytes ∧
      last.transfers = engine.transfers ++ meanwhile ++ bytes :: later := by
  obtain ⟨error, failed, -, hsubmit⟩ | ⟨bytes, opened, hprepare, hsubmit | ⟨error, hsubmit⟩⟩ :=
    exec_submit_cases turn dependent engine
  · cases hsubmit.symm.trans h
  · obtain ⟨-, rfl⟩ := Prod.mk.inj (hsubmit.symm.trans h)
    have hstable : Stable (HasSent engine.transfers : Engine τ → Prop) :=
      (BesideAccount.beside (besideAccount_hasSent engine.transfers)).stable
    obtain ⟨meanwhile, hmeanwhile⟩ : opened.HasSent engine.transfers :=
      (hstable.prepare (hturn _) dependent).after List.prefix_rfl hprepare
    have hmade : ((opened.trackQueued engine.tracker.nextId dependent).sent bytes).HasSent
        (opened.transfers ++ [bytes]) := by
      rw [HasSent, transfers_sent]
      exact List.prefix_rfl
    obtain ⟨later, hlater⟩ := hturn _ .bulkOut _ hmade
    refine ⟨meanwhile, bytes, later, ready_of_exec_prepare hprepare, ?_⟩
    rw [hmeanwhile, List.append_cons]
    exact hlater.symm
  · cases hsubmit.symm.trans h

end Sent

/-- Whatever happens to a session that was opened, with commands queued in any order by the
application and by callbacks, some refused, and submitted or cleared at any time: what is queued
keeps the rules, still does with any command that is accepted, and so does every transfer that
carries commands. In particular a submission that succeeds sends a transfer whose descriptors
declare the traits of what was queued. -/
theorem keepsRules_after {transport : τ} {options : SessionOptions} {session : Engine τ}
    (h : Session.ofTransport transport options = .ok session) (events : List (Event τ)) :
    Lawful (session.after events).queue.traits ∧
      (∀ command next, (session.after events).queue.push command = .ok next →
        Lawful next.traits) ∧
      (∀ bytes ∈ (session.after events).transfers, LawfulTransfer bytes) ∧
      ∀ dependent ids last,
        (submit Turn.application dependent).exec (session.after events) = (.ok ids, last) →
        ∃ meanwhile bytes later, last.transfers =
            (session.after events).transfers ++ meanwhile ++ bytes :: later ∧
          ∃ blocks, BulkRequest.decode bytes = .ok (.regular blocks) ∧
            blocks.mapM (·.descriptor.traits) = .ok (session.after events).queue.traits := by
  have hopened : session.KeepsRules := by
    obtain ⟨table, rfl⟩ := exists_of_ofTransport h
    exact ⟨fun _ hcommand ↦ absurd hcommand (Array.not_mem_empty _), lawful_nil,
      List.forall_mem_nil _⟩
  have hkept : (session.after events).KeepsRules := hopened.through events
  refine ⟨hkept.queued, fun command next hpush ↦ ?_, hkept.sent,
    fun dependent ids last hsubmit ↦ ?_⟩
  · obtain ⟨hfault, rfl⟩ := CommandQueue.push_eq_ok_iff.1 hpush
    exact ((CommandQueue.fault?_eq_none_iff hkept.queued).1 hfault).1
  · obtain ⟨meanwhile, bytes, later, hready, htransfers⟩ :=
      exists_transfer_of_submit hasSent_application hsubmit
    exact ⟨meanwhile, bytes, later, htransfers,
      exists_traits_of_written hkept.faultless hready.written⟩

/-- A target reset action that may fail. -/
def resetAction : Command (Hook ScriptedTransport) where
  kind := .ccc 0x2A
  target := broadcastAddress
  transfer := .write [2]
  errorHandling := .doNotTerminateIncludingNack
  callback := some { label := "action" }

/-- The pattern that resets targets. -/
def resetPattern : Command (Hook ScriptedTransport) :=
  { (Command.targetReset : Command (Hook ScriptedTransport)) with
    callback := some { label := "pattern" } }

/-- A target reset pattern is refused at first, and the commands are not sent at the first
attempt. -/
def resetting : List (Event ScriptedTransport) :=
  [.call .bringUp, .call (.enqueue reader), .call (.enqueue resetPattern),
    .call (.enqueue resetAction), .call (.enqueue resetPattern 2), .call (.submit false)]

/-- A reset action and two patterns, queued in order behind a command, are sent as they were
queued. -/
theorem keepsRules_resetting :
    Session.ofTransport retrying.transport {} = .ok retrying ∧
      (retrying.after resetting).queue.traits.map (·.type) =
        [.regular, .cccWithoutDefiningByte, .targetResetPattern, .targetResetPattern] ∧
      Lawful (retrying.after resetting).queue.traits ∧
      ∃ last, (submit Turn.application false).exec (retrying.after resetting) =
          (.ok [0, 1, 2, 3], last) ∧
        ∃ bytes ∈ last.transfers, ∃ blocks, BulkRequest.decode bytes = .ok (.regular blocks) ∧
          blocks.mapM (·.descriptor.traits) = .ok (retrying.after resetting).queue.traits := by
  have hopened : Session.ofTransport retrying.transport {} = .ok retrying := rfl
  have htypes : (retrying.after resetting).queue.traits.map (·.type) =
      [.regular, .cccWithoutDefiningByte, .targetResetPattern, .targetResetPattern] := by
    decide +kernel
  have hsubmit : ((submit Turn.application false).exec (retrying.after resetting)).1 =
      .ok [0, 1, 2, 3] := by
    decide +kernel
  generalize retrying = session at hopened htypes hsubmit ⊢
  obtain ⟨hordered, -, -, htransfer⟩ := keepsRules_after hopened resetting
  generalize session.after resetting = engine at htypes hsubmit hordered htransfer ⊢
  obtain ⟨meanwhile, bytes, later, htransfers, hblocks⟩ :=
    htransfer false _ _ (Prod.ext hsubmit rfl)
  refine ⟨hopened, htypes, hordered, _, Prod.ext hsubmit rfl, bytes, ?_, hblocks⟩
  rw [htransfers]
  exact List.mem_append_right _ List.mem_cons_self

end Engine

end I3cHost
