import I3cHost.Proofs.BringUp.Course
import I3cHost.Proofs.Engine.Oblivious
import I3cHost.Proofs.Session.History
import I3cHost.Transport.Scripted

/-!
# Runs of initialization and completions that come late

The completion of a request that initialization made may come long after the run has ended. If it
comes while the device is not being initialized it has no effect: in a history the completions that
come so can be left out, and no call can tell the difference (`isolated_of_alike`). If it comes
during a later run, that run takes it for the completion of its own request
(`accepted_tardy`).
-/

namespace I3cHost

/-- The capability report of a device that can be a target only. -/
def targetReport : Bytes :=
  [16, 0, 3, 0, 1, 1, 1, 0, 6, 0, 0, 0, 32, 0, 0, 0]

/-- The capability report of a device that can be the controller. -/
def controllerReport : Bytes :=
  [16, 0, 1, 0, 1, 1, 1, 0, 6, 0, 0, 0, 32, 0, 0, 0]

/-- Whether an event is that the event thread deals with the completion of a request that
initialization made, while nobody initializes the device. -/
def Event.isLate {τ : Type} : Event τ → Bool
  | .completion (.control .capabilityReport _) => true
  | .completion (.control .targetListing _) => true
  | _ => false

/-- A history without what comes late. -/
def Event.prompt {τ : Type} (events : List (Event τ)) : List (Event τ) :=
  events.filter (!·.isLate)

namespace Engine

variable {τ : Type} {engine other last : Engine τ}

/-- Two states differ at most in what has been posted. -/
def Alike (engine other : Engine τ) : Prop :=
  ∃ posted, other = engine.withPosted posted

/-- A state differs in nothing from itself. -/
theorem Alike.refl (engine : Engine τ) : engine.Alike engine :=
  ⟨engine.bringUp.posted, rfl⟩

/-- Which of two states is compared with which does not matter. -/
theorem Alike.symm (h : engine.Alike other) : other.Alike engine := by
  obtain ⟨posted, rfl⟩ := h
  exact ⟨engine.bringUp.posted, rfl⟩

/-- States that differ only in posted events do so in a row. -/
theorem Alike.trans (h : engine.Alike other) (hother : other.Alike last) : engine.Alike last := by
  obtain ⟨posted, rfl⟩ := h
  obtain ⟨later, rfl⟩ := hother
  exact ⟨later, rfl⟩

variable [Transport τ]

/-- The completion of a request that initialization made at most leaves an event posted. -/
theorem alike_of_isLate {event : Event τ} (h : event.isLate = true) (engine : Engine τ) :
    engine.Alike ((happen event).exec engine).2 := by
  have hpost (event : InitEvent) : engine.Alike (post event engine).2 := by
    unfold post
    split
    · exact ⟨engine.bringUp.posted ++ [event], rfl⟩
    · exact .refl engine
  unfold Event.isLate at h
  split at h
  next result => cases result <;> exact hpost _
  next result => cases result <;> exact hpost _
  next => cases h

/-- An event leaves alike what was alike before it. -/
theorem Alike.happen (h : engine.Alike other) (event : Event τ) :
    Alike ((happen event).exec engine).2 ((happen event).exec other).2 := by
  have hbusy (moment : Moment) : EngineM.Oblivious ((Turn.busy : Turn τ) moment) := .pure _
  have hevent : EngineM.Oblivious (Engine.happen event) := by
    cases event with
    | call request => exact .bind (oblivious_perform oblivious_application request) fun _ ↦ .pure _
    | completion completion => exact oblivious_complete hbusy completion
    | failure => exact oblivious_failAll hbusy
  obtain ⟨posted, rfl⟩ := h
  obtain ⟨later, hsame⟩ := hevent engine posted
  exact ⟨later, congrArg Prod.snd hsame⟩

/-- What comes late has no effect on the rest of a history, except for posted events. -/
theorem Alike.after (h : engine.Alike other) (events : List (Event τ)) :
    Alike (engine.after events) (other.after (Event.prompt events)) := by
  induction events generalizing engine other with
  | nil => exact h
  | cons event events ih =>
      cases hlate : event.isLate with
      | true =>
          have hprompt : Event.prompt (event :: events) = Event.prompt events :=
            List.filter_cons_of_neg (by simp [hlate])
          rw [hprompt]
          exact ih ((alike_of_isLate hlate engine).symm.trans h)
      | false =>
          have hprompt : Event.prompt (event :: events) = event :: Event.prompt events :=
            List.filter_cons_of_pos (by simp [hlate])
          rw [hprompt]
          exact ih (h.happen event)

/-- A run of initialization is the same whatever was posted before. -/
theorem Alike.exec_bringUp (h : engine.Alike other) :
    engine.accepted = other.accepted ∧
      (Session.call .bringUp).exec engine = (Session.call .bringUp).exec other := by
  obtain ⟨posted, rfl⟩ := h
  exact ⟨rfl, (exec_bringUp_withPosted _ posted engine).symm⟩

/-- A call has the same outcome whatever has been posted. -/
theorem Alike.outcome (h : engine.Alike other) (call : Call (Hook τ) τ) :
    ((Session.call call).exec engine).1 = ((Session.call call).exec other).1 := by
  obtain ⟨posted, rfl⟩ := h
  obtain ⟨later, hsame⟩ := oblivious_perform oblivious_application call engine posted
  exact (congrArg Prod.fst hsame).symm

/-- Two sessions that differ at most in what has been posted, by whichever completions, go through a
history, the one with the completions of requests of initialization that come between calls, and the
other without. Then still they differ at most in what has been posted, so that no call has different
outcomes in them, and a run of initialization accepts the same events in both, has the same result
and leaves no difference between them at all. -/
theorem isolated_of_alike (h : engine.Alike other) (events : List (Event τ)) :
    (engine.after events).Alike (other.after (Event.prompt events)) ∧
    (∀ call : Call (Hook τ) τ, ((Session.call call).exec (engine.after events)).1 =
      ((Session.call call).exec (other.after (Event.prompt events))).1) ∧
    (engine.after events).accepted = (other.after (Event.prompt events)).accepted ∧
    (Session.call .bringUp).exec (engine.after events) =
      (Session.call .bringUp).exec (other.after (Event.prompt events)) :=
  have halike := h.after events
  ⟨halike, halike.outcome, halike.exec_bringUp⟩

/-- A device whose first reply to being asked for its capability gets lost. By the second it is no
controller. -/
def forgetful : Engine ScriptedTransport where
  transport :=
    { control := fun
        | .getI3cCapability => [{ silent := true }, { data := some targetReport }]
        | _ => [] }

/-- The first run times out. What comes of its request afterwards fails the next run no more than
if it had never come. -/
theorem isolated_forgetful :
    let late := .completion (.control .capabilityReport (.error .stall))
    (forgetful.after [.call .bringUp, late]).bringUp.posted = [.fail (.transport .stall)] ∧
      (forgetful.after [.call .bringUp, late]).accepted =
        (forgetful.after [.call .bringUp]).accepted ∧
      (forgetful.after [.call .bringUp]).accepted =
        [.capabilityReceived targetReport, .pipelineStarted] := by
  have hposted : (forgetful.after [.call .bringUp,
      .completion (.control .capabilityReport (.error .stall))]).bringUp.posted =
        [.fail (.transport .stall)] := by
    decide +kernel
  have haccepted : (forgetful.after [.call .bringUp]).accepted =
      [.capabilityReceived targetReport, .pipelineStarted] := by
    decide +kernel
  generalize forgetful = session at hposted haccepted ⊢
  obtain ⟨-, -, hsame, -⟩ := isolated_of_alike (.refl session) [.call .bringUp,
    .completion (.control .capabilityReport (.error .stall))]
  exact ⟨hposted, hsame, haccepted⟩

end Engine

/-- A device that completes a request for later data only when the next one is made. -/
structure TardyTransport where
  /-- The data of the requests to come. -/
  replies : List Bytes
  /-- How the latest request is going to complete. -/
  outstanding : Option (Continuation × Bytes) := none
  /-- Completions that are ready to be handed out. -/
  due : List (Continuation × Bytes) := []

instance : Transport TardyTransport where
  maxPacketSize _ := 512
  controlIn _ _ _ := return .error .stall
  submitControlIn _ _ _ continuation := do
    modify fun transport ↦
      { replies := transport.replies.tail
        outstanding := some (continuation, transport.replies.headD [])
        due := transport.due ++ transport.outstanding.toList }
    return .ok ()
  controlOut _ _ _ := return .ok ()
  bulkOut data := return .ok data.length
  startBulkIn _ := return .ok ()
  startInterruptIn := return .ok ()
  next? _ transport :=
    match transport.due with
    | [] => none
    | (continuation, data) :: due =>
        some (.control continuation (.ok data), { transport with due })

namespace Engine

/-- A session with such a device, which changes from a target into a controller. -/
def tardy : Engine TardyTransport where
  transport := { replies := [targetReport, controllerReport] }

/-- The first run ends while its request is outstanding. The second run accepts the completion of
that request and ends in standby, while its own request, which says that the device can be the
controller, is outstanding. -/
theorem accepted_tardy :
    Session.ofTransport tardy.transport {} = .ok tardy ∧
      (tardy.after [.call .bringUp]).bringUp.state = .failed ∧
      (tardy.after [.call .bringUp]).transport.outstanding =
        some (.capabilityReport, targetReport) ∧
      .capabilityReceived targetReport ∈ (tardy.after [.call .bringUp]).accepted ∧
      (tardy.after [.call .bringUp, .call .bringUp]).bringUp.state = .standby ∧
      (tardy.after [.call .bringUp, .call .bringUp]).transport.outstanding =
        some (.capabilityReport, controllerReport) :=
  ⟨rfl, by decide +kernel⟩

end Engine

end I3cHost
