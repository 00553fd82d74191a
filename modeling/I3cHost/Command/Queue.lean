import I3cHost.Command.Basic
import I3cHost.Request

/-!
# The queue of commands

Commands wait in a queue until all of them are sent as one request. A command is checked when it
is queued, so every queue that was built by `push` can be sent. When a request is sent its
commands hand their callbacks over to the tracked requests; if the request does not reach the
device the commands take them back.
-/

namespace I3cHost

/-- Commands that wait to be sent as one request. -/
structure CommandQueue (κ : Type) where
  commands : Array (Command κ) := #[]

namespace CommandQueue

variable {κ : Type}

/-- The number of commands. -/
def size (queue : CommandQueue κ) : Nat :=
  queue.commands.size

/-- Whether there are no commands. -/
def isEmpty (queue : CommandQueue κ) : Bool :=
  queue.commands.isEmpty

/-- Whether a target reset pattern may come next. -/
def admitsResetPattern (queue : CommandQueue κ) : Bool :=
  match queue.commands.back? with
  | none => true
  | some command => command.admitsResetPattern

/-- What is wrong with queueing a command now. -/
def fault? (queue : CommandQueue κ) (command : Command κ) : Option ValidationError :=
  match command.fault? with
  | some fault => some fault
  | none =>
      if command.kind = .targetResetPattern ∧ queue.admitsResetPattern = false then
        some .misplacedResetPattern
      else
        none

/-- The queue with a command behind all others. -/
def append (queue : CommandQueue κ) (command : Command κ) : CommandQueue κ :=
  ⟨queue.commands.push command⟩

/-- Appends a command that nothing is wrong with. -/
def push (queue : CommandQueue κ) (command : Command κ) : HostResult (CommandQueue κ) :=
  match queue.fault? command with
  | some fault => .error (.validation fault)
  | none => .ok (queue.append command)

/-- A command is accepted exactly if nothing is wrong with it, and then it is the last one. -/
theorem push_eq_ok_iff {queue next : CommandQueue κ} {command : Command κ} :
    queue.push command = .ok next ↔ queue.fault? command = none ∧ next = queue.append command := by
  unfold push
  cases queue.fault? command with
  | none => simp [eq_comm]
  | some fault => simp

/-- The identifier of a command of a batch by its position. -/
def idAt (first : UInt16) (index : Nat) : UInt16 :=
  first + UInt16.ofNat index

/-- Whether a command of a batch waits for the one before it. Only for the first is there a
choice. -/
def dependentAt (dependent : Bool) (index : Nat) : Bool :=
  index != 0 || dependent

/-- The identifiers of the commands when they are sent. -/
def ids (queue : CommandQueue κ) (first : UInt16) : List UInt16 :=
  (List.range queue.size).map (idAt first)

/-- Every command has an identifier. -/
@[simp] theorem length_ids (queue : CommandQueue κ) (first : UInt16) :
    (queue.ids first).length = queue.size := by
  simp [ids]

/-- The request that carries all commands. -/
def request (queue : CommandQueue κ) (first : UInt16) (dependent : Bool) : BulkRequest :=
  .regular (queue.commands.mapIdx fun index command ↦
    command.block (idAt first index) (dependentAt dependent index)).toList

/-- The position of the first command without a callback. -/
def withoutCallback? (queue : CommandQueue κ) : Option Nat :=
  queue.commands.findIdx? (·.callback.isNone)

/-- Hands the callbacks over to the requests that are tracked while the commands are sent. -/
def handOver (queue : CommandQueue κ) (first : UInt16) (dependent : Bool) :
    Array (TrackedRequest κ) × CommandQueue κ :=
  let requests := queue.commands.mapIdx fun index command ↦
    command.callback.map fun callback ↦
      ({ id := idAt first index, dependent := dependentAt dependent index, callback } :
        TrackedRequest κ)
  (requests.filterMap id, ⟨queue.commands.map fun command ↦ { command with callback := none }⟩)

/-- Takes callbacks back from requests that were withdrawn. -/
def takeBack (queue : CommandQueue κ) (first : UInt16) (withdrawn : Array (TrackedRequest κ)) :
    CommandQueue κ :=
  ⟨withdrawn.foldl (fun commands request ↦
    commands.modify (request.id - first).toNat fun command ↦
      { command with callback := some request.callback }) queue.commands⟩

end CommandQueue

end I3cHost
