import Mathlib.Data.List.Chain
import I3cHost.Proofs.Command.Block

/-!
# The rules for commands and their order

A device only takes commands that keep some rules, most of them about single commands, one of them
about what precedes a target reset pattern. The rules look at a few traits, which a command has and
which can be read back from the descriptor that carries it. A queue accepts a command exactly if the
rules are kept with it behind all others, and its payload is not too long for a descriptor.
-/

namespace I3cHost

/-- What the rules look at in a command. -/
structure CommandTraits where
  type : CommandType
  /-- The common command code, zero without one. -/
  code : UInt8
  errorHandling : ErrorHandling
  target : UInt8
  reads : Bool
  /-- The number of bytes sent or asked for. -/
  length : Nat
  deriving DecidableEq

namespace CommandTraits

/-- The rules for a single command. -/
structure Sound (traits : CommandTraits) : Prop where
  target : traits.target ≤ 0x7F
  /-- A regular write has data. -/
  written : traits.type = .regular → traits.reads = false → 0 < traits.length
  /-- Reads ask for whole words. -/
  aligned : traits.reads = true → 4 ∣ traits.length
  /-- A regular read asks for something. -/
  asked : traits.type = .regular → traits.reads = true → 0 < traits.length

/-- A target reset pattern may directly follow: the command is such a pattern itself, or a target
reset action, with or without defining byte, that does not end the request even if it is not
acknowledged. -/
def PreparesReset (traits : CommandTraits) : Prop :=
  traits.type = .targetResetPattern ∨
    (traits.type = .cccWithoutDefiningByte ∨ traits.type = .cccWithDefiningByte) ∧
      (traits.code = 0x2A ∨ traits.code = 0x9A) ∧
      traits.errorHandling = .doNotTerminateIncludingNack

end CommandTraits

/-- The rules for commands that are sent together. -/
structure Lawful (commands : List CommandTraits) : Prop where
  sound : ∀ traits ∈ commands, traits.Sound
  /-- Every target reset pattern is the first command or directly behind one that prepares it. -/
  placed : commands.IsChain fun previous next ↦
    next.type = .targetResetPattern → previous.PreparesReset

/-- No commands break no rule. -/
theorem lawful_nil : Lawful [] :=
  ⟨List.forall_mem_nil _, .nil⟩

/-- With one more command the rules are kept if they were before and the command keeps them behind
the last one. -/
theorem lawful_concat_iff {commands : List CommandTraits} {next : CommandTraits} :
    Lawful (commands ++ [next]) ↔ Lawful commands ∧ next.Sound ∧
      (next.type = .targetResetPattern →
        ∀ previous ∈ commands.getLast?, previous.PreparesReset) := by
  constructor
  · rintro ⟨hsound, hplaced⟩
    obtain ⟨hbefore, -, hlast⟩ := List.isChain_append.1 hplaced
    have hnext : next.Sound := hsound next (List.mem_append_right commands List.mem_cons_self)
    refine ⟨⟨fun traits htraits ↦ hsound traits (List.mem_append_left _ htraits), hbefore⟩,
      hnext, fun hreset previous hprevious ↦ hlast previous hprevious next rfl hreset⟩
  · rintro ⟨⟨hsound, hplaced⟩, hnext, hlast⟩
    refine ⟨List.forall_mem_append.2 ⟨hsound, List.forall_mem_singleton.2 hnext⟩,
      List.isChain_append.2 ⟨hplaced, .singleton next, ?_⟩⟩
    rintro previous hprevious _ ⟨⟩ hreset
    exact hlast hreset previous hprevious

namespace Command

variable {κ : Type} {command : Command κ}

/-- The traits of a command. -/
def traits (command : Command κ) : CommandTraits where
  type := command.kind.type
  code := command.kind.codeByte
  errorHandling := command.errorHandling
  target := command.target
  reads := command.transfer.isRead
  length := command.transfer.byteCount

/-- Only regular commands are written as such. -/
theorem type_eq_regular_iff {kind : CommandKind} : kind.type = .regular ↔ kind = .regular := by
  cases kind <;> simp [CommandKind.type]

/-- Only target reset patterns are written as such. -/
theorem type_eq_targetResetPattern_iff {kind : CommandKind} :
    kind.type = .targetResetPattern ↔ kind = .targetResetPattern := by
  cases kind <;> simp [CommandKind.type]

/-- The rules for a single command, in terms of the command. -/
theorem sound_traits_iff : command.traits.Sound ↔ command.target ≤ maxTargetAddress ∧
    (command.kind = .regular → 0 < command.transfer.byteCount) ∧
    (command.transfer.isRead = true → 4 ∣ command.transfer.byteCount) := by
  rw [← type_eq_regular_iff]
  constructor
  · intro h
    refine ⟨h.target, fun hregular ↦ ?_, h.aligned⟩
    cases hread : command.transfer.isRead with
    | false => exact h.written hregular hread
    | true => exact h.asked hregular hread
  · rintro ⟨htarget, hlength, haligned⟩
    exact ⟨htarget, fun hregular _ ↦ hlength hregular, haligned, fun hregular _ ↦ hlength hregular⟩

/-- What is checked of a transfer is what the rules say, and that its payload is not too large. -/
theorem transferFault?_eq_none_iff {kind : CommandKind} {transfer : CommandTransfer} :
    transferFault? kind transfer = none ↔ (kind = .regular → 0 < transfer.byteCount) ∧
      (transfer.isRead = true → 4 ∣ transfer.byteCount) ∧
      transfer.payload.length < payloadLimit := by
  unfold transferFault?
  cases transfer with
  | write data =>
      simp only [CommandTransfer.byteCount, CommandTransfer.isRead, CommandTransfer.payload,
        List.isEmpty_iff, ← List.length_eq_zero_iff]
      grind
  | read length =>
      have hzero : length = 0 ↔ length.toNat = 0 := UInt32.toNat_inj.symm
      simp only [CommandTransfer.byteCount, CommandTransfer.isRead, CommandTransfer.payload, hzero,
        List.length_nil, payloadLimit]
      grind

/-- Nothing is wrong with a command by itself exactly if it keeps the rules and its payload is not
too long. -/
theorem fault?_eq_none_iff : command.fault? = none ↔
    command.traits.Sound ∧ command.transfer.payload.length < payloadLimit := by
  unfold fault?
  rw [sound_traits_iff, ← UInt8.not_lt]
  split
  next htarget => simp [htarget]
  next htarget => rw [transferFault?_eq_none_iff, and_iff_right htarget, and_assoc]

/-- A command admits a target reset pattern exactly if it prepares one. -/
theorem admitsResetPattern_iff :
    command.admitsResetPattern = true ↔ command.traits.PreparesReset := by
  unfold admitsResetPattern CommandTraits.PreparesReset traits
  cases command.kind with
  | regular => simp [CommandKind.type, CommandKind.code?]
  | targetResetPattern => simp [CommandKind.type]
  | ccc code =>
      simp [CommandKind.type, CommandKind.code?, CommandKind.codeByte, resetActionBroadcast,
        resetActionDirect]
  | cccWithDefiningByte code definingByte =>
      simp [CommandKind.type, CommandKind.code?, CommandKind.codeByte, resetActionBroadcast,
        resetActionDirect]

end Command

namespace CommandQueue

variable {κ : Type} {queue : CommandQueue κ} {command : Command κ}

/-- The traits of the queued commands. -/
def traits (queue : CommandQueue κ) : List CommandTraits :=
  queue.commands.toList.map Command.traits

/-- The traits of a command come behind those before it. -/
theorem traits_append (queue : CommandQueue κ) (command : Command κ) :
    (queue.append command).traits = queue.traits ++ [command.traits] := by
  simp [traits, append]

/-- Only the last command decides whether a target reset pattern may come next. -/
theorem admitsResetPattern_iff : queue.admitsResetPattern = true ↔
    ∀ previous ∈ queue.traits.getLast?, previous.PreparesReset := by
  unfold admitsResetPattern traits
  rw [List.getLast?_map, Array.getLast?_toList]
  cases queue.commands.back? with
  | none => simp
  | some command => simp [Command.admitsResetPattern_iff]

/-- A command is accepted behind commands that keep the rules exactly if the rules are kept with it,
and its payload is not too long. -/
theorem fault?_eq_none_iff (h : Lawful queue.traits) : queue.fault? command = none ↔
    Lawful (queue.append command).traits ∧
      command.transfer.payload.length < Command.payloadLimit := by
  rw [traits_append, lawful_concat_iff, ← admitsResetPattern_iff, and_iff_right h]
  have hcommand : command.fault? = none ↔
      command.traits.Sound ∧ command.transfer.payload.length < Command.payloadLimit :=
    Command.fault?_eq_none_iff
  have hreset : command.kind.type = .targetResetPattern ↔ command.kind = .targetResetPattern :=
    Command.type_eq_targetResetPattern_iff
  unfold fault?
  cases hfault : command.fault? with
  | some fault =>
      simp only [hfault, reduceCtorEq, false_iff] at hcommand ⊢
      exact fun ⟨⟨hsound, _⟩, hlength⟩ ↦ hcommand ⟨hsound, hlength⟩
  | none =>
      obtain ⟨hsound, hlength⟩ := hcommand.1 hfault
      simp only [hsound, hlength, true_and, and_true, ite_eq_right_iff, reduceCtorEq, imp_false]
      rw [not_and, Bool.not_eq_false, ← hreset]
      rfl

end CommandQueue

/-- The traits that a descriptor declares. -/
def CommandDescriptor.traits (descriptor : CommandDescriptor) : CodecResult CommandTraits := do
  let type ← Coded.ofByte descriptor.type
  let errorHandling ← Coded.ofByte descriptor.attributes.errorHandling
  return {
    type, errorHandling
    code := descriptor.ccc
    target := descriptor.target
    reads := descriptor.isRead
    length := descriptor.dataLength.toNat }

/-- The descriptor of a block declares the traits of the command that the block carries. -/
theorem CommandBlock.Carries.traits {κ : Type} {block : CommandBlock} {command : Command κ}
    (h : block.Carries command) : block.descriptor.traits = .ok command.traits := by
  simp only [CommandDescriptor.traits, h.kind, h.errorHandling, h.ccc, h.target, h.direction,
    h.length, bind, Except.bind]
  rfl

/-- Block by block the traits of commands are declared. -/
theorem traits_blocks {κ : Type} {blocks : List CommandBlock} {commands : List (Command κ)}
    (h : List.Forall₂ CommandBlock.Carries blocks commands) :
    blocks.mapM (·.descriptor.traits) = .ok (commands.map Command.traits) := by
  induction h with
  | nil => rfl
  | cons hblock _ ih =>
      rw [List.mapM_cons, hblock.traits, ih]
      rfl

end I3cHost
