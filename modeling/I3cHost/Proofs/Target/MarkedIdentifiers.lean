import Mathlib.Data.List.Induction
import I3cHost.Proofs.Target.Integrity

/-!
# Targets that are marked as known by an identifier

A target carries a mark that says whether it has an identifier. Reports set the mark together with
the identifier, and nothing else touches either of them, so that marks stay correct once they are
(`AllPidsMarked.apply`). A census looks at the marks only, and finds the targets without an
identifier if the marks are correct (`AllPidsMarked.countsIdentifiers`).

A target that the host makes itself is marked if the number that it is given is not zero, but only
48 bits of that number are kept. `marked_made_iff` says that there is no other way for a mark to
become wrong.
-/

namespace I3cHost

namespace TargetDevice

/-- A target is marked as known by an identifier exactly if it has one. -/
def PidMarked (device : TargetDevice) : Prop :=
  device.validPid = true ↔ device.pid.toNat ≠ 0

/-- A target that speaks I3C and has neither a static address nor an identifier. -/
def IsAnonymous (device : TargetDevice) : Prop :=
  device.type = .i3c ∧ device.capability.staticAddress = 0 ∧ device.pid.toNat = 0

instance (device : TargetDevice) : Decidable device.IsAnonymous :=
  inferInstanceAs (Decidable (_ ∧ _ ∧ _))

/-- A target as the host makes it: with an identifier, or for a fixed address. -/
inductive Made : TargetDevice → Prop where
  | ofPid (address : UInt8) (pid : UInt64) : Made (.ofPid address pid)
  | i2c (address : UInt8) : Made (.i2c address)

variable {device updated : TargetDevice}

/-- A target about which nothing is known has no mark and no identifier. -/
theorem pidMarked_blank : PidMarked {} := by
  simp [PidMarked, ProvisionedId.toNat]

/-- A target that speaks I2C has neither an identifier nor the mark for one. -/
theorem pidMarked_i2c (address : UInt8) : (i2c address).PidMarked :=
  pidMarked_blank

/-- Of the number that a target is made with, 48 bits are kept as its identifier. -/
theorem toNat_pid_ofPid (address : UInt8) (pid : UInt64) :
    (ofPid address pid).pid.toNat = pid.toNat % 0x1000000000000 :=
  ProvisionedId.toNat_ofNat pid.toNat

/-- A target that is made with a number is marked correctly unless the number is not zero and none
of the bits that are kept of it is set. -/
theorem pidMarked_ofPid_iff {address : UInt8} {pid : UInt64} :
    (ofPid address pid).PidMarked ↔ (pid.toNat % 0x1000000000000 = 0 → pid = 0) := by
  have hzero : pid = 0 ↔ pid.toNat = 0 := UInt64.toNat_inj.symm
  have hmark : (ofPid address pid).validPid = true ↔ pid.toNat ≠ 0 := bne_iff_ne
  rw [PidMarked, toNat_pid_ofPid, hmark, hzero]
  omega

/-- A target stays marked correctly when it takes over the identifier of a report. -/
theorem PidMarked.adoptPid (h : device.PidMarked) (pid : ProvisionedId) :
    (device.adoptPid pid).PidMarked := by
  rw [PidMarked, adoptPid_validPid, adoptPid_pid]
  cases hzero : pid.isZero with
  | true => simpa [PidMarked] using h
  | false =>
      have hpid : pid.toNat ≠ 0 := by
        rw [Ne, ← ProvisionedId.isZero_iff, hzero]
        exact Bool.false_ne_true
      simp [hpid]

/-- A target stays marked correctly when its entry of a capability report is taken over. -/
theorem PidMarked.applyCapabilityEntry (h : device.PidMarked) (entry : CapabilityEntry) :
    (device.applyCapabilityEntry entry).PidMarked :=
  h.adoptPid entry.pid

/-- A target stays marked correctly when its row of a listing is taken over. -/
theorem PidMarked.applyRow (h : device.PidMarked) {row : TargetRow}
    (happly : device.applyRow row = .ok updated) : updated.PidMarked := by
  obtain ⟨-, -, hvalid, hpid⟩ := applyRow_eq_ok happly
  have hadopted := h.adoptPid row.pid
  rwa [PidMarked, adoptPid_validPid, adoptPid_pid, ← hvalid, ← hpid] at hadopted

end TargetDevice

namespace TargetTable

variable {table next : TargetTable}

/-- All targets are marked correctly. -/
def AllPidsMarked (table : TargetTable) : Prop :=
  ∀ device ∈ table.devices, device.PidMarked

namespace AllPidsMarked

/-- If no target is new, all are still marked correctly. -/
theorem mono (h : table.AllPidsMarked) (hdevices : next.devices ⊆ table.devices) :
    next.AllPidsMarked :=
  fun device hdevice ↦ h device (hdevices hdevice)

/-- An inserted target that is marked correctly joins others that are. -/
theorem insert (h : table.AllPidsMarked) {device : TargetDevice} (hdevice : device.PidMarked)
    (hinsert : table.insert device = .ok next) : next.AllPidsMarked := by
  obtain ⟨-, -, -, rfl⟩ := insert_eq_ok_iff.1 hinsert
  intro other hother
  rw [announce_devices] at hother
  rcases List.mem_append.1 hother with hold | hnew
  · exact h other hold
  · rwa [List.mem_singleton.1 hnew]

/-- A change that keeps marks correct may be made to any target. -/
theorem modify (h : table.AllPidsMarked) {change : TargetDevice → TargetDevice} {index : Nat}
    (hchange : ∀ hindex : index < table.devices.length,
      (change table.devices[index]).PidMarked) : (table.modify index change).AllPidsMarked := by
  intro device hdevice
  obtain ⟨place, hplace, rfl⟩ := List.getElem_of_mem hdevice
  simp only [TargetTable.modify, List.getElem_modify]
  split
  next heq =>
    subst heq
    exact hchange _
  next => exact h _ (List.getElem_mem _)

/-- Of an entry, a target takes over the identifier together with its mark. -/
theorem mergeEntry (h : table.AllPidsMarked) {entry : CapabilityEntry} {count : Nat}
    (hmerge : table.mergeEntry entry = .ok (count, next)) : next.AllPidsMarked := by
  rcases mergeEntry_cases hmerge with ⟨index, -, rfl⟩ | hinsert
  · apply h.modify
    intro hindex
    exact (h _ (List.getElem_mem hindex)).applyCapabilityEntry entry
  · exact h.insert (TargetDevice.pidMarked_blank.applyCapabilityEntry entry) hinsert

/-- Of a row, a target takes over the identifier together with its mark. -/
theorem mergeRow (h : table.AllPidsMarked) {row : TargetRow} {count : Nat}
    (hmerge : table.mergeRow row = .ok (count, next)) : next.AllPidsMarked := by
  rcases mergeRow_cases hmerge with
    ⟨index, updated, hindex, -, happly, -, rfl⟩ | ⟨-, device, happly, -, hinsert⟩
  · apply h.modify
    intro _
    exact (h _ (List.getElem_mem hindex)).applyRow happly
  · exact h.insert (TargetDevice.pidMarked_blank.applyRow happly) hinsert

/-- One change keeps marks correct if a target that is inserted by it is marked correctly. -/
theorem changes (h : table.AllPidsMarked) {operation : TableOperation}
    (hchanges : operation.Changes table next)
    (hinserted : ∀ device, operation = .insert device → device.PidMarked) :
    next.AllPidsMarked := by
  cases hchanges with
  | inserted device hoperation hinsert => exact h.insert (hinserted device hoperation) hinsert
  | removed index hdevices =>
      apply h.mono
      rw [hdevices]
      exact List.eraseIdx_subset
  | moved old new hmove =>
      obtain ⟨index, -, -, -, -, rfl⟩ := changeAddress_eq_ok hmove
      exact h.modify fun hindex ↦ h table.devices[index] (List.getElem_mem hindex)
  | configured address config maxIbiPayload hupdate =>
      obtain ⟨index, -, rfl⟩ := updateConfig_eq_ok hupdate
      exact h.modify fun hindex ↦ h table.devices[index] (List.getElem_mem hindex)
  | mergedEntry entry count hmerge => exact h.mergeEntry hmerge
  | mergedRow row count _ hmerge => exact h.mergeRow hmerge
  | announced hdevices =>
      apply h.mono
      rw [hdevices]
      exact List.Subset.refl table.devices

/-- An operation keeps marks correct if a target that it inserts is marked correctly. -/
theorem apply (h : table.AllPidsMarked) (operation : TableOperation)
    (hinserted : ∀ device next, operation = .insert device → table.insert device = .ok next →
      device.PidMarked) : (operation.apply table).AllPidsMarked := by
  by_cases hmarked : ∀ device, operation = .insert device → device.PidMarked
  · exact TableOperation.apply_preserves AllPidsMarked
      (fun before next hchanges hkept ↦ hkept.changes hchanges hmarked) h
  · -- A target that is marked wrongly is refused, so that the table stays as it was.
    obtain ⟨device, hmarked⟩ := Classical.not_forall.1 hmarked
    obtain ⟨rfl, hwrong⟩ := Classical.not_imp.1 hmarked
    cases haccepted : table.insert device with
    | ok next => exact absurd (hinserted device next rfl haccepted) hwrong
    | error error => simpa [TableOperation.apply, haccepted, Except.toOption] using h

end AllPidsMarked

/-- After an accepted insertion the target is in the table. -/
theorem mem_devices_of_insert {device : TargetDevice} (h : table.insert device = .ok next) :
    device ∈ next.devices := by
  obtain ⟨-, -, -, rfl⟩ := insert_eq_ok_iff.1 h
  simp

/-- Marks are correct all the time exactly if every target that is inserted is marked correctly. -/
theorem allPidsMarked_run_iff (history : List TableOperation) :
    (∀ before, before <+: history → (TableOperation.run before).AllPidsMarked) ↔
      ∀ before device next, before ++ [.insert device] <+: history →
        (TableOperation.run before).insert device = .ok next → device.PidMarked := by
  constructor
  · intro h before device next hprefix hinsert
    have hrun : TableOperation.run (before ++ [.insert device]) = next := by
      rw [TableOperation.run, List.foldl_append]
      show (TableOperation.insert device).apply (TableOperation.run before) = next
      simp [TableOperation.apply, hinsert, Except.toOption]
    have hmarked := h _ hprefix
    rw [hrun] at hmarked
    exact hmarked device (mem_devices_of_insert hinsert)
  · intro h before
    -- The induction is on what was done so far, so that the last operation is the latest one.
    induction before using List.reverseRecOn with
    | nil => exact fun _ device hdevice ↦ absurd hdevice List.not_mem_nil
    | append_singleton before operation ih =>
        intro hprefix
        rw [TableOperation.run, List.foldl_append]
        refine (ih ((List.prefix_append _ _).trans hprefix)).apply operation ?_
        intro device next hoperation hinsert
        rw [hoperation] at hprefix
        exact h before device next hprefix hinsert

/-- A census counts the I3C targets with a static address and the others, which have to be marked
as known by an identifier. -/
theorem identify_eq (table : TargetTable) :
    table.identify =
      if ∀ device ∈ table.devices, device.type = .i3c → device.capability.staticAddress = 0 →
          device.validPid = true then
        .ok
          { staticCount := table.devices.countP fun device ↦
              device.type = .i3c ∧ device.capability.staticAddress ≠ 0
            dynamicCount := table.devices.countP fun device ↦
              device.type = .i3c ∧ device.capability.staticAddress = 0 }
      else
        .error (.validation .unidentifiableDevice) := by
  simp only [identify, List.partition_eq_filter_filter, List.all_filter, List.filter_filter,
    ← List.countP_eq_length_filter]
  refine if_congr ?_ (congrArg Except.ok (congr (congrArg Census.mk ?_) ?_)) rfl
  · rw [List.all_eq_true]
    refine forall₂_congr fun device _ ↦ ?_
    by_cases htype : device.type = .i3c <;> by_cases hstatic : device.capability.staticAddress = 0
    all_goals simp [htype, hstatic]
  · exact List.countP_congr fun device _ ↦ by simp [and_comm]
  · exact List.countP_congr fun device _ ↦ by simp [and_comm]

/-- A census counts as dynamic the I3C targets without a static address that have an identifier, and
it is refused if one has neither. -/
structure CountsIdentifiers (table : TargetTable) : Prop where
  refused : (∃ device ∈ table.devices, device.IsAnonymous) →
    table.identify = .error (.validation .unidentifiableDevice)
  counted : (∀ device ∈ table.devices, ¬ device.IsAnonymous) →
    table.identify = .ok
      { staticCount := table.devices.countP fun device ↦
          device.type = .i3c ∧ device.capability.staticAddress ≠ 0
        dynamicCount := table.devices.countP fun device ↦
          device.type = .i3c ∧ device.capability.staticAddress = 0 ∧ device.pid.toNat ≠ 0 }

/-- A census of targets that are marked correctly is one of their identifiers. -/
theorem AllPidsMarked.countsIdentifiers (h : table.AllPidsMarked) : table.CountsIdentifiers where
  refused := by
    intro hsome
    obtain ⟨device, hdevice, htype, hstatic, hpid⟩ := hsome
    rw [identify_eq, if_neg]
    intro hall
    exact (h device hdevice).1 (hall device hdevice htype hstatic) hpid
  counted := by
    intro hnone
    have hpid : ∀ device ∈ table.devices, device.type = .i3c →
        device.capability.staticAddress = 0 → device.pid.toNat ≠ 0 := by
      intro device hdevice htype hstatic hpid
      exact hnone device hdevice ⟨htype, hstatic, hpid⟩
    rw [identify_eq, if_pos]
    · refine congrArg Except.ok (congrArg (Census.mk _) (List.countP_congr fun device hdevice ↦ ?_))
      simpa using fun htype hstatic ↦ hpid device hdevice htype hstatic
    · intro device hdevice htype hstatic
      exact (h device hdevice).2 (hpid device hdevice htype hstatic)

/-- If the host makes all targets that are inserted, they are marked correctly and counted by their
identifiers after every part of a history, exactly if none of those that are accepted was made with
a number other than zero of which the low 48 bits are zero. -/
theorem marked_made_iff {history : List TableOperation}
    (hmade : ∀ device, .insert device ∈ history → device.Made) :
    (∀ before, before <+: history →
      (TableOperation.run before).AllPidsMarked ∧
        (TableOperation.run before).CountsIdentifiers) ↔
      ∀ before address pid next, before ++ [.insert (.ofPid address pid)] <+: history →
        (TableOperation.run before).insert (.ofPid address pid) = .ok next →
          pid.toNat % 0x1000000000000 = 0 → pid = 0 := by
  constructor
  · intro h before address pid next hprefix hinsert
    have hmarked := (allPidsMarked_run_iff history).1 fun before hbefore ↦ (h before hbefore).1
    exact TargetDevice.pidMarked_ofPid_iff.1 (hmarked before _ next hprefix hinsert)
  · intro h
    have hmarked := (allPidsMarked_run_iff history).2 fun before device next hprefix hinsert ↦ by
      have hmem : .insert device ∈ history := hprefix.subset (by simp)
      cases hmade device hmem with
      | ofPid address pid =>
          exact TargetDevice.pidMarked_ofPid_iff.2 (h before address pid next hprefix hinsert)
      | i2c address => exact TargetDevice.pidMarked_i2c address
    intro before hprefix
    exact ⟨hmarked before hprefix, (hmarked before hprefix).countsIdentifiers⟩

/-- A target without an identifier that moves and is given one by a listing, one for a fixed
address, one with a number of which nothing would be kept but whose address is out of range, and one
with a number of which a part is kept. -/
def madeHistory : List TableOperation :=
  [.insert (.ofPid 8 0), .insert (.i2c 0x50), .insert (.ofPid 200 0x1000000000000),
    .changeAddress 8 9,
    .mergeListing [1, 0, 0, 0, 9, 0, 0, 0, 1, 0, 0, 0, 0, 0, 0, 0, 0, 0, 0, 0],
    .insert (.ofPid 10 0x1000000000007)]

/-- Targets that are inserted, moved and listed are marked and counted rightly at every point. -/
theorem marked_madeHistory :
    (∀ device, .insert device ∈ madeHistory → device.Made) ∧
    (∀ before, before <+: madeHistory →
      (TableOperation.run before).AllPidsMarked ∧
        (TableOperation.run before).CountsIdentifiers) ∧
    (TableOperation.run madeHistory).addresses = [9, 0x50, 10] ∧
    (TableOperation.run madeHistory).identify = .ok ⟨0, 2⟩ := by
  have hmade : ∀ device, .insert device ∈ madeHistory → device.Made := by
    intro device hdevice
    simp only [madeHistory, List.mem_cons, List.not_mem_nil, or_false, reduceCtorEq,
      TableOperation.insert.injEq, false_or] at hdevice
    rcases hdevice with rfl | rfl | rfl | rfl
    · exact .ofPid _ _
    · exact .i2c _
    · exact .ofPid _ _
    · exact .ofPid _ _
  have hkept : ∀ before address pid next,
      before ++ [.insert (.ofPid address pid)] <+: madeHistory →
        (TableOperation.run before).insert (.ofPid address pid) = .ok next →
          pid.toNat % 0x1000000000000 = 0 → pid = 0 := by
    intro before address pid next hprefix hinsert hzero
    have hmem : .insert (.ofPid address pid) ∈ madeHistory := hprefix.subset (by simp)
    simp only [madeHistory, List.mem_cons, List.not_mem_nil, or_false, reduceCtorEq,
      TableOperation.insert.injEq, false_or] at hmem
    rw [← TargetDevice.toNat_pid_ofPid address] at hzero
    rcases hmem with hsame | hsame | hsame | hsame
    · -- The number is zero, so that nothing is lost.
      have hmark : (pid.toNat != 0) = false := congrArg TargetDevice.validPid hsame
      exact UInt64.toNat_inj.1 (by simpa using hmark)
    · have htype : TargetType.i3c = .i2c := congrArg TargetDevice.type hsame
      cases htype
    · -- The number is one of those that are not kept, but the address of the target is refused.
      obtain ⟨hrange, -⟩ := insert_eq_ok_iff.1 hinsert
      rw [hsame] at hrange
      exact absurd hrange (by decide)
    · rw [hsame] at hzero
      exact absurd hzero (by decide)
  have hmarked := (marked_made_iff hmade).2 hkept
  refine ⟨hmade, hmarked, rfl, ?_⟩
  exact (hmarked madeHistory List.prefix_rfl).2.counted (by decide)

/-- A target that is made with the least number of more than 48 bits is marked although it has no
identifier, and it is counted like one that has. -/
theorem not_marked_truncated :
    let table := TableOperation.run [.insert (.ofPid 8 0x1000000000000)]
    ¬ table.AllPidsMarked ∧ (∃ device ∈ table.devices, device.IsAnonymous) ∧
      table.identify = .ok ⟨0, 1⟩ := by
  intro table
  have hmem : TargetDevice.ofPid 8 0x1000000000000 ∈ table.devices := List.mem_singleton_self _
  refine ⟨fun hmarked ↦ ?_, ⟨_, hmem, rfl, rfl, rfl⟩, rfl⟩
  exact (hmarked _ hmem).1 rfl rfl

end TargetTable

end I3cHost
