import I3cHost.Proofs.Target.Operations

/-!
# The integrity of the table

Whatever is asked of a table of targets, in whatever order and with whatever reports of the
device, addresses stay unique and in range and every target stays reachable. The main statement
is `integrity_run`: it holds after every history that starts with the empty table, whether its
operations were accepted or refused.

Insertion checks all of this, but a merge that finds a known target does not check anything. It is
safe for a reason that depends on how the target was found: a target found by its address keeps
that address, one found by its static address keeps a static address, and one found by its
identifier stays known by an identifier, while the address it moves to is not in use.
-/

namespace I3cHost

/-- Something that is asked of a table. -/
inductive TableOperation where
  | insert (device : TargetDevice)
  | remove (address : UInt8)
  | changeAddress (old new : UInt8)
  | updateConfig (address : UInt8) (config : TargetConfig) (maxIbiPayload : UInt32)
  | mergeCapability (buffer : Bytes)
  | mergeListing (buffer : Bytes)
  | applyAddressChanges (buffer : Bytes)
  /-- Registers a listener, or none. -/
  | listen (listener : Option String)
  | enableEvents (enabled : Bool)

namespace TableOperation

open TargetTable

/-- The table after an operation that may have been refused. -/
def apply (table : TargetTable) : TableOperation → TargetTable
  | insert device => (table.insert device).toOption.getD table
  | remove address => ((table.remove address).map Prod.snd).getD table
  | changeAddress old new => (table.changeAddress old new).toOption.getD table
  | updateConfig address config maxIbiPayload =>
      (table.updateConfig address config maxIbiPayload).toOption.getD table
  | mergeCapability buffer => (table.mergeCapability buffer).2
  | mergeListing buffer => (table.mergeListing buffer).2
  | applyAddressChanges buffer => (table.applyAddressChanges buffer).2
  | listen listener => { table with listener }
  | enableEvents enabled => { table with eventsEnabled := enabled }

/-- The table after a history of operations on the empty one. -/
def run (history : List TableOperation) : TargetTable :=
  history.foldl apply {}

/-- One change that an operation makes to a table. Reports are merged row by row or entry by entry,
and answers are applied move by move; nothing of the kind happens if an operation is refused. -/
inductive Changes (operation : TableOperation) (table next : TargetTable) : Prop where
  | inserted (device : TargetDevice) (hoperation : operation = .insert device)
      (h : table.insert device = .ok next)
  | removed (index : Nat) (h : next.devices = table.devices.eraseIdx index)
  | moved (old new : UInt8) (h : table.changeAddress old new = .ok next)
  | configured (address : UInt8) (config : TargetConfig) (maxIbiPayload : UInt32)
      (h : table.updateConfig address config maxIbiPayload = .ok next)
  | mergedEntry (entry : CapabilityEntry) (count : Nat)
      (h : table.mergeEntry entry = .ok (count, next))
  | mergedRow (row : TargetRow) (count : Nat) (haddressable : isUnaddressable row = false)
      (h : table.mergeRow row = .ok (count, next))
  | announced (h : next.devices = table.devices)

/-- What is kept by every change of an operation is kept by the operation, whether it is accepted,
refused or cut short. -/
theorem apply_preserves (Kept : TargetTable → Prop) {operation : TableOperation}
    {table : TargetTable}
    (hstep : ∀ before next, operation.Changes before next → Kept before → Kept next)
    (h : Kept table) : Kept (operation.apply table) := by
  -- A refused operation leaves the table as it was, so only accepted ones matter.
  have haccepted : ∀ result : HostResult TargetTable,
      (∀ next, result = .ok next → operation.Changes table next) →
        Kept (result.toOption.getD table) := by
    intro result hchanges
    cases result with
    | ok next => exact hstep table next (hchanges next rfl) h
    | error error => exact h
  cases operation with
  | insert device => exact haccepted _ fun next ↦ .inserted device rfl
  | remove address =>
      cases hremove : table.remove address with
      | some removed =>
          obtain ⟨index, hdevices⟩ := remove_eq_some hremove
          simpa [apply, hremove] using hstep table removed.2 (.removed index hdevices) h
      | none => simpa [apply, hremove] using h
  | changeAddress old new => exact haccepted _ fun next ↦ .moved old new
  | updateConfig address config maxIbiPayload =>
      exact haccepted _ fun next ↦ .configured address config maxIbiPayload
  | mergeCapability buffer =>
      rcases mergeCapability_cases table buffer with ⟨error, hsame⟩ | ⟨entries, hmerge⟩
      · simpa [apply, hsame] using h
      · rw [apply, hmerge]
        exact mergeEntries_preserves Kept (fun entry _ before count next hkept hmerged ↦
          hstep before next (.mergedEntry entry count hmerged) hkept) 0 h
  | mergeListing buffer =>
      rcases mergeListing_cases table buffer with ⟨error, hsame⟩ | ⟨rows, hrows, hmerge⟩
      · simpa [apply, hsame] using h
      · rw [apply, hmerge]
        exact mergeRows_preserves Kept (fun row hrow before count next hkept hmerged ↦
          hstep before next (.mergedRow row count (hrows row hrow) hmerged) hkept) 0 h
  | applyAddressChanges buffer =>
      rcases applyAddressChanges_cases table buffer with hsame | ⟨outcomes, hmoves⟩
      · rwa [apply, hsame]
      · rw [apply, hmoves]
        exact relocateAll_preserves Kept (fun before old new next hkept hmoved ↦
          hstep before next (.moved old new hmoved) hkept) outcomes 0 h
  | listen listener => exact hstep table _ (.announced rfl) h
  | enableEvents enabled => exact hstep table _ (.announced rfl) h

end TableOperation

namespace TargetTable

/-- No address is used twice or is out of range, and every target can be reached. -/
structure Integrity (devices : List TargetDevice) : Prop where
  /-- No two targets have the same address, unless they have none. -/
  distinct : devices.Pairwise fun first second ↦
    first.address ≠ 0 → first.address ≠ second.address
  /-- Addresses have seven bits. -/
  inRange : ∀ device ∈ devices, device.address ≤ 0x7F
  /-- A target that speaks I3C has an address, a static address or a valid identifier. -/
  reachable : ∀ device ∈ devices, ¬ (device.type = .i3c ∧ device.address = 0 ∧
    device.capability.staticAddress = 0 ∧ device.validPid = false)

end TargetTable

/-- Being unreachable, in terms of what is known about the target. -/
theorem TargetDevice.isUnreachable_iff {device : TargetDevice} :
    device.isUnreachable = true ↔ device.type = .i3c ∧ device.address = 0 ∧
      device.capability.staticAddress = 0 ∧ device.validPid = false := by
  simp [isUnreachable, and_assoc]

/-- A target that has an address, has a static address or is known by an identifier can be
reached. -/
theorem TargetDevice.not_isUnreachable {device : TargetDevice}
    (h : device.address ≠ 0 ∨ device.capability.staticAddress ≠ 0 ∨ device.validPid = true) :
    device.isUnreachable = false := by
  rw [← Bool.not_eq_true, isUnreachable_iff]
  rintro ⟨-, haddress, hstatic, hpid⟩
  simp [haddress, hstatic, hpid] at h

namespace TargetTable.Integrity

variable {devices : List TargetDevice}

/-- There is nothing to check in the empty table. -/
theorem nil : Integrity [] where
  distinct := .nil
  inRange _ hdevice := absurd hdevice List.not_mem_nil
  reachable _ hdevice := absurd hdevice List.not_mem_nil

/-- A target may be appended if it passes the checks on its own and its address is free. -/
theorem append (h : Integrity devices) {device : TargetDevice}
    (hrange : device.address ≤ maxTargetAddress)
    (hfree : ∀ other ∈ devices, other.address ≠ 0 → other.address ≠ device.address)
    (hreach : device.isUnreachable = false) : Integrity (devices ++ [device]) where
  distinct := by
    rw [List.pairwise_append]
    refine ⟨h.distinct, List.pairwise_singleton _ _, ?_⟩
    intro other hother new hnew
    rw [List.mem_singleton.1 hnew]
    exact hfree other hother
  inRange other hother := by
    rcases List.mem_append.1 hother with hold | hnew
    · exact h.inRange other hold
    · rwa [List.mem_singleton.1 hnew]
  reachable other hother := by
    rcases List.mem_append.1 hother with hold | hnew
    · exact h.reachable other hold
    · rw [List.mem_singleton.1 hnew, ← TargetDevice.isUnreachable_iff, hreach]
      exact Bool.false_ne_true

/-- Removing a target cannot break anything. -/
theorem eraseIdx (h : Integrity devices) (index : Nat) : Integrity (devices.eraseIdx index) where
  distinct := h.distinct.sublist (List.eraseIdx_sublist devices index)
  inRange device hdevice := h.inRange device (List.mem_of_mem_eraseIdx hdevice)
  reachable device hdevice := h.reachable device (List.mem_of_mem_eraseIdx hdevice)

/-- Having different addresses does not depend on the order. -/
theorem address_ne_symm (first second : TargetDevice)
    (h : first.address ≠ 0 → first.address ≠ second.address) :
    second.address ≠ 0 → second.address ≠ first.address :=
  fun hzero heq ↦ h (heq ▸ hzero) heq.symm

/-- Targets at different places have different addresses, unless they have none. -/
theorem address_ne (h : Integrity devices) {first second : Nat} (hfirst : first < devices.length)
    (hsecond : second < devices.length) (hne : first ≠ second)
    (hzero : devices[first].address ≠ 0) : devices[first].address ≠ devices[second].address :=
  related_of_pairwise address_ne_symm h.distinct hfirst hsecond hne hzero

/-- A target may be replaced at its place if the new one passes the checks on its own and its
address is not that of another target. -/
theorem modify (h : Integrity devices) {index : Nat} (hindex : index < devices.length)
    {change : TargetDevice → TargetDevice}
    (hrange : (change devices[index]).address ≤ maxTargetAddress)
    (hfree : ∀ (other : Nat) (hother : other < devices.length), other ≠ index →
      devices[other].address ≠ 0 → devices[other].address ≠ (change devices[index]).address)
    (hreach : (change devices[index]).isUnreachable = false) :
    Integrity (devices.modify index change) where
  distinct := by
    refine pairwise_modify address_ne_symm hindex ?_ hfree
    intro first second hfirst hsecond _ _ hne
    exact h.address_ne hfirst hsecond hne
  inRange device hdevice := by
    obtain ⟨place, hplace, rfl⟩ := List.getElem_of_mem hdevice
    rw [List.getElem_modify]
    split
    next heq => subst heq; exact hrange
    next => exact h.inRange _ (List.getElem_mem _)
  reachable device hdevice := by
    obtain ⟨place, hplace, rfl⟩ := List.getElem_of_mem hdevice
    rw [List.getElem_modify]
    split
    next heq =>
      subst heq
      rw [← TargetDevice.isUnreachable_iff, hreach]
      exact Bool.false_ne_true
    next => exact h.reachable _ (List.getElem_mem _)

/-- A target may be replaced by one with the same address that can be reached. -/
theorem modify_sameAddress (h : Integrity devices) {index : Nat} (hindex : index < devices.length)
    {change : TargetDevice → TargetDevice}
    (haddress : (change devices[index]).address = devices[index].address)
    (hreach : (change devices[index]).isUnreachable = false) :
    Integrity (devices.modify index change) := by
  apply h.modify hindex _ _ hreach
  · rw [haddress]
    exact h.inRange _ (List.getElem_mem _)
  · intro other hother hne hzero
    rw [haddress]
    exact h.address_ne hother hindex hne hzero

/-- A target that is found by its address is the only one that has it. -/
theorem modify_eq_map {table : TargetTable} (h : Integrity table.devices) {address : UInt8}
    {place : Nat} (hposition : table.position address = some place)
    (change : TargetDevice → TargetDevice) : table.devices.modify place change =
      table.devices.map fun device ↦
        if device.address = address then change device else device := by
  obtain ⟨hzero, hplace, hfound⟩ := position_eq_some hposition
  refine List.ext_getElem (by simp) fun index hindex _ ↦ ?_
  rw [List.length_modify] at hindex
  rw [List.getElem_modify, List.getElem_map]
  by_cases hsame : place = index
  · subst hsame
    rw [if_pos rfl, if_pos hfound]
  · rw [if_neg hsame, if_neg]
    intro heq
    exact h.address_ne hplace hindex hsame (hfound ▸ hzero) (hfound.trans heq.symm)

end TargetTable.Integrity

namespace TargetTable

variable {table next : TargetTable} {count : Nat}

/-- Insertion checks what integrity demands. -/
theorem Integrity.insert (h : Integrity table.devices) {device : TargetDevice}
    (hinsert : table.insert device = .ok next) : Integrity next.devices := by
  obtain ⟨hrange, hfree, hreach, rfl⟩ := insert_eq_ok_iff.1 hinsert
  rw [announce_devices]
  apply h.append hrange _ hreach
  intro other hother hzero heq
  exact hfree (mem_addresses_iff.2 ⟨heq ▸ hzero, other, hother, heq⟩)

/-- A move checks that the new address is in range and free. -/
theorem Integrity.changeAddress (h : Integrity table.devices) {old new : UInt8}
    (hmove : table.changeAddress old new = .ok next) : Integrity next.devices := by
  obtain ⟨index, hold, hzero, hrange, hfree, rfl⟩ := changeAddress_eq_ok hmove
  obtain ⟨-, hindex, -⟩ := position_eq_some hold
  apply h.modify hindex hrange _ (TargetDevice.not_isUnreachable (.inl hzero))
  intro other hother hne hused heq
  -- Another target with the new address would have been found, as the one that moves.
  have hmem : new ∈ table.addresses :=
    mem_addresses_iff.2 ⟨hzero, _, List.getElem_mem hother, heq⟩
  cases hposition : table.position new with
  | none => exact position_eq_none_iff.1 hposition hmem
  | some found =>
      obtain ⟨-, hfound, haddress⟩ := position_eq_some hposition
      cases hfree found hposition
      exact h.address_ne hother hindex hne hused (heq.trans haddress.symm)

/-- Recording a configuration changes nothing that matters for integrity. -/
theorem Integrity.updateConfig (h : Integrity table.devices) {address : UInt8}
    {config : TargetConfig} {maxIbiPayload : UInt32}
    (hupdate : table.updateConfig address config maxIbiPayload = .ok next) :
    Integrity next.devices := by
  obtain ⟨index, hposition, rfl⟩ := updateConfig_eq_ok hupdate
  obtain ⟨-, hindex, -⟩ := position_eq_some hposition
  apply h.modify_sameAddress hindex rfl
  rw [← Bool.not_eq_true, TargetDevice.isUnreachable_iff]
  exact h.reachable table.devices[index] (List.getElem_mem hindex)

/-- An entry keeps the address of the target that it updates, which afterwards has a static
address if it was found by one, and an identifier otherwise. -/
theorem Integrity.mergeEntry (h : Integrity table.devices) {entry : CapabilityEntry}
    (hmerge : table.mergeEntry entry = .ok (count, next)) : Integrity next.devices := by
  rcases mergeEntry_eq_ok hmerge with ⟨index, hindex, hfound, rfl⟩ | hinsert
  · apply h.modify_sameAddress hindex
    · simp [TargetDevice.applyCapabilityEntry]
    · apply TargetDevice.not_isUnreachable
      rcases hfound with hstatic | hvalid
      · exact .inr (.inl hstatic)
      · exact .inr (.inr (by simp [TargetDevice.applyCapabilityEntry, hvalid]))
  · exact h.insert hinsert

/-- A row keeps the address of the target that it updates if it was found by its address. A target
found by its identifier keeps one, and moves to an address that is not in use. -/
theorem Integrity.mergeRow (h : Integrity table.devices) {row : TargetRow}
    (hrange : row.address ≤ maxTargetAddress)
    (hmerge : table.mergeRow row = .ok (count, next)) : Integrity next.devices := by
  rcases mergeRow_eq_ok hmerge with
    ⟨index, updated, hindex, hfound, happly, rfl⟩ | ⟨-, -, device, -, hinsert⟩
  · obtain ⟨haddress, -, hvalid, -⟩ := TargetDevice.applyRow_eq_ok happly
    rcases hfound with ⟨hsame, hzero⟩ | ⟨hfree, hpid⟩
    · apply h.modify_sameAddress hindex (haddress.trans hsame.symm)
      exact TargetDevice.not_isUnreachable (.inl (haddress ▸ hzero))
    · apply h.modify hindex (haddress ▸ hrange)
      · intro other hother _ hused heq
        rw [haddress] at heq
        exact hfree (mem_addresses_iff.2 ⟨heq ▸ hused, _, List.getElem_mem hother, heq⟩)
      · have hknown := (TargetDevice.matchesPid_iff.1 hpid).1
        exact TargetDevice.not_isUnreachable (.inr (.inr (by simp [hvalid, hknown])))
  · exact h.insert hinsert

/-- One operation keeps the integrity of a table, whether it is accepted or refused. -/
theorem Integrity.apply (h : Integrity table.devices) (operation : TableOperation) :
    Integrity (operation.apply table).devices := by
  refine TableOperation.apply_preserves (fun table ↦ Integrity table.devices) ?_ h
  intro before next hchanges hkept
  cases hchanges with
  | inserted device _ hinsert => exact hkept.insert hinsert
  | removed index hdevices =>
      rw [hdevices]
      exact hkept.eraseIdx index
  | moved old new hmove => exact hkept.changeAddress hmove
  | configured address config maxIbiPayload hupdate => exact hkept.updateConfig hupdate
  | mergedEntry entry count hmerge => exact hkept.mergeEntry hmerge
  | mergedRow row count haddressable hmerge =>
      refine hkept.mergeRow ?_ hmerge
      simpa [isUnaddressable] using (Bool.or_eq_false_iff.1 haddressable).1
  | announced hdevices => rwa [hdevices]

/-- A history of operations keeps the integrity of a table. -/
theorem Integrity.applyAll (h : Integrity table.devices) (history : List TableOperation) :
    Integrity (history.foldl TableOperation.apply table).devices := by
  induction history generalizing table with
  | nil => exact h
  | cons operation history ih => exact ih (h.apply operation)

/-- After every history of operations, accepted or refused, no two targets share an address, all
addresses have seven bits, and no target is out of reach. -/
theorem integrity_run (history : List TableOperation) :
    Integrity (TableOperation.run history).devices :=
  Integrity.nil.applyAll history

end TargetTable

end I3cHost
