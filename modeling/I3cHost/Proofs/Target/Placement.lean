import I3cHost.Proofs.Target.Identifiers
import I3cHost.Proofs.Target.Matching
import I3cHost.Proofs.Target.Repetition

/-!
# How listings and capability reports are merged

Rows of a listing are matched by the address of a target, entries of a capability report by its
static address. What a merge returns is by how many targets the table has grown
(`devices_mergeRows`, `devices_mergeEntries`).
-/

namespace I3cHost

namespace TargetDevice

variable {device updated : TargetDevice} {row : TargetRow} {entry : CapabilityEntry}
  {pid other : ProvisionedId}

/-- A target is known by the identifier of a report, or by its own if the report has none. -/
theorem adoptPid_matchesPid : (device.adoptPid pid).matchesPid other =
    if pid.isZero then device.matchesPid other else pid == other := by
  unfold matchesPid
  rw [adoptPid_validPid, adoptPid_pid]
  cases hzero : pid.isZero with
  | true => simp
  | false =>
      by_cases heq : pid = other
      · simp [← heq, hzero]
      · simp [heq]

/-- A target that has taken an identifier over knows it already. -/
theorem adoptPid_known (device : TargetDevice) (pid : ProvisionedId) :
    pid.isZero = true ∨ (device.adoptPid pid).matchesPid pid = true := by
  rw [adoptPid_matchesPid]
  cases hzero : pid.isZero with
  | true => exact .inl rfl
  | false => exact .inr (by simp)

/-- The target with all that a row says of it. A type that is not defined is taken for I3C. -/
def takeRow (device : TargetDevice) (row : TargetRow) : TargetDevice :=
  { device.adoptPid row.pid with
    address := row.address
    type := (Coded.ofByte row.type).toOption.getD .i3c
    dcr := row.dcr
    bcr := row.bcr
    capability := { device.capability with handoffControllerRole := canTakeController row.bcr }
    config := row.config.config
    maxIbiPayload := row.maxIbiPayload }

/-- A row that is taken over says all that is known of the target afterwards. -/
theorem applyRow_eq_ok_iff_takeRow : device.applyRow row = .ok updated ↔
    (∃ type : TargetType, Coded.ofByte row.type = .ok type) ∧ updated = device.takeRow row := by
  rw [applyRow_eq_ok_iff]
  constructor
  · rintro ⟨type, htype, rfl⟩
    refine ⟨⟨type, htype⟩, ?_⟩
    rw [takeRow, htype]
    rfl
  · rintro ⟨⟨type, htype⟩, rfl⟩
    refine ⟨type, htype, ?_⟩
    rw [takeRow, htype]
    rfl

end TargetDevice

/-- Rows of a listing are matched by address. -/
def TargetRow.matching : Matching TargetRow where
  held := (·.address)
  given := (·.address)
  pid := (·.pid)
  take := TargetDevice.takeRow
  held_take _ _ := rfl
  matchesPid_take _ _ _ := TargetDevice.adoptPid_matchesPid
  take_take device row := by
    have hknown : row.pid.isZero = true ∨ (device.takeRow row).matchesPid row.pid = true :=
      device.adoptPid_known row.pid
    rw [TargetDevice.takeRow, TargetDevice.adoptPid_of_matchesPid hknown]
    rfl

/-- Entries of a capability report are matched by static address. -/
def CapabilityEntry.matching : Matching CapabilityEntry where
  held := (·.capability.staticAddress)
  given := (·.staticAddress)
  pid := (·.pid)
  take := TargetDevice.applyCapabilityEntry
  held_take _ _ := rfl
  matchesPid_take _ _ _ := TargetDevice.adoptPid_matchesPid
  take_take device entry := by
    have hknown : entry.pid.isZero = true ∨
        (device.applyCapabilityEntry entry).matchesPid entry.pid = true :=
      device.adoptPid_known entry.pid
    rw [TargetDevice.applyCapabilityEntry, TargetDevice.adoptPid_of_matchesPid hknown]
    rfl

namespace TargetTable

variable {table next : TargetTable} {row : TargetRow} {rows : List TargetRow}
  {entry : CapabilityEntry} {entries : List CapabilityEntry} {added count total : Nat}

/-- A device is searched for by an address other than zero. -/
theorem position_eq (table : TargetTable) (address : UInt8) : table.position address =
    table.devices.findIdx? fun device ↦ address != 0 && device.address == address := by
  unfold position
  split
  next hzero => exact (List.findIdx?_eq_none_iff.2 fun device _ ↦ by simp [hzero]).symm
  next hzero => rw [bne_iff_ne.2 hzero]; rfl

/-- The place of the target that a row is about. -/
theorem found_row : TargetRow.matching.found table.devices row = table.positionOfRow row := by
  rw [positionOfRow, position_eq]
  rfl

/-- The search for the device of an entry is the search for its match. -/
theorem found_entry :
    CapabilityEntry.matching.found table.devices entry = table.positionOfEntry entry :=
  rfl

/-- A row is merged as its matching says. -/
theorem devices_mergeRow (h : table.mergeRow row = .ok (count, next)) :
    next.devices = TargetRow.matching.merge table.devices row ∧
      next.devices.length = table.devices.length + count := by
  unfold Matching.merge
  rw [found_row]
  rcases mergeRow_cases h with
    ⟨index, updated, hindex, hfound, happly, rfl, rfl⟩ | ⟨hnone, device, happly, rfl, hinsert⟩
  · obtain ⟨-, rfl⟩ := TargetDevice.applyRow_eq_ok_iff_takeRow.1 happly
    rw [hfound]
    refine ⟨?_, by simp [modify]⟩
    refine List.ext_getElem? fun place ↦ ?_
    rw [modify, List.getElem?_modify, List.getElem?_modify]
    by_cases hplace : index = place
    · subst hplace
      rw [List.getElem?_eq_getElem hindex]
      rfl
    · simp [hplace]
  · obtain ⟨-, rfl⟩ := TargetDevice.applyRow_eq_ok_iff_takeRow.1 happly
    obtain ⟨-, -, -, rfl⟩ := insert_eq_ok_iff.1 hinsert
    rw [hnone, announce_devices]
    exact ⟨rfl, by simp⟩

/-- Merging rows one by one is merging them all, and every device that is added is counted. -/
theorem devices_mergeRows (h : table.mergeRows added rows = (.ok total, next)) :
    next.devices = TargetRow.matching.mergeAll table.devices rows ∧
      next.devices.length + added = table.devices.length + total := by
  induction rows generalizing table added with
  | nil =>
      cases h
      exact ⟨rfl, rfl⟩
  | cons row rows ih =>
      obtain ⟨count, merged, hrow, hrest⟩ := mergeRows_cons_eq_ok h
      obtain ⟨hmerged, hcount⟩ := devices_mergeRow hrow
      obtain ⟨hnext, htotal⟩ := ih hrest
      rw [Matching.mergeAll_cons, ← hmerged]
      exact ⟨hnext, by omega⟩

/-- An entry of a capability report is merged as its matching says. -/
theorem devices_mergeEntry (h : table.mergeEntry entry = .ok (count, next)) :
    next.devices = CapabilityEntry.matching.merge table.devices entry ∧
      next.devices.length = table.devices.length + count := by
  unfold mergeEntry at h
  unfold Matching.merge
  rw [found_entry]
  cases hposition : table.positionOfEntry entry with
  | some index =>
      rw [hposition] at h
      cases h
      exact ⟨rfl, by simp [modify]⟩
  | none =>
      rw [hposition] at h
      obtain ⟨inserted, hinsert, h⟩ := bind_eq_ok_iff.1 h
      cases h
      obtain ⟨-, -, -, rfl⟩ := insert_eq_ok_iff.1 hinsert
      rw [announce_devices]
      exact ⟨rfl, by simp⟩

/-- Merging entries one by one is merging them all, and every device that is added is counted. -/
theorem devices_mergeEntries (h : table.mergeEntries added entries = (.ok total, next)) :
    next.devices = CapabilityEntry.matching.mergeAll table.devices entries ∧
      next.devices.length + added = table.devices.length + total := by
  induction entries generalizing table added with
  | nil =>
      cases h
      exact ⟨rfl, rfl⟩
  | cons entry entries ih =>
      unfold mergeEntries at h
      split at h
      next count merged hentry =>
        obtain ⟨hmerged, hcount⟩ := devices_mergeEntry hentry
        obtain ⟨hnext, htotal⟩ := ih h
        rw [Matching.mergeAll_cons, ← hmerged]
        exact ⟨hnext, by omega⟩
      next => cases h

/-- What a row is about is told by its address and its identifier. -/
theorem Unambiguous.matching (h : Unambiguous rows) : TargetRow.matching.Unambiguous rows :=
  h.addresses.imp₂ (fun _ _ haddress hpid ↦ ⟨haddress, hpid⟩) h.pids

/-- A row that is not refused names its target. -/
theorem named_of_isUnaddressable (h : isUnaddressable row = false) :
    TargetRow.matching.Named row := by
  by_cases hzero : row.address = 0
  · refine .inr (show row.pid.isZero = false from ?_)
    simpa [isUnaddressable, hzero, maxTargetAddress] using h
  · exact .inl hzero

/-- An entry that is not refused names its target. -/
theorem named_of_isUnreachable (h : (TargetDevice.ofCapabilityEntry entry).isUnreachable = false) :
    CapabilityEntry.matching.Named entry := by
  by_cases hzero : entry.staticAddress = 0
  · refine .inr (show entry.pid.isZero = false from ?_)
    rw [← Bool.not_eq_true, TargetDevice.isUnreachable_iff] at h
    rw [← Bool.not_eq_true]
    intro hnone
    apply h
    simp [TargetDevice.ofCapabilityEntry, TargetDevice.applyCapabilityEntry, TargetDevice.adoptPid,
      hnone, hzero]
  · exact .inl hzero

end TargetTable

end I3cHost
