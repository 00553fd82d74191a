import I3cHost.Proofs.Codec.Reading
import I3cHost.Target.Merge
import I3cHost.Target.Relocation

/-!
# What the operations of the table do to its targets

One lemma for each way of finding a target and for each operation that changes the table. An
operation appends a target, removes one, or replaces one at its place; the lemmas say which, and
what it has checked before. Listeners never influence the targets.
-/

namespace I3cHost

/-- A symmetric relation between any two of a list holds in both orders. -/
theorem related_of_pairwise {α : Type} {Related : α → α → Prop} {values : List α}
    (hsymm : ∀ first second, Related first second → Related second first)
    (h : values.Pairwise Related) {first second : Nat} (hfirst : first < values.length)
    (hsecond : second < values.length) (hne : first ≠ second) :
    Related values[first] values[second] := by
  rw [List.pairwise_iff_getElem] at h
  rcases Nat.lt_or_gt_of_ne hne with hlt | hgt
  · exact h first second hfirst hsecond hlt
  · exact hsymm _ _ (h second first hsecond hfirst hgt)

/-- A symmetric relation holds between any two of a list in which one was replaced, if it holds
between any two others and between each other and the new one. -/
theorem pairwise_modify {α : Type} {Related : α → α → Prop} {values : List α} {index : Nat}
    {change : α → α} (hsymm : ∀ first second, Related first second → Related second first)
    (hindex : index < values.length)
    (hothers : ∀ (first second : Nat) (hfirst : first < values.length)
      (hsecond : second < values.length), first ≠ index → second ≠ index → first ≠ second →
      Related values[first] values[second])
    (hchanged : ∀ (other : Nat) (hother : other < values.length), other ≠ index →
      Related values[other] (change values[index])) :
    (values.modify index change).Pairwise Related := by
  rw [List.pairwise_iff_getElem]
  intro first second hfirst hsecond hlt
  rw [List.length_modify] at hfirst hsecond
  rw [List.getElem_modify, List.getElem_modify]
  -- The replaced value may be the first of the two, the second, or neither.
  by_cases hleft : index = first
  · subst hleft
    rw [if_pos rfl, if_neg (Nat.ne_of_lt hlt)]
    exact hsymm _ _ (hchanged second hsecond (Nat.ne_of_gt hlt))
  · rw [if_neg hleft]
    by_cases hright : index = second
    · subst hright
      rw [if_pos rfl]
      exact hchanged first hfirst (Ne.symm hleft)
    · rw [if_neg hright]
      exact hothers first second hfirst hsecond (Ne.symm hleft) (Ne.symm hright)
        (Nat.ne_of_lt hlt)

namespace ProvisionedId

/-- Only the identifier zero stands for no identifier. -/
theorem isZero_iff {identifier : ProvisionedId} :
    identifier.isZero = true ↔ identifier.toNat = 0 := by
  have hhigh := UInt16.toNat_inj (a := identifier.high) (b := 0)
  have hlow := UInt32.toNat_inj (a := identifier.low) (b := 0)
  simp only [isZero, toNat, Bool.and_eq_true, beq_iff_eq, ← hhigh, ← hlow, UInt16.toNat_zero,
    UInt32.toNat_zero]
  omega

end ProvisionedId

namespace TargetDevice

variable {device : TargetDevice} {pid : ProvisionedId}

/-- An identifier that is adopted does not move the target. -/
@[simp] theorem adoptPid_address : (device.adoptPid pid).address = device.address := by
  unfold adoptPid
  split <;> simp [setPid]

/-- An identifier that is adopted does not touch the static data. -/
@[simp] theorem adoptPid_capability : (device.adoptPid pid).capability = device.capability := by
  unfold adoptPid
  split <;> simp [setPid]

/-- A target is known by its identifier if it was before, or if the report has one. -/
@[simp] theorem adoptPid_validPid :
    (device.adoptPid pid).validPid = (device.validPid || !pid.isZero) := by
  unfold adoptPid
  split
  next hzero => simp [hzero]
  next hzero =>
    have : pid.toNat ≠ 0 := by rwa [Ne, ← ProvisionedId.isZero_iff]
    simp [setPid, hzero, this]

/-- A target takes over the identifier of a report that has one. -/
@[simp] theorem adoptPid_pid :
    (device.adoptPid pid).pid = if pid.isZero then device.pid else pid := by
  unfold adoptPid
  split <;> simp [setPid]

/-- A target is known by an identifier if it has a valid one that is not zero. -/
theorem matchesPid_iff : device.matchesPid pid = true ↔
    device.validPid = true ∧ pid.isZero = false ∧ device.pid = pid := by
  simp [matchesPid, and_assoc]

/-- A row is taken over exactly if its type is defined; then address, type and identifier are
those of the row, while the static address stays, and so does the identifier if the row has
none. -/
theorem applyRow_eq_ok {row : TargetRow} {updated : TargetDevice}
    (h : device.applyRow row = .ok updated) :
    updated.address = row.address ∧
    updated.capability.staticAddress = device.capability.staticAddress ∧
    updated.validPid = (device.validPid || !row.pid.isZero) ∧
    updated.pid = if row.pid.isZero then device.pid else row.pid := by
  unfold applyRow at h
  cases htype : (Coded.ofByte row.type : CodecResult TargetType) with
  | error error => simp [htype, bind, Except.bind] at h
  | ok type =>
      simp only [htype, bind, Except.bind, pure, Except.pure, Except.ok.injEq] at h
      subst h
      simp

/-- A target is known by the identifier of a row that was taken over. -/
theorem applyRow_matchesPid {row : TargetRow} {updated : TargetDevice}
    (h : device.applyRow row = .ok updated) (hrow : row.pid.isZero = false) :
    updated.matchesPid row.pid = true := by
  obtain ⟨-, -, hvalid, hpid⟩ := applyRow_eq_ok h
  exact matchesPid_iff.2 ⟨by simp [hvalid, hrow], hrow, by simp [hpid, hrow]⟩

/-- A row without an identifier does not change what a target is known by. -/
theorem applyRow_matchesPid_of_isZero {row : TargetRow} {updated : TargetDevice}
    (h : device.applyRow row = .ok updated) (hrow : row.pid.isZero = true) :
    updated.matchesPid pid = device.matchesPid pid := by
  obtain ⟨-, -, hvalid, hpid⟩ := applyRow_eq_ok h
  simp [matchesPid, hvalid, hpid, hrow]

end TargetDevice

namespace TargetTable

variable {table next : TargetTable} {address : UInt8} {index : Nat}

/-- An address is in use if a target has it, zero excepted. -/
theorem mem_addresses_iff :
    address ∈ table.addresses ↔
      address ≠ 0 ∧ ∃ device ∈ table.devices, device.address = address := by
  simp only [addresses, List.mem_filter, List.mem_map, bne_iff_ne]
  exact and_comm

/-- A position is that of a target with the address, which is not zero. -/
theorem position_eq_some (h : table.position address = some index) :
    address ≠ 0 ∧ ∃ hindex : index < table.devices.length,
      table.devices[index].address = address := by
  unfold position at h
  split at h
  next => cases h
  next hzero =>
    obtain ⟨hindex, hfound, _⟩ := List.findIdx?_eq_some_iff_getElem.1 h
    exact ⟨hzero, hindex, by simpa using hfound⟩

/-- An address without a position is not in use. -/
theorem position_eq_none_iff : table.position address = none ↔ address ∉ table.addresses := by
  rw [mem_addresses_iff]
  unfold position
  by_cases hzero : address = 0 <;> simp [hzero]

/-- A position found by an identifier is that of a target that is known by it. -/
theorem positionOfPid_eq_some {pid : ProvisionedId} (h : table.positionOfPid pid = some index) :
    ∃ hindex : index < table.devices.length, table.devices[index].matchesPid pid = true := by
  obtain ⟨hindex, hfound, _⟩ := List.findIdx?_eq_some_iff_getElem.1 h
  exact ⟨hindex, hfound⟩

/-- Without a position no target is known by an identifier. -/
theorem positionOfPid_eq_none_iff {pid : ProvisionedId} :
    table.positionOfPid pid = none ↔
      ∀ device ∈ table.devices, device.matchesPid pid = false :=
  List.findIdx?_eq_none_iff

/-- An announcement changes nothing but what listeners have been told. -/
theorem announce_eq (table : TargetTable) (address : UInt8) :
    ∃ arrivals, table.announce address = { table with arrivals } := by
  unfold announce
  split
  · split <;> exact ⟨_, rfl⟩
  · exact ⟨_, rfl⟩

/-- Announcing a target does not change it. -/
@[simp] theorem announce_devices : (table.announce address).devices = table.devices := by
  obtain ⟨arrivals, h⟩ := table.announce_eq address
  rw [h]

/-- Announcing a target leaves announcements on or off. -/
@[simp] theorem announce_eventsEnabled :
    (table.announce address).eventsEnabled = table.eventsEnabled := by
  obtain ⟨arrivals, h⟩ := table.announce_eq address
  rw [h]

/-- Announcing a target leaves the listener in its place. -/
@[simp] theorem announce_listener : (table.announce address).listener = table.listener := by
  obtain ⟨arrivals, h⟩ := table.announce_eq address
  rw [h]

/-- What replaces a target is in the table. -/
theorem mem_modify (hindex : index < table.devices.length) (device : TargetDevice) :
    device ∈ (table.modify index fun _ ↦ device).devices :=
  List.mem_iff_getElem.2 ⟨index, by simpa [modify] using hindex, by simp [modify]⟩

/-- A target stays in the table if another one is replaced. -/
theorem mem_modify_of_ne {change : TargetDevice → TargetDevice} {place : Nat}
    (hplace : place < table.devices.length) (hne : index ≠ place) :
    table.devices[place] ∈ (table.modify index change).devices :=
  List.mem_iff_getElem.2 ⟨place, by simpa [modify] using hplace, by simp [modify, hne]⟩

/-- A target of the table was there before, or it is what replaced another one. -/
theorem mem_of_mem_modify {device updated : TargetDevice}
    (h : device ∈ (table.modify index fun _ ↦ updated).devices) :
    device ∈ table.devices ∨ device = updated := by
  obtain ⟨place, hplace, rfl⟩ := List.getElem_of_mem h
  simp only [modify, List.getElem_modify]
  split
  · exact .inr rfl
  · exact .inl (List.getElem_mem _)

/-- What is the same of a target and of what replaces it stays as it was. -/
theorem map_modify {β : Type} {devices : List TargetDevice} {device : TargetDevice}
    {view : TargetDevice → β} {change : TargetDevice → TargetDevice}
    (hdevice : devices[index]? = some device) (hsame : view (change device) = view device) :
    (devices.modify index change).map view = devices.map view := by
  refine List.ext_getElem? fun place ↦ ?_
  rw [List.getElem?_map, List.getElem?_map]
  by_cases hindex : index = place
  · subst hindex
    rw [List.getElem?_modify_eq, hdevice]
    exact congrArg some hsame
  · rw [List.getElem?_modify_ne _ _ hindex]

/-- Replacing a target by itself changes nothing. -/
theorem modify_eq_self {device : TargetDevice} {change : TargetDevice → TargetDevice}
    (hdevice : table.devices[index]? = some device) (hsame : change device = device) :
    table.modify index change = table := by
  rw [modify, ← List.map_id (table.devices.modify _ _), map_modify hdevice hsame, List.map_id]

/-- A target is inserted exactly if its address is in range and free and it can be reached, and
then it is the last one. -/
theorem insert_eq_ok_iff {device : TargetDevice} :
    table.insert device = .ok next ↔
      device.address ≤ maxTargetAddress ∧ device.address ∉ table.addresses ∧
      device.isUnreachable = false ∧
      next = { table with devices := table.devices ++ [device] }.announce device.address := by
  rw [← position_eq_none_iff]
  unfold insert
  split
  next hrange => simp [UInt8.not_le.2 hrange]
  next hrange =>
    split
    next hused => simp [Option.isSome_iff_ne_none.1 hused]
    next hused =>
      split
      next hreach => simp [hreach]
      next hreach =>
        simp only [Option.not_isSome_iff_eq_none] at hused
        simp [UInt8.not_lt.1 hrange, hused, hreach, eq_comm]

/-- A removed target was in the table, and the others stay in their order. -/
theorem remove_eq_some {device : TargetDevice} (h : table.remove address = some (device, next)) :
    ∃ index, next.devices = table.devices.eraseIdx index := by
  simp only [remove, bind, Option.bind_eq_some_iff] at h
  obtain ⟨index, _, _, _, h⟩ := h
  cases h
  exact ⟨index, rfl⟩

/-- A target moves only to an address that is in range and not that of another target. -/
theorem changeAddress_eq_ok {old new : UInt8} (h : table.changeAddress old new = .ok next) :
    ∃ index, table.position old = some index ∧ new ≠ 0 ∧ new ≤ maxTargetAddress ∧
      (∀ other, table.position new = some other → other = index) ∧
      next = table.modify index fun device ↦ { device with address := new } := by
  unfold changeAddress at h
  split at h
  next => cases h
  next hrange =>
    obtain ⟨hzero, hlarge⟩ := not_or.1 hrange
    cases hold : table.position old with
    | none => simp [hold] at h
    | some index =>
        rw [hold] at h
        dsimp only at h
        split at h
        next => cases h
        next hother =>
          cases h
          refine ⟨index, rfl, hzero, UInt8.not_lt.1 hlarge, ?_, rfl⟩
          intro other hfound
          simpa [hfound] using hother

/-- Recording a configuration leaves everything else of the target as it was. -/
theorem updateConfig_eq_ok {config : TargetConfig} {maxIbiPayload : UInt32}
    (h : table.updateConfig address config maxIbiPayload = .ok next) :
    ∃ index, table.position address = some index ∧
      next = table.modify index fun device ↦ { device with config, maxIbiPayload } := by
  unfold updateConfig at h
  split at h
  next => cases h
  next index hposition => exact ⟨index, hposition, (Except.ok.inj h).symm⟩

/-- The target of an entry is one with its static address, or else one that is known by an
identifier. -/
theorem positionOfEntry_eq_some {entry : CapabilityEntry}
    (h : table.positionOfEntry entry = some index) :
    ∃ hindex : index < table.devices.length,
      entry.staticAddress ≠ 0 ∧
          table.devices[index].capability.staticAddress = entry.staticAddress ∨
        table.devices[index].validPid = true := by
  -- The identifier of an entry counts only if no target has its static address.
  rcases Option.or_eq_some_iff.1 h with hstatic | ⟨-, hpid⟩
  · obtain ⟨hindex, hmatch, _⟩ := List.findIdx?_eq_some_iff_getElem.1 hstatic
    simp only [Bool.and_eq_true, bne_iff_ne, beq_iff_eq] at hmatch
    exact ⟨hindex, .inl hmatch⟩
  · obtain ⟨hindex, hmatch⟩ := positionOfPid_eq_some hpid
    exact ⟨hindex, .inr (TargetDevice.matchesPid_iff.1 hmatch).1⟩

/-- An entry of a capability report is taken over by the target that it is about; without one a
target is inserted. -/
theorem mergeEntry_cases {entry : CapabilityEntry} {count : Nat}
    (h : table.mergeEntry entry = .ok (count, next)) :
    (∃ index, table.positionOfEntry entry = some index ∧
      next = table.modify index (·.applyCapabilityEntry entry)) ∨
    table.insert (.ofCapabilityEntry entry) = .ok next := by
  unfold mergeEntry at h
  split at h
  next index hfound =>
    cases h
    exact .inl ⟨index, hfound, rfl⟩
  next =>
    cases hinsert : table.insert (.ofCapabilityEntry entry) with
    | error error => simp [hinsert, bind, Except.bind] at h
    | ok inserted =>
        simp only [hinsert, bind, Except.bind, pure, Except.pure, Except.ok.injEq,
          Prod.mk.injEq] at h
        exact .inr (by rw [h.2])

/-- An entry of a capability report updates a target with the static address of the entry or one
that is known by an identifier; without such a target it inserts one. -/
theorem mergeEntry_eq_ok {entry : CapabilityEntry} {count : Nat}
    (h : table.mergeEntry entry = .ok (count, next)) :
    (∃ index, ∃ hindex : index < table.devices.length,
      (entry.staticAddress ≠ 0 ∨ table.devices[index].validPid = true) ∧
      next = table.modify index (·.applyCapabilityEntry entry)) ∨
    table.insert (.ofCapabilityEntry entry) = .ok next := by
  rcases mergeEntry_cases h with ⟨index, hfound, hnext⟩ | hinsert
  · obtain ⟨hindex, hwhere⟩ := positionOfEntry_eq_some hfound
    exact .inl ⟨index, hindex, hwhere.imp_left And.left, hnext⟩
  · exact .inr hinsert

/-- The target of a row is the one at its address, or else one that is known by its identifier. -/
theorem positionOfRow_eq_some {row : TargetRow} (h : table.positionOfRow row = some index) :
    ∃ hindex : index < table.devices.length,
      table.devices[index].address = row.address ∧ row.address ≠ 0 ∨
        row.address ∉ table.addresses ∧ table.devices[index].matchesPid row.pid = true := by
  rcases Option.or_eq_some_iff.1 h with haddress | ⟨hfree, hpid⟩
  · obtain ⟨hzero, hindex, heq⟩ := position_eq_some haddress
    exact ⟨hindex, .inl ⟨heq, hzero⟩⟩
  · obtain ⟨hindex, hmatch⟩ := positionOfPid_eq_some hpid
    exact ⟨hindex, .inr ⟨position_eq_none_iff.1 hfree, hmatch⟩⟩

/-- A row is about no target if its address is not in use and nothing is known by its identifier. -/
theorem positionOfRow_eq_none_iff {row : TargetRow} :
    table.positionOfRow row = none ↔
      row.address ∉ table.addresses ∧
      ∀ device ∈ table.devices, device.matchesPid row.pid = false := by
  rw [positionOfRow, Option.or_eq_none_iff, position_eq_none_iff, positionOfPid_eq_none_iff]

/-- A row is taken over by the target that it is about; without one a target is added. -/
theorem mergeRow_cases {row : TargetRow} {count : Nat}
    (h : table.mergeRow row = .ok (count, next)) :
    (∃ index updated, ∃ hindex : index < table.devices.length,
      table.positionOfRow row = some index ∧ table.devices[index].applyRow row = .ok updated ∧
      count = 0 ∧ next = table.modify index fun _ ↦ updated) ∨
    table.positionOfRow row = none ∧
      ∃ device, TargetDevice.applyRow {} row = .ok device ∧ count = 1 ∧
        table.insert device = .ok next := by
  unfold mergeRow at h
  split at h
  next index hfound =>
    obtain ⟨hindex, -⟩ := positionOfRow_eq_some hfound
    rw [List.getElem?_eq_getElem hindex, Option.getD_some] at h
    obtain ⟨updated, happly, h⟩ := bind_eq_ok_iff.1 h
    cases h
    exact .inl ⟨index, updated, hindex, hfound, HostResult.ofCodec_eq_ok_iff.1 happly, rfl, rfl⟩
  next hnone =>
    obtain ⟨device, happly, h⟩ := bind_eq_ok_iff.1 h
    obtain ⟨inserted, hinsert, h⟩ := bind_eq_ok_iff.1 h
    cases h
    exact .inr ⟨hnone, device, HostResult.ofCodec_eq_ok_iff.1 happly, rfl, hinsert⟩

/-- A row of a listing updates the target at its address, or else the one that is known by its
identifier; without such a target it inserts one. -/
theorem mergeRow_eq_ok {row : TargetRow} {count : Nat}
    (h : table.mergeRow row = .ok (count, next)) :
    (∃ index updated, ∃ hindex : index < table.devices.length,
      (table.devices[index].address = row.address ∧ row.address ≠ 0 ∨
        row.address ∉ table.addresses ∧ table.devices[index].matchesPid row.pid = true) ∧
      table.devices[index].applyRow row = .ok updated ∧
      next = table.modify index fun _ ↦ updated) ∨
    row.address ∉ table.addresses ∧
      (∀ device ∈ table.devices, device.matchesPid row.pid = false) ∧
      ∃ device, TargetDevice.applyRow {} row = .ok device ∧ table.insert device = .ok next := by
  rcases mergeRow_cases h with
    ⟨index, updated, hindex, hfound, happly, -, hnext⟩ | ⟨hnone, device, happly, -, hinsert⟩
  · exact .inl ⟨index, updated, hindex, (positionOfRow_eq_some hfound).2, happly, hnext⟩
  · obtain ⟨hfree, hpid⟩ := positionOfRow_eq_none_iff.1 hnone
    exact .inr ⟨hfree, hpid, device, happly, hinsert⟩

/-- Whether and to whom arrivals are announced stays the same when a row is merged, and the row
announces its address if it adds a target and has one. -/
theorem arrivals_mergeRow {row : TargetRow} {count : Nat}
    (h : table.mergeRow row = .ok (count, next)) :
    next.eventsEnabled = table.eventsEnabled ∧ next.listener = table.listener ∧
      ∀ listener, table.eventsEnabled = true → table.listener = some listener →
        next.arrivals = table.arrivals ++
          if table.positionOfRow row = none ∧ row.address ≠ 0 then #[⟨listener, row.address⟩]
          else #[] := by
  rcases mergeRow_cases h with
    ⟨index, updated, -, hfound, -, -, rfl⟩ | ⟨hnone, device, happly, -, hinsert⟩
  · exact ⟨rfl, rfl, fun _ _ _ ↦ by simp [hfound, modify]⟩
  · obtain ⟨-, -, -, rfl⟩ := insert_eq_ok_iff.1 hinsert
    obtain ⟨haddress, -⟩ := TargetDevice.applyRow_eq_ok happly
    refine ⟨by simp, by simp, fun listener henabled hlistener ↦ ?_⟩
    by_cases hzero : row.address = 0 <;> simp [announce, *]

/-- What every merged entry preserves survives a merge of entries, also one that is cut short. -/
theorem mergeEntries_preserves (Kept : TargetTable → Prop) {entries : List CapabilityEntry}
    (hstep : ∀ entry ∈ entries, ∀ table count next, Kept table →
      table.mergeEntry entry = .ok (count, next) → Kept next)
    (added : Nat) (h : Kept table) : Kept (table.mergeEntries added entries).2 := by
  induction entries generalizing table added with
  | nil => exact h
  | cons entry entries ih =>
      unfold mergeEntries
      split
      next count next hmerge =>
        apply ih
        · intro other hother
          exact hstep other (List.mem_cons_of_mem entry hother)
        · exact hstep entry List.mem_cons_self table count next h hmerge
      next => exact h

/-- What every merged row preserves survives a merge of rows, also one that is cut short. -/
theorem mergeRows_preserves (Kept : TargetTable → Prop) {rows : List TargetRow}
    (hstep : ∀ row ∈ rows, ∀ table count next, Kept table →
      table.mergeRow row = .ok (count, next) → Kept next)
    (added : Nat) (h : Kept table) : Kept (table.mergeRows added rows).2 := by
  induction rows generalizing table added with
  | nil => exact h
  | cons row rows ih =>
      unfold mergeRows
      split
      next count next hmerge =>
        apply ih
        · intro other hother
          exact hstep other (List.mem_cons_of_mem row hother)
        · exact hstep row List.mem_cons_self table count next h hmerge
      next => exact h

/-- Rows are merged one after the other. -/
theorem mergeRows_cons_eq_ok {row : TargetRow} {rows : List TargetRow} {added total : Nat}
    (h : table.mergeRows added (row :: rows) = (.ok total, next)) :
    ∃ count merged, table.mergeRow row = .ok (count, merged) ∧
      merged.mergeRows (added + count) rows = (.ok total, next) := by
  unfold mergeRows at h
  split at h
  next count merged hmerge => exact ⟨count, merged, hmerge, h⟩
  next => cases h

/-- If all rows are merged, so are the ones in front, and then the others. -/
theorem mergeRows_append_eq_ok {before rows : List TargetRow} {added total : Nat}
    (h : table.mergeRows added (before ++ rows) = (.ok total, next)) :
    ∃ count merged, table.mergeRows added before = (.ok count, merged) ∧
      merged.mergeRows count rows = (.ok total, next) := by
  induction before generalizing table added with
  | nil => exact ⟨added, table, rfl, h⟩
  | cons row before ih =>
      obtain ⟨count, merged, hmerge, h⟩ := mergeRows_cons_eq_ok h
      obtain ⟨total, last, hbefore, h⟩ := ih h
      refine ⟨total, last, ?_, h⟩
      rw [mergeRows, hmerge]
      exact hbefore

/-- A capability report either changes nothing or has its entries merged. -/
theorem mergeCapability_cases (table : TargetTable) (buffer : Bytes) :
    (∃ error, table.mergeCapability buffer = (.error error, table)) ∨
    ∃ entries, table.mergeCapability buffer = table.mergeEntries 0 entries := by
  unfold mergeCapability
  split
  · exact .inl ⟨_, rfl⟩
  · split
    · exact .inl ⟨_, rfl⟩
    · exact .inr ⟨_, rfl⟩

/-- A listing either changes nothing or has its rows merged, all of which are addressable. -/
theorem mergeListing_cases (table : TargetTable) (buffer : Bytes) :
    (∃ error, table.mergeListing buffer = (.error error, table)) ∨
    ∃ rows, (∀ row ∈ rows, isUnaddressable row = false) ∧
      table.mergeListing buffer = table.mergeRows 0 rows := by
  unfold mergeListing
  split
  · exact .inl ⟨_, rfl⟩
  next listing _ =>
    split
    · exact .inl ⟨_, rfl⟩
    next hnone => exact .inr ⟨listing.rows, by simpa using hnone, rfl⟩

/-- A listing is accepted only if each of its rows is addressable and can be merged. -/
theorem mergeListing_eq_ok {buffer : Bytes} {listing : TargetListing} {added : Nat}
    (hdecode : TargetListing.decode buffer = .ok listing)
    (h : table.mergeListing buffer = (.ok added, next)) :
    (∀ row ∈ listing.rows, isUnaddressable row = false) ∧
      table.mergeRows 0 listing.rows = (.ok added, next) := by
  simp only [mergeListing, hdecode] at h
  split at h
  next => cases h
  next hnone => exact ⟨by simpa using hnone, h⟩

/-- The rows of a listing are merged if all of them are addressable. -/
theorem mergeListing_of_rows {buffer : Bytes} {listing : TargetListing}
    (hdecode : TargetListing.decode buffer = .ok listing)
    (hrows : ∀ row ∈ listing.rows, isUnaddressable row = false) :
    table.mergeListing buffer = table.mergeRows 0 listing.rows := by
  have hnone : listing.rows.find? isUnaddressable = none := by simpa using hrows
  rw [mergeListing, hdecode]
  simp only [hnone]

/-- What every accepted move preserves survives the moves of an answer. -/
theorem relocateAll_preserves (Kept : TargetTable → Prop)
    (hstep : ∀ table old new next, Kept table →
      table.changeAddress old new = .ok next → Kept next)
    (outcomes : List AddressChangeOutcome) (moved : Nat) (h : Kept table) :
    Kept (table.relocateAll moved outcomes).2 := by
  induction outcomes generalizing table moved with
  | nil => exact h
  | cons outcome outcomes ih =>
      have hnext : Kept (table.relocate outcome).2 := by
        unfold relocate
        split
        · split
          next hmove => exact hstep table _ _ _ h hmove
          next => exact h
        · exact h
      exact ih _ hnext

/-- The moves of an answer are those of its outcomes; a malformed answer moves nothing. -/
theorem applyAddressChanges_cases (table : TargetTable) (buffer : Bytes) :
    (table.applyAddressChanges buffer).2 = table ∨
    ∃ outcomes, (table.applyAddressChanges buffer).2 = (table.relocateAll 0 outcomes).2 := by
  unfold applyAddressChanges
  split
  · exact .inl rfl
  · exact .inr ⟨_, rfl⟩

end TargetTable

end I3cHost
