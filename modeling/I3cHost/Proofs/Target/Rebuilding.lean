import I3cHost.Proofs.Codec.EntryList
import I3cHost.Proofs.Target.Configuration
import I3cHost.Proofs.Target.Placement

/-!
# A table rebuilt from its listing

The listing of a table has a row for every target. A table without targets accepts it if every
target has an address or an identifier; a target that only has a static address, or that speaks I2C,
may have neither. Addresses are distinct in every table that operations lead to. So if identifiers
are as well, no row is about the target of another one, and each adds its target with what a listing
says of it (`relisted`). What only the capability report says is lost.
-/

namespace I3cHost

/-- A target type is read back from its code. -/
theorem TargetType.ofByte_byte (type : TargetType) : Coded.ofByte (Coded.byte type) = .ok type :=
  Coded.ofByte_byte (by cases type <;> decide)

namespace TargetDevice

variable {device : TargetDevice}

/-- What a listing says of a target. -/
def relisted (device : TargetDevice) : TargetDevice where
  address := device.address
  pid := device.pid
  type := device.type
  dcr := device.dcr
  bcr := device.bcr
  capability := { handoffControllerRole := canTakeController device.bcr }
  config := device.config
  maxIbiPayload := device.maxIbiPayload
  validPid := !device.pid.isZero

/-- A new target that takes over the row of another is as this one is listed. -/
theorem takeRow_row (device : TargetDevice) : takeRow {} device.row = device.relisted := by
  have hpid : (adoptPid {} device.pid).pid = device.pid := by
    rw [adoptPid_pid]
    split
    next hzero =>
      obtain ⟨hhigh, hlow⟩ : device.pid.high = 0 ∧ device.pid.low = 0 := by
        simpa [ProvisionedId.isZero] using hzero
      exact (congrArg₂ ProvisionedId.mk hhigh hlow).symm
    next => rfl
  have hvalid : (adoptPid {} device.pid).validPid = !device.pid.isZero := by simp
  rw [takeRow, row, relisted, hpid, hvalid, TargetType.ofByte_byte, TargetConfig.config_bits]
  rfl

end TargetDevice

namespace TargetTable

variable {table empty : TargetTable} {device : TargetDevice}

/-- The listing of a table that is not too large can be written, and is read back. -/
theorem listing_eq_ok (h : table.size ≤ 65535) : ∃ buffer, table.listing = .ok buffer ∧
    TargetListing.decode buffer = .ok ⟨table.devices.map (·.row)⟩ := by
  have hcount : (table.devices.map (·.row)).length ≤ 65535 := by rwa [List.length_map]
  refine ⟨EntryList.layout (table.devices.map (·.row)), ?_,
    TargetListing.decode_eq_ok_iff.2 ⟨?_, ?_⟩⟩
  · rw [listing, Message.toBytes_of_fits EntryList.length_layout
      fun _ hfits ↦ EntryList.encode_of_fits hcount hfits]
    rfl
  · simpa using EntryList.decode_layout hcount []
  · rw [List.forall_mem_map]
    exact fun device _ ↦ ⟨device.type, device.type.ofByte_byte⟩

/-- The row of a target can be addressed if the target has an address or an identifier. -/
theorem isUnaddressable_row (hrange : device.address ≤ 0x7F) : isUnaddressable device.row = false ↔
    device.address ≠ 0 ∨ device.pid.isZero = false := by
  have hsmall : ¬ device.address > maxTargetAddress := UInt8.not_lt.2 hrange
  simp [isUnaddressable, TargetDevice.row, hsmall, imp_iff_not_or]

/-- No row of a table is unclear about its target if no identifier is used twice. -/
theorem Integrity.unambiguous_rows (h : Integrity table.devices)
    (hpids : table.devices.Pairwise fun first second ↦
      first.pid.isZero = false → first.pid ≠ second.pid) :
    Unambiguous (table.devices.map (·.row)) where
  addresses := List.pairwise_map.2 h.distinct
  pids := List.pairwise_map.2 hpids

/-- Rows that differ from each other add their targets to a table without any. -/
theorem mergeRows_of_empty {rows : List TargetRow} {added : Nat} {next : TargetTable}
    (hempty : empty.devices = []) (hrows : Unambiguous rows)
    (hmerge : empty.mergeRows 0 rows = (.ok added, next)) :
    next.devices = rows.map (TargetDevice.takeRow {}) ∧ added = rows.length := by
  obtain ⟨hdevices, hadded⟩ := devices_mergeRows hmerge
  rw [Matching.mergeAll_of_new hrows.matching fun row _ ↦ by simp [hempty, Matching.found],
    hempty, List.nil_append] at hdevices
  refine ⟨hdevices, ?_⟩
  rw [hdevices, hempty, List.length_map] at hadded
  simpa using hadded.symm

/-- In every table with at most 65535 targets that operations lead to, the listing can be written. A
table without targets accepts it exactly if every target has an address or an identifier. Then, if
no identifier is used twice, it adds as many targets as there were, in their order and each with
what a listing says of it. -/
theorem listing_rebuilds (history : List TableOperation)
    (hsize : (TableOperation.run history).size ≤ 65535) (hempty : empty.devices = []) :
    ∃ buffer, (TableOperation.run history).listing = .ok buffer ∧
      ((∃ added next, empty.mergeListing buffer = (.ok added, next)) ↔
        ∀ device ∈ (TableOperation.run history).devices,
          device.address ≠ 0 ∨ device.pid.isZero = false) ∧
      ((∀ device ∈ (TableOperation.run history).devices,
          device.address ≠ 0 ∨ device.pid.isZero = false) →
        ((TableOperation.run history).devices.Pairwise fun first second ↦
          first.pid.isZero = false → first.pid ≠ second.pid) →
        ∃ next, empty.mergeListing buffer = (.ok (TableOperation.run history).size, next) ∧
          next.devices = (TableOperation.run history).devices.map (·.relisted)) := by
  have hintegrity : Integrity (TableOperation.run history).devices := Integrity.nil.applyAll history
  generalize TableOperation.run history = table at *
  obtain ⟨buffer, hlisting, hdecode⟩ := listing_eq_ok hsize
  have htypes := TargetListing.type_of_decode hdecode
  have hrows : (∀ row ∈ table.devices.map (·.row), isUnaddressable row = false) ↔
      ∀ device ∈ table.devices, device.address ≠ 0 ∨ device.pid.isZero = false := by
    rw [List.forall_mem_map]
    exact forall₂_congr fun device hdevice ↦
      isUnaddressable_row (hintegrity.inRange device hdevice)
  have haccepted (haddressable : ∀ device ∈ table.devices,
      device.address ≠ 0 ∨ device.pid.isZero = false) :
      empty.mergeListing buffer = empty.mergeRows 0 (table.devices.map (·.row)) ∧
        ∃ added next, empty.mergeRows 0 (table.devices.map (·.row)) = (.ok added, next) :=
    ⟨mergeListing_of_rows hdecode (hrows.2 haddressable),
      mergeRows_accepted (hrows.2 haddressable) htypes 0⟩
  refine ⟨buffer, hlisting, ⟨?_, fun haddressable ↦ ?_⟩, fun haddressable hpids ↦ ?_⟩
  · rintro ⟨added, next, hmerge⟩
    exact hrows.1 (mergeListing_eq_ok hdecode hmerge).1
  · obtain ⟨hsame, hmerge⟩ := haccepted haddressable
    rwa [hsame]
  · obtain ⟨hsame, added, next, hmerge⟩ := haccepted haddressable
    obtain ⟨hdevices, rfl⟩ := mergeRows_of_empty hempty (hintegrity.unambiguous_rows hpids) hmerge
    refine ⟨next, ?_, ?_⟩
    · rw [hsame, hmerge, List.length_map, size]
    · rw [hdevices, List.map_map]
      exact List.map_congr_left fun device _ ↦ device.takeRow_row

/-- A target that speaks I2C, one that is known by its identifier and a static address, and one that
has been given an address and a configuration. -/
def threeWays : List TableOperation :=
  [.insert (.i2c 8),
    .insert { TargetDevice.ofPid 0 5 with capability := { staticAddress := 0x30 } },
    .insert { TargetDevice.ofPid 9 6 with bcr := 0x46 },
    .updateConfig 9 { interruptRequest := true } 32]

/-- They are listed, and a table whose listener is told of them has them again. -/
theorem listing_rebuilds_threeWays :
    (TableOperation.run threeWays).size = 3 ∧
    ∃ buffer next, (TableOperation.run threeWays).listing = .ok buffer ∧
      (TableOperation.run [.listen (some "arrivals")]).mergeListing buffer = (.ok 3, next) ∧
      next.devices =
        [{ address := 8, type := .i2c }, .ofPid 0 5,
          { TargetDevice.ofPid 9 6 with
            bcr := 0x46
            capability := { handoffControllerRole := true }
            config := { interruptRequest := true }
            maxIbiPayload := 32 }] := by
  have hsize : (TableOperation.run threeWays).size = 3 := by rfl
  have hempty : (TableOperation.run [.listen (some "arrivals")]).devices = [] := by rfl
  obtain ⟨buffer, hlisting, -, hrebuilt⟩ :=
    listing_rebuilds threeWays (hsize ▸ by decide) hempty
  obtain ⟨next, hmerge, hdevices⟩ := hrebuilt (by decide) (by decide)
  exact ⟨hsize, buffer, next, hlisting, hmerge, hdevices.trans (by rfl)⟩

end TargetTable

end I3cHost
