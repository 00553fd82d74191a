import Mathlib.Data.List.Perm.Subperm
import I3cHost.Proofs.Codec.RoundTrip
import I3cHost.Proofs.Target.Integrity

/-!
# Configuring targets

Initialization gives every target that has an address the same configuration. The request for it can
always be written, since there are not more addresses than it can count (`configChange_eq_ok`), and
it is read as one entry for every address in use (`entries_configChange`). Recording the
configuration of one address after the other leaves the table with all targets configured
(`updateConfig_eq_ok_of_mem`, `configuredAt_addresses`).
-/

namespace I3cHost

/-- The flags are read back from the byte that they were put in. -/
@[simp] theorem TargetConfig.config_bits (config : TargetConfig) : config.bits.config = config := by
  obtain ⟨interruptRequest, controllerRoleRequest, ibiTimestamp⟩ := config
  cases interruptRequest <;> cases controllerRoleRequest <;> cases ibiTimestamp <;> decide

namespace TargetDevice

variable {device : TargetDevice}

/-- The target with a configuration, if it has an address. -/
def configured (config : TargetConfig) (maxIbiPayload : UInt32) (device : TargetDevice) :
    TargetDevice :=
  if device.address = 0 then device else { device with config, maxIbiPayload }

/-- The target with a configuration, if its address is one of the given ones. -/
def configuredAt (addresses : List UInt8) (config : TargetConfig) (maxIbiPayload : UInt32)
    (device : TargetDevice) : TargetDevice :=
  if device.address ∈ addresses then { device with config, maxIbiPayload } else device

/-- A device that is configured twice alike is as if it was configured once. -/
@[simp] theorem configured_configured (config : TargetConfig) (maxIbiPayload : UInt32) :
    (device.configured config maxIbiPayload).configured config maxIbiPayload =
      device.configured config maxIbiPayload := by
  unfold configured
  split
  next => rfl
  next => rfl

/-- A device is not configured at no address. -/
@[simp] theorem configuredAt_nil (config : TargetConfig) (maxIbiPayload : UInt32) :
    device.configuredAt [] config maxIbiPayload = device :=
  if_neg List.not_mem_nil

/-- One address after the other. -/
theorem configuredAt_cons (address : UInt8) (addresses : List UInt8) (config : TargetConfig)
    (maxIbiPayload : UInt32) : (device.configuredAt [address] config maxIbiPayload).configuredAt
        addresses config maxIbiPayload =
      device.configuredAt (address :: addresses) config maxIbiPayload := by
  unfold configuredAt
  by_cases haddress : device.address = address
  · simp [haddress]
  · simp [haddress]

/-- A configuration does not move a target. -/
@[simp] theorem address_configuredAt (addresses : List UInt8) (config : TargetConfig)
    (maxIbiPayload : UInt32) :
    (device.configuredAt addresses config maxIbiPayload).address = device.address := by
  unfold configuredAt
  split <;> rfl

/-- Configuring a device does not make it reachable or unreachable. -/
@[simp] theorem isUnreachable_configuredAt (addresses : List UInt8) (config : TargetConfig)
    (maxIbiPayload : UInt32) :
    (device.configuredAt addresses config maxIbiPayload).isUnreachable = device.isUnreachable := by
  unfold configuredAt
  split <;> rfl

end TargetDevice

namespace ConfigChange

/-- The bytes of a request that configures targets. -/
def layout (change : ConfigChange) : Bytes :=
  Record.toBytes ({ commandType, count := UInt8.ofNat change.entries.length } : ConfigChangeHeader)
    ++ change.entries.flatMap Record.toBytes

/-- A request is written if its entries can be counted. -/
theorem toBytes_eq_layout (change : ConfigChange) (hcount : change.entries.length ≤ 255) :
    Message.toBytes change = .ok change.layout := by
  refine Message.toBytes_of_fits ?_ fun writer hfits ↦ ?_
  · rw [layout, List.length_append, Record.length_toBytes, List.length_flatMap]
    simp [Record.length_toBytes, Message.encodedSize]
  · show encode change writer = _
    rw [encode, if_pos hcount]
    exact Writer.headed_of_fits (fun entry writer ↦ writer.record entry)
      (fun _ _ _ hfits ↦ Writer.record_of_fits hfits) hfits

/-- The header of a request, with some reserved bytes. -/
def header (count : Nat) (reserved : UInt8 × UInt8) : ConfigChangeHeader :=
  { commandType, count := UInt8.ofNat count, reserved }

/-- The header counts up to 255 entries. -/
theorem count_header {count : Nat} (hcount : count ≤ 255) (reserved : UInt8 × UInt8) :
    (header count reserved).count.toNat = count := by
  rw [header, UInt8.toNat_ofNat', Nat.mod_eq_of_lt (by omega)]

/-- A request is read back, whatever its reserved bytes are and whatever follows it. -/
theorem decode_append {entries : List ConfigChangeEntry} (hcount : entries.length ≤ 255)
    (reserved : UInt8 × UInt8) (rest : Bytes) :
    decode (Record.toBytes (header entries.length reserved) ++
      (entries.flatMap Record.toBytes ++ rest)) = .ok ⟨entries⟩ := by
  unfold decode
  simp only [Reader.ofBytes, Reader.record_append, bind, Except.bind]
  rw [count_header hcount, Reader.records_append]
  rfl

/-- A request that was written is read back. -/
theorem decode_layout (change : ConfigChange) (hcount : change.entries.length ≤ 255) :
    decode change.layout = .ok change := by
  have hread := decode_append hcount (0, 0) []
  rwa [List.append_nil] at hread

end ConfigChange

namespace TargetTable

variable {table : TargetTable} {address : UInt8}

/-- The table with a configuration of all targets that have an address. -/
def configured (config : TargetConfig) (maxIbiPayload : UInt32) (table : TargetTable) :
    TargetTable :=
  { table with devices := table.devices.map (·.configured config maxIbiPayload) }

/-- The table with a configuration of the targets at some addresses. -/
def configuredAt (addresses : List UInt8) (config : TargetConfig) (maxIbiPayload : UInt32)
    (table : TargetTable) : TargetTable :=
  { table with devices := table.devices.map (·.configuredAt addresses config maxIbiPayload) }

/-- Configuring no addresses leaves the table as it is. -/
@[simp] theorem configuredAt_nil (config : TargetConfig) (maxIbiPayload : UInt32) :
    table.configuredAt [] config maxIbiPayload = table := by
  simp [configuredAt]

/-- One address after the other. -/
theorem configuredAt_cons (address : UInt8) (addresses : List UInt8) (config : TargetConfig)
    (maxIbiPayload : UInt32) : (table.configuredAt [address] config maxIbiPayload).configuredAt
        addresses config maxIbiPayload =
      table.configuredAt (address :: addresses) config maxIbiPayload := by
  have hdevices := List.map_congr_left (l := table.devices) fun device _ ↦
    device.configuredAt_cons address addresses config maxIbiPayload
  simp only [configuredAt, List.map_map, ← hdevices]
  rfl

/-- Configuring every address configures all targets that have one. -/
theorem configuredAt_addresses (config : TargetConfig) (maxIbiPayload : UInt32) :
    table.configuredAt table.addresses config maxIbiPayload =
      table.configured config maxIbiPayload := by
  have hdevices : table.devices.map (·.configuredAt table.addresses config maxIbiPayload) =
      table.devices.map (·.configured config maxIbiPayload) := by
    refine List.map_congr_left fun device hdevice ↦ ?_
    unfold TargetDevice.configuredAt TargetDevice.configured
    by_cases hzero : device.address = 0
    · rw [if_pos hzero, if_neg fun hmem ↦ (mem_addresses_iff.1 hmem).1 hzero]
    · rw [if_neg hzero, if_pos (mem_addresses_iff.2 ⟨hzero, device, hdevice, rfl⟩)]
  unfold configuredAt configured
  rw [hdevices]

/-- Configuring targets leaves their addresses alone. -/
@[simp] theorem addresses_configuredAt (addresses : List UInt8) (config : TargetConfig)
    (maxIbiPayload : UInt32) :
    (table.configuredAt addresses config maxIbiPayload).addresses = table.addresses := by
  unfold TargetTable.addresses configuredAt
  rw [List.map_map]
  exact congrArg (List.filter _)
    (List.map_congr_left fun device _ ↦ device.address_configuredAt _ _ _)

/-- Recording the configuration of the target at an address. -/
theorem updateConfig_eq_ok_of_mem (h : Integrity table.devices)
    (haddress : address ∈ table.addresses) (config : TargetConfig) (maxIbiPayload : UInt32) :
    table.updateConfig address config maxIbiPayload =
      .ok (table.configuredAt [address] config maxIbiPayload) := by
  unfold updateConfig
  cases hposition : table.position address with
  | none => exact absurd haddress (position_eq_none_iff.1 hposition)
  | some place =>
      simp only [modify, h.modify_eq_map hposition, configuredAt, TargetDevice.configuredAt,
        List.mem_singleton]

/-- A configuration changes neither addresses nor what targets are known by. -/
theorem Integrity.configuredAt (h : Integrity table.devices) (addresses : List UInt8)
    (config : TargetConfig) (maxIbiPayload : UInt32) :
    Integrity (table.configuredAt addresses config maxIbiPayload).devices := by
  refine ⟨?_, fun device hdevice ↦ ?_, fun device hdevice ↦ ?_⟩
  · refine List.pairwise_map.2 (h.distinct.imp fun {first second} hdistinct ↦ ?_)
    rwa [TargetDevice.address_configuredAt, TargetDevice.address_configuredAt]
  · obtain ⟨before, hbefore, rfl⟩ := List.mem_map.1 hdevice
    rw [TargetDevice.address_configuredAt]
    exact h.inRange before hbefore
  · obtain ⟨before, hbefore, rfl⟩ := List.mem_map.1 hdevice
    rw [← TargetDevice.isUnreachable_iff, TargetDevice.isUnreachable_configuredAt,
      TargetDevice.isUnreachable_iff]
    exact h.reachable before hbefore

/-- Configuring all targets keeps the table intact. -/
theorem Integrity.configured (h : Integrity table.devices) (config : TargetConfig)
    (maxIbiPayload : UInt32) : Integrity (table.configured config maxIbiPayload).devices := by
  rw [← configuredAt_addresses]
  exact h.configuredAt _ _ _

/-- There are not more addresses in use than seven bits can tell apart, without zero. -/
theorem length_addresses_le (h : Integrity table.devices) : table.addresses.length ≤ 127 := by
  have hdistinct : table.addresses.Nodup := by
    refine List.pairwise_filter.2 (List.pairwise_map.2 (h.distinct.imp ?_))
    intro first second hdistinct hfirst _
    exact hdistinct (bne_iff_ne.1 hfirst)
  have hrange : table.addresses.map UInt8.toNat ⊆ List.range' 1 127 := by
    intro number hnumber
    obtain ⟨address, haddress, rfl⟩ := List.mem_map.1 hnumber
    obtain ⟨hzero, device, hdevice, rfl⟩ := mem_addresses_iff.1 haddress
    have hpositive : device.address.toNat ≠ 0 := fun heq ↦ hzero (UInt8.toNat_inj.1 heq)
    have hsmall : device.address.toNat ≤ 127 := UInt8.le_iff_toNat_le.1 (h.inRange device hdevice)
    rw [List.mem_range'_1]
    omega
  have hnumbers : (table.addresses.map UInt8.toNat).Nodup :=
    List.Pairwise.map UInt8.toNat (fun _ _ hne hsame ↦ hne (UInt8.toNat_inj.1 hsame)) hdistinct
  have hcount := (List.subperm_of_subset hnumbers hrange).length_le
  rwa [List.length_map, List.length_range'] at hcount

/-- The change that gives every target with an address the same configuration. -/
def changeOfAll (config : TargetConfig) (maxIbiPayload : UInt32) (table : TargetTable) :
    ConfigChange :=
  ⟨table.addresses.map fun address ↦ { address, config := config.bits, maxIbiPayload }⟩

/-- The entries of the request that configures all targets can be counted in one byte, so it can be
written. -/
theorem configChange_eq_ok (h : Integrity table.devices) (config : TargetConfig)
    (maxIbiPayload : UInt32) :
    (table.changeOfAll config maxIbiPayload).entries.length ≤ 255 ∧
      table.configChange config maxIbiPayload =
        .ok (table.changeOfAll config maxIbiPayload).layout := by
  have hcount : (table.changeOfAll config maxIbiPayload).entries.length ≤ 255 := by
    rw [changeOfAll, List.length_map]
    exact Nat.le_trans (length_addresses_le h) (by decide)
  exact ⟨hcount, congrArg HostResult.ofCodec (ConfigChange.toBytes_eq_layout _ hcount)⟩

/-- An intact table has few enough targets for one request. -/
theorem configChange_accepted (h : Integrity table.devices) (config : TargetConfig)
    (maxIbiPayload : UInt32) : ∃ buffer, table.configChange config maxIbiPayload = .ok buffer :=
  ⟨_, (configChange_eq_ok h config maxIbiPayload).2⟩

/-- In every table that operations lead to at most 127 targets have an address. So the request that
configures all of them can be written, and the byte in which it counts its entries holds their
number. It is read back as one entry for every address in use, in the order of the targets, and each
entry has the flags and the limit for interrupts that were asked for. -/
theorem entries_configChange (history : List TableOperation) (config : TargetConfig)
    (maxIbiPayload : UInt32) :
    (TableOperation.run history).addresses.length ≤ 127 ∧
    ∃ buffer change, (TableOperation.run history).configChange config maxIbiPayload = .ok buffer ∧
      (buffer.byte 1).toNat = (TableOperation.run history).addresses.length ∧
      ConfigChange.decode buffer = .ok change ∧
      change.entries.map (·.address) = (TableOperation.run history).addresses ∧
      ∀ entry ∈ change.entries,
        entry.config.config = config ∧ entry.maxIbiPayload = maxIbiPayload := by
  have hintegrity : Integrity (TableOperation.run history).devices := Integrity.nil.applyAll history
  generalize TableOperation.run history = table at *
  have hfew := length_addresses_le hintegrity
  obtain ⟨hcount, hwritten⟩ := configChange_eq_ok hintegrity config maxIbiPayload
  refine ⟨hfew, _, _, hwritten, ?_, ConfigChange.decode_layout _ hcount, ?_, fun entry hentry ↦ ?_⟩
  · show (UInt8.ofNat (table.changeOfAll config maxIbiPayload).entries.length).toNat = _
    rw [UInt8.toNat_ofNat', changeOfAll, List.length_map]
    omega
  · rw [changeOfAll, List.map_map]
    exact List.map_id _
  · obtain ⟨address, -, rfl⟩ := List.mem_map.1 hentry
    exact ⟨config.config_bits, rfl⟩

end TargetTable

end I3cHost
