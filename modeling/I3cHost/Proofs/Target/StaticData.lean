import I3cHost.Proofs.Target.Idempotence

/-!
# What a capability report changes

A capability report tells identifiers and static data of targets, and nothing of what targets are
given when the bus is initialized. So the dynamic part of every known target stays as it is, whether
the target is found by its static address or by its identifier, and targets that are added have none
(`dynamic_mergeEntries`). An entry with an identifier is not overwritten by later entries with other
static addresses and identifiers, so in the end a target is as the entry says (`static_merged`).
-/

namespace I3cHost

namespace TargetDevice

variable {device known : TargetDevice} {entry : CapabilityEntry}

/-- The target without what a capability report tells of it. -/
def dynamicPart (device : TargetDevice) : TargetDevice :=
  { device with
    pid := {}
    validPid := false
    capability := { handoffControllerRole := device.capability.handoffControllerRole } }

/-- What a capability report does not tell of a target is as it is of another. -/
structure SameDynamic (device known : TargetDevice) : Prop where
  address : device.address = known.address
  type : device.type = known.type
  dcr : device.dcr = known.dcr
  bcr : device.bcr = known.bcr
  config : device.config = known.config
  maxIbiPayload : device.maxIbiPayload = known.maxIbiPayload
  handoff : device.capability.handoffControllerRole = known.capability.handoffControllerRole

/-- All that an entry of a capability report tells of a target is so. -/
structure Records (device : TargetDevice) (entry : CapabilityEntry) : Prop where
  staticAddress : device.capability.staticAddress = entry.staticAddress
  pid : device.pid = entry.pid
  /-- The target is known by its identifier. -/
  validPid : device.validPid = true
  ibiPriority : device.capability.ibiPriority = entry.ibiPriority
  discoVersion : device.capability.discoVersion = entry.discoVersion
  maxPendingIbi : device.capability.maxPendingIbi = entry.maxPendingIbi

/-- Targets with the same dynamic part agree in every dynamic field. -/
theorem sameDynamic_of_dynamicPart (h : device.dynamicPart = known.dynamicPart) :
    device.SameDynamic known where
  address := congrArg (·.address) h
  type := congrArg (·.type) h
  dcr := congrArg (·.dcr) h
  bcr := congrArg (·.bcr) h
  config := congrArg (·.config) h
  maxIbiPayload := congrArg (·.maxIbiPayload) h
  handoff := congrArg (·.capability.handoffControllerRole) h

/-- Another identifier changes nothing of the dynamic part. -/
theorem dynamicPart_adoptPid (device : TargetDevice) (pid : ProvisionedId) :
    (device.adoptPid pid).dynamicPart = device.dynamicPart := by
  -- the identifier stays a variable here, so that nobody computes with its number
  have hreplace (pid : ProvisionedId) (valid : Bool) :
      ({ device with pid, validPid := valid } : TargetDevice).dynamicPart = device.dynamicPart :=
    rfl
  unfold adoptPid
  split
  next => rfl
  next => exact hreplace (.ofNat pid.toNat) (pid.toNat != 0)

/-- An entry changes nothing of a target but what it tells of it. -/
@[simp] theorem dynamicPart_applyCapabilityEntry (device : TargetDevice) (entry : CapabilityEntry) :
    (device.applyCapabilityEntry entry).dynamicPart = device.dynamicPart := by
  rw [← dynamicPart_adoptPid device entry.pid]
  unfold applyCapabilityEntry
  generalize device.adoptPid entry.pid = adopted
  rfl

/-- A target that has taken over an entry with an identifier is as the entry says. -/
theorem records_applyCapabilityEntry (device : TargetDevice) (hpid : entry.pid.isZero = false) :
    (device.applyCapabilityEntry entry).Records entry where
  staticAddress := rfl
  pid := adoptPid_pid.trans (if_neg (hpid ▸ Bool.false_ne_true))
  validPid := by simp [applyCapabilityEntry, hpid]
  ibiPriority := rfl
  discoVersion := rfl
  maxPendingIbi := rfl

/-- A target that is known only from its entry can be reached if the entry has a static address or
an identifier. -/
theorem reachable_ofCapabilityEntry (h : entry.staticAddress ≠ 0 ∨ entry.pid.isZero = false) :
    (ofCapabilityEntry entry).isUnreachable = false := by
  apply not_isUnreachable
  rcases h with hstatic | hpid
  · exact .inr (.inl hstatic)
  · exact .inr (.inr (by simp [ofCapabilityEntry, applyCapabilityEntry, hpid]))

end TargetDevice

namespace TargetTable

variable {table next : TargetTable} {entry : CapabilityEntry} {entries : List CapabilityEntry}
  {added count total : Nat}

/-- A target without an address is inserted without an announcement. -/
theorem announce_zero (table : TargetTable) : table.announce 0 = table := by
  unfold announce
  split <;> simp

/-- The addresses in use are told by the dynamic parts of the targets. -/
theorem addresses_eq_dynamicPart (table : TargetTable) : table.addresses =
    ((table.devices.map TargetDevice.dynamicPart).map (·.address)).filter (· != 0) := by
  rw [List.map_map]
  rfl

/-- The dynamic parts of all targets of a table are as they were, and so many targets without one
are behind them. -/
def Widens (table : TargetTable) (count : Nat) (next : TargetTable) : Prop :=
  next.devices.map TargetDevice.dynamicPart =
    table.devices.map TargetDevice.dynamicPart ++ List.replicate count ({} : TargetDevice)

namespace Widens

/-- No target has been added. -/
theorem refl (table : TargetTable) : table.Widens 0 table :=
  (List.append_nil _).symm

/-- Targets that are added later stand behind those added first. -/
theorem trans {last : TargetTable} {more : Nat} (h : table.Widens count next)
    (hlater : next.Widens more last) : table.Widens (count + more) last := by
  rw [Widens, hlater, h, List.append_assoc, List.replicate_append_replicate]

variable (h : table.Widens count next)

include h

/-- Every target stays at its place with what a capability report does not tell of it. -/
theorem kept {place : Nat} {device : TargetDevice} (hdevice : table.devices[place]? = some device) :
    ∃ kept, next.devices[place]? = some kept ∧ kept.SameDynamic device := by
  have hplace : place < table.devices.length := (List.getElem?_eq_some_iff.1 hdevice).1
  have hpart := congrArg (·[place]?) h
  rw [List.getElem?_append_left (by rwa [List.length_map]), List.getElem?_map, List.getElem?_map,
    hdevice] at hpart
  obtain ⟨kept, hkept, hsame⟩ := Option.map_eq_some_iff.1 hpart
  exact ⟨kept, hkept, TargetDevice.sameDynamic_of_dynamicPart hsame⟩

/-- The targets that are added have no address. -/
theorem addresses_eq : next.addresses = table.addresses := by
  rw [addresses_eq_dynamicPart, addresses_eq_dynamicPart, h, List.map_append, List.filter_append,
    List.map_replicate]
  simp

/-- So many targets have been added. -/
theorem size_eq : next.size = table.size + count := by
  have hlength := congrArg List.length h
  rwa [List.length_map, List.length_append, List.length_map, List.length_replicate] at hlength

/-- Targets that are added have no address. -/
theorem address_added {device : TargetDevice} (hdevice : device ∈ next.devices.drop table.size) :
    device.address = 0 := by
  have hpart : device.dynamicPart ∈ (next.devices.drop table.size).map TargetDevice.dynamicPart :=
    List.mem_map_of_mem hdevice
  rw [List.map_drop, h, List.drop_left' (by rw [List.length_map, size])] at hpart
  exact congrArg (·.address) (List.eq_of_mem_replicate hpart)

end Widens

/-- An entry leaves the dynamic parts of all targets as they are. A target that it adds has none, so
nobody is told of it. -/
theorem dynamic_mergeEntry (h : table.mergeEntry entry = .ok (count, next)) :
    table.Widens count next ∧ next.arrivals = table.arrivals := by
  unfold mergeEntry at h
  split at h
  next index hposition =>
    cases h
    obtain ⟨hindex, -⟩ := positionOfEntry_eq_some hposition
    refine ⟨?_, rfl⟩
    rw [Widens, List.replicate_zero, List.append_nil]
    exact map_modify (List.getElem?_eq_getElem hindex)
      (TargetDevice.dynamicPart_applyCapabilityEntry _ entry)
  next =>
    obtain ⟨inserted, hinsert, h⟩ := bind_eq_ok_iff.1 h
    cases h
    obtain ⟨-, -, -, rfl⟩ := insert_eq_ok_iff.1 hinsert
    have hpart : (TargetDevice.ofCapabilityEntry entry).dynamicPart = ({} : TargetDevice) :=
      TargetDevice.dynamicPart_applyCapabilityEntry {} entry
    have haddress : (TargetDevice.ofCapabilityEntry entry).address = 0 :=
      congrArg (·.address) hpart
    rw [Widens, haddress, announce_zero, List.map_append, List.map_singleton, hpart]
    exact ⟨rfl, rfl⟩

/-- Entries leave the dynamic parts of all targets as they are, and add as many targets without one
as the merge returns. -/
theorem dynamic_mergeEntries (h : table.mergeEntries added entries = (.ok total, next)) :
    ∃ count, total = added + count ∧ table.Widens count next ∧ next.arrivals = table.arrivals := by
  induction entries generalizing table added with
  | nil =>
      cases h
      exact ⟨0, rfl, .refl _, rfl⟩
  | cons entry entries ih =>
      unfold mergeEntries at h
      split at h
      next count merged hentry =>
        obtain ⟨hwidens, harrivals⟩ := dynamic_mergeEntry hentry
        obtain ⟨more, rfl, hlater, hsilent⟩ := ih h
        exact ⟨count + more, Nat.add_assoc added count more, hwidens.trans hlater,
          hsilent.trans harrivals⟩
      next => cases h

/-- A capability report leaves the dynamic parts of all targets as they are. If it is accepted, it
adds as many targets without one as the merge returns, and otherwise none. -/
theorem dynamic_mergeCapability (table : TargetTable) (buffer : Bytes) :
    ∃ count, (∀ added, (table.mergeCapability buffer).1 = .ok added → added = count) ∧
      table.Widens count (table.mergeCapability buffer).2 ∧
      (table.mergeCapability buffer).2.arrivals = table.arrivals := by
  rcases hmerge : table.mergeCapability buffer with ⟨error | added, next⟩
  · obtain ⟨-, rfl⟩ := mergeCapability_eq_error_iff.1 hmerge
    exact ⟨0, nofun, .refl _, rfl⟩
  · obtain ⟨error, hrefused⟩ | ⟨entries, hentries⟩ := mergeCapability_cases table buffer
    · cases hrefused.symm.trans hmerge
    · obtain ⟨count, rfl, hwidens, hsilent⟩ := dynamic_mergeEntries (hentries.symm.trans hmerge)
      refine ⟨count, fun added hadded ↦ ?_, hwidens, hsilent⟩
      rw [← Except.ok.inj hadded, Nat.zero_add]

/-- When entries that differ from each other have been merged, there is a target for each that has
an identifier, and it is as the entry says. -/
theorem exists_records (h : table.mergeEntries added entries = (.ok total, next))
    (hentries : UnambiguousEntries entries) (hentry : entry ∈ entries)
    (hpid : entry.pid.isZero = false) : ∃ device ∈ next.devices, device.Records entry := by
  obtain ⟨front, later, rfl⟩ := List.append_of_mem hentry
  have hkept : ¬ CapabilityEntry.matching.Overtaken table.devices front entry later := fun hover ↦
    Bool.false_ne_true (hpid.symm.trans (hover.isZero hentries.matching))
  obtain ⟨place, device, -, hdevice, htake⟩ :=
    Matching.agrees_of_not_overtaken hentries.matching (.inr hpid) hkept
  rw [← (devices_mergeEntries h).1] at hdevice
  exact ⟨device, List.mem_of_getElem? hdevice, htake ▸ device.records_applyCapabilityEntry hpid⟩

/-- A report is accepted if its entries all have a static address or an identifier. If none of these
is there twice, there is a target for every entry that has an identifier. -/
theorem records_mergeCapability {buffer : Bytes} {report : CapabilityReport}
    (hdecode : CapabilityReport.decode buffer = .ok report)
    (hentries : UnambiguousEntries report.targets)
    (hnamed : ∀ entry ∈ report.targets, entry.staticAddress ≠ 0 ∨ entry.pid.isZero = false) :
    (∃ added, (table.mergeCapability buffer).1 = .ok added) ∧
      ∀ entry ∈ report.targets, entry.pid.isZero = false →
        ∃ device ∈ (table.mergeCapability buffer).2.devices, device.Records entry := by
  have hreachable : ¬ (report.targets.any fun entry ↦
      (TargetDevice.ofCapabilityEntry entry).isUnreachable) = true := by
    simpa using fun entry hentry ↦ TargetDevice.reachable_ofCapabilityEntry (hnamed entry hentry)
  have hmerge : table.mergeCapability buffer = table.mergeEntries 0 report.targets := by
    simp only [mergeCapability, hdecode, if_neg hreachable]
  obtain ⟨added, merged, haccepted⟩ :
      ∃ added merged, table.mergeEntries 0 report.targets = (.ok added, merged) :=
    mergeEntries_accepted (by simpa using hreachable) 0
  rw [hmerge, haccepted]
  exact ⟨⟨added, rfl⟩, fun entry hentry ↦ exists_records haccepted hentries hentry⟩

/-- Whatever a table holds, whether or not arrivals are announced, and whatever bytes a capability
report has: every known target stays at its place with all that a report does not tell of it, the
addresses in use stay the same, and nobody is told of an arrival. If the report is accepted, as many
targets as the merge returns are added behind the known ones, none of them with an address. A report
whose entries all have a static address or an identifier, none of these twice, is accepted, and then
there is a target for every entry that has an identifier, with all that the entry tells of it. -/
theorem static_merged (table : TargetTable) (buffer : Bytes) :
    let next := (table.mergeCapability buffer).2
    (∀ (place : Nat) (device : TargetDevice), table.devices[place]? = some device →
      ∃ kept, next.devices[place]? = some kept ∧ kept.SameDynamic device) ∧
    next.addresses = table.addresses ∧ next.arrivals = table.arrivals ∧
    (∀ added, (table.mergeCapability buffer).1 = .ok added →
      next.size = table.size + added ∧
        ∀ device ∈ next.devices.drop table.size, device.address = 0) ∧
    (∀ report : CapabilityReport, CapabilityReport.decode buffer = .ok report →
      UnambiguousEntries report.targets →
      (∀ entry ∈ report.targets, entry.staticAddress ≠ 0 ∨ entry.pid.isZero = false) →
      (∃ added, (table.mergeCapability buffer).1 = .ok added) ∧
        ∀ entry ∈ report.targets, entry.pid.isZero = false →
          ∃ device ∈ next.devices, device.Records entry) := by
  intro next
  obtain ⟨count, hcount, hwidens, hsilent⟩ := dynamic_mergeCapability table buffer
  refine ⟨fun place device hdevice ↦ hwidens.kept hdevice, hwidens.addresses_eq, hsilent,
    fun added hadded ↦ ?_, fun report hdecode hentries hnamed ↦
      records_mergeCapability hdecode hentries hnamed⟩
  obtain rfl := hcount added hadded
  exact ⟨hwidens.size_eq, fun device hdevice ↦ hwidens.address_added hdevice⟩

/-- Two targets, the first at the static address of a known target, the second with its identifier.
-/
def relabellingEntries : List CapabilityEntry :=
  [{ staticAddress := 0x30, ibiPriority := 1, discoVersion := 256, maxPendingIbi := 8,
      pid := ⟨0, 7⟩ },
    { staticAddress := 0x31, ibiPriority := 2, discoVersion := 256, maxPendingIbi := 9,
      pid := ⟨0, 5⟩ }]

/-- The report of these entries. -/
def relabellingReport : Bytes :=
  [48, 0, 5, 0, 1, 1, 1, 0, 0, 0, 0, 0, 0, 0, 0, 0,
    0x30, 1, 0, 1, 7, 0, 0, 0, 0, 0, 0, 0, 8, 0, 0, 0,
    0x31, 2, 0, 1, 5, 0, 0, 0, 0, 0, 0, 0, 9, 0, 0, 0]

/-- The known target keeps its address and takes the other identifier, so the second entry adds a
target. -/
theorem static_merged_relabelling :
    let known := TableOperation.run (listenedTo
      { TargetDevice.ofPid 8 5 with capability := { staticAddress := 0x30 } })
    let next := (known.mergeCapability relabellingReport).2
    UnambiguousEntries relabellingEntries ∧
    (known.mergeCapability relabellingReport).1 = .ok 1 ∧ next.size = 2 ∧
    next.addresses = [8] ∧ next.arrivals = #[] ∧
    ∀ entry ∈ relabellingEntries, ∃ device ∈ next.devices, device.Records entry := by
  intro known next
  obtain ⟨-, haddresses, harrivals, haccepted, hreport⟩ := static_merged known relabellingReport
  have hdecode : CapabilityReport.decode relabellingReport =
      .ok (.ofTargets .primaryController {} 0 relabellingEntries) := by rfl
  have hentries : UnambiguousEntries relabellingEntries := by decide
  have hadded : (known.mergeCapability relabellingReport).1 = .ok 1 := by rfl
  have hpids : ∀ entry ∈ relabellingEntries, entry.pid.isZero = false := by decide
  obtain ⟨-, hrecords⟩ := hreport _ hdecode hentries fun entry hentry ↦ .inr (hpids entry hentry)
  exact ⟨hentries, hadded, (haccepted 1 hadded).1, haddresses, harrivals,
    fun entry hentry ↦ hrecords entry hentry (hpids entry hentry)⟩

end TargetTable

end I3cHost
