import I3cHost.Proofs.Target.Placement

/-!
# What the table holds after a listing

Rows that each give an address and an identifier, none of them twice, are merged into different
targets, whatever the table holds before: a later row finds a target neither by the address nor by
the identifier of an earlier one. So every row is found at its address as it was listed, a target
that was there before is as it was or as one row has it, and new targets follow in the order of
their rows (`contents_mergeListing`).
-/

namespace I3cHost

namespace TargetDevice

variable {known device : TargetDevice} {row : TargetRow}

/-- All that a row says of a target is so. -/
structure Shows (device : TargetDevice) (row : TargetRow) : Prop where
  address : device.address = row.address
  pid : device.pid = row.pid
  /-- The target is known by its identifier. -/
  validPid : device.validPid = true
  type : Coded.ofByte row.type = .ok device.type
  dcr : device.dcr = row.dcr
  bcr : device.bcr = row.bcr
  config : device.config = row.config.config
  maxIbiPayload : device.maxIbiPayload = row.maxIbiPayload
  /-- The target can take the controller role if the high two bits of its characteristics are 01. -/
  handoff : device.capability.handoffControllerRole = true ↔ row.bcr.toNat / 64 = 1

/-- What the listing does not say of a target is as it is of another. -/
def SameStatic (device known : TargetDevice) : Prop :=
  { device.capability with handoffControllerRole := known.capability.handoffControllerRole } =
    known.capability

/-- A target can take the controller role if the high two bits of its characteristics are 01. -/
theorem canTakeController_iff (bcr : UInt8) :
    canTakeController bcr = true ↔ bcr.toNat / 64 = 1 := by
  have hshift : (bcr >>> 6).toNat = bcr.toNat / 64 := by
    rw [UInt8.toNat_shiftRight]
    exact Nat.shiftRight_eq_div_pow bcr.toNat 6
  rw [canTakeController, beq_iff_eq, ← UInt8.toNat_inj, hshift]
  rfl

/-- A target that has taken over a row with an identifier is as the row says. -/
theorem shows_takeRow (known : TargetDevice)
    (htype : ∃ type : TargetType, Coded.ofByte row.type = .ok type)
    (hpid : row.pid.isZero = false) : (known.takeRow row).Shows row := by
  obtain ⟨type, htype⟩ := htype
  exact {
    address := rfl
    pid := adoptPid_pid.trans (if_neg (hpid ▸ Bool.false_ne_true))
    validPid := by simp [takeRow, hpid]
    type := by rw [takeRow, htype]; rfl
    dcr := rfl
    bcr := rfl
    config := rfl
    maxIbiPayload := rfl
    handoff := canTakeController_iff row.bcr }

/-- A row says nothing of what a capability report tells. -/
theorem sameStatic_takeRow (known : TargetDevice) (row : TargetRow) :
    (known.takeRow row).SameStatic known :=
  rfl

end TargetDevice

namespace TargetTable

variable {table next : TargetTable} {device : TargetDevice} {place added : Nat}

/-- A target that has an address is found by it. -/
theorem get?_address (h : Integrity table.devices)
    (hdevice : table.devices[place]? = some device) (hzero : device.address ≠ 0) :
    table.get? device.address = some device := by
  rw [get?, position_address h hdevice hzero]
  exact hdevice

/-- In every table that operations lead to, let a listing be merged whose rows all have addresses
and identifiers, none of them twice. Every row is then found at its address with all that it says; a
target that was there before is at its place as it was, or as one of the rows says without a change
to what rows do not say; targets that were not there before follow in the order of their rows; and
the merge returns by how many the table has grown. -/
theorem contents_mergeListing {history : List TableOperation} {buffer : Bytes}
    {listing : TargetListing} (hdecode : TargetListing.decode buffer = .ok listing)
    (hrows : Unambiguous listing.rows)
    (hnamed : ∀ row ∈ listing.rows, row.address ≠ 0 ∧ row.pid.isZero = false)
    (hmerge : (TableOperation.run history).mergeListing buffer = (.ok added, next)) :
    (∀ row ∈ listing.rows, ∃ device, next.get? row.address = some device ∧ device.Shows row) ∧
    (∀ (place : Nat) (device : TargetDevice),
      (TableOperation.run history).devices[place]? = some device →
      ∃ kept, next.devices[place]? = some kept ∧
        (kept = device ∨ (∃ row ∈ listing.rows, kept.Shows row) ∧ kept.SameStatic device)) ∧
    (∃ fresh : List TargetRow, fresh.Sublist listing.rows ∧
      List.Forall₂ TargetDevice.Shows
        (next.devices.drop (TableOperation.run history).size) fresh) ∧
    next.size = (TableOperation.run history).size + added := by
  have hintegrity : Integrity (TableOperation.run history).devices := Integrity.nil.applyAll history
  have hnext : Integrity next.devices := by
    have hkept := hintegrity.apply (.mergeListing buffer)
    rwa [TableOperation.apply, hmerge] at hkept
  obtain ⟨haddressable, hmerge⟩ := mergeListing_eq_ok hdecode hmerge
  have htypes := TargetListing.type_of_decode hdecode
  obtain ⟨hdevices, hgrowth⟩ := devices_mergeRows hmerge
  generalize TableOperation.run history = table at *
  generalize listing.rows = rows at *
  have hdistinct : (TargetRow.matching.places table.devices rows).Nodup :=
    Matching.nodup_places hrows.matching fun row hrow ↦ (hnamed row hrow).2
  have hshows {row : TargetRow} (hrow : row ∈ rows) (known : TargetDevice) :=
    known.shows_takeRow (htypes row hrow) (hnamed row hrow).2
  refine ⟨fun row hrow ↦ ?_, fun place device hdevice ↦ ?_, ?_, hgrowth⟩
  · obtain ⟨front, later, rfl⟩ := List.append_of_mem hrow
    have hkept : ¬ TargetRow.matching.Overtaken table.devices front row later := fun hover ↦
      Bool.false_ne_true ((hnamed row hrow).2.symm.trans (hover.isZero hrows.matching))
    obtain ⟨place, device, -, hdevice, htake⟩ := Matching.agrees_of_not_overtaken hrows.matching
      (named_of_isUnaddressable (haddressable row hrow)) hkept
    rw [← hdevices] at hdevice
    have hshow : device.Shows row := htake ▸ hshows hrow device
    refine ⟨device, ?_, hshow⟩
    rw [← hshow.address]
    exact get?_address hnext hdevice (hshow.address ▸ (hnamed row hrow).1)
  · obtain ⟨kept, hkept, hlike⟩ := Matching.kept_or_taken hdistinct hdevice
    refine ⟨kept, hdevices ▸ hkept, hlike.imp_right ?_⟩
    rintro ⟨row, hrow, rfl⟩
    exact ⟨⟨row, hrow, hshows hrow device⟩, device.sameStatic_takeRow row⟩
  · obtain ⟨fresh, hfresh, hdrop⟩ := Matching.drop_mergeAll hdistinct
    refine ⟨fresh, hfresh, ?_⟩
    rw [hdevices, size, hdrop, List.forall₂_map_left_iff, List.forall₂_same]
    exact fun row hrow ↦ hshows (hfresh.subset hrow) {}

/-- Three targets: two that are known by the identifier 1, and one without an address that is known
by the identifier 2 and has a static address. -/
def duplicated : List TableOperation :=
  [.insert (.ofPid 8 1), .insert (.ofPid 9 1),
    .insert { TargetDevice.ofPid 0 2 with
      capability := { staticAddress := 0x30, ibiPriority := 3 } }]

/-- Rows for the second and the third target and for a new one. -/
def rearrangedRows : List TargetRow :=
  [{ address := 9, config := ⟨5⟩, pid := ⟨0, 1⟩, dcr := 0xC6, bcr := 0x46, maxIbiPayload := 32 },
    { address := 10, pid := ⟨0, 2⟩ }, { address := 11, type := 1, pid := ⟨7, 4⟩, bcr := 0x86 }]

/-- The listing of these rows. -/
def rearranged : Bytes :=
  [3, 0, 0, 0, 9, 5, 0, 0, 1, 0, 0, 0, 0, 0, 0xC6, 0x46, 32, 0, 0, 0,
    10, 0, 0, 0, 2, 0, 0, 0, 0, 0, 0, 0, 0, 0, 0, 0,
    11, 0, 1, 0, 4, 0, 0, 0, 7, 0, 0, 0x86, 0, 0, 0, 0]

/-- Of two targets that are known by one identifier the row overwrites the one at its address, and
the other stays as it was. -/
theorem contents_rearranged :
    TargetListing.decode rearranged = .ok ⟨rearrangedRows⟩ ∧ Unambiguous rearrangedRows ∧
    (∀ row ∈ rearrangedRows, row.address ≠ 0 ∧ row.pid.isZero = false) ∧
    ∃ next, (TableOperation.run duplicated).mergeListing rearranged = (.ok 1, next) ∧
      (∀ row ∈ rearrangedRows, ∃ device, next.get? row.address = some device ∧
        device.Shows row) ∧
      next.devices[0]? = some (.ofPid 8 1) ∧
      next.size = (TableOperation.run duplicated).size + 1 := by
  have hdecode : TargetListing.decode rearranged = .ok ⟨rearrangedRows⟩ := by rfl
  have hrows : Unambiguous rearrangedRows := by decide
  have hnamed : ∀ row ∈ rearrangedRows, row.address ≠ 0 ∧ row.pid.isZero = false := by decide
  have hmerge : (TableOperation.run duplicated).mergeListing rearranged =
      (.ok 1, ((TableOperation.run duplicated).mergeListing rearranged).2) := by rfl
  obtain ⟨hfound, -, -, hsize⟩ := contents_mergeListing hdecode hrows hnamed hmerge
  exact ⟨hdecode, hrows, hnamed, _, hmerge, hfound, by rfl, hsize⟩

end TargetTable

end I3cHost
