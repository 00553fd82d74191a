import I3cHost.Proofs.Target.Integrity

/-!
# Which reports are accepted

All that could be wrong with a row is looked at before the first row is merged: whether its type is
defined when the listing is read, and whether its target can be addressed right afterwards. So the
rows of a listing are all merged, or the listing is refused and the table stays as it was
(`mergeListing_accepted_or_refused`). The same holds of the entries of a capability report. What a
report is merged into is of no account, so a report that was accepted once always is
(`mergeListing_accepted`, `mergeCapability_accepted`), and what is wrong with one that is refused is
told by the report alone (`mergeListing_eq_error_iff`, `mergeCapability_eq_error_iff`).
-/

namespace I3cHost

/-- A check of every value of a list succeeds exactly if it succeeds for each of them. -/
theorem forM_eq_ok_iff {ε α : Type} {check : α → Except ε Unit} {values : List α} :
    values.forM check = .ok () ↔ ∀ value ∈ values, check value = .ok () := by
  induction values with
  | nil => exact ⟨fun _ ↦ List.forall_mem_nil _, fun _ ↦ rfl⟩
  | cons value values ih =>
      rw [List.forall_mem_cons, ← ih]
      exact bind_eq_ok_iff.trans ⟨fun ⟨(), h⟩ ↦ h, fun h ↦ ⟨(), h⟩⟩

/-- A listing can be read exactly if its rows can and every row has a defined type. -/
theorem TargetListing.decode_eq_ok_iff {buffer : Bytes} {listing : TargetListing} :
    decode buffer = .ok listing ↔ EntryList.decode buffer = .ok listing.rows ∧
      ∀ row ∈ listing.rows, ∃ type : TargetType, Coded.ofByte row.type = .ok type := by
  have htypes (rows : List TargetRow) :
      (rows.forM fun row ↦ do let _ ← Coded.ofByte (α := TargetType) row.type :
        CodecResult Unit) = .ok () ↔
      ∀ row ∈ rows, ∃ type : TargetType, Coded.ofByte row.type = .ok type := by
    rw [forM_eq_ok_iff]
    simp only [bind_eq_ok_iff, pure, Except.pure, and_true]
  unfold decode
  rw [bind_eq_ok_iff]
  constructor
  · rintro ⟨rows, hrows, h⟩
    obtain ⟨_, hchecked, h⟩ := bind_eq_ok_iff.1 h
    cases h
    exact ⟨hrows, (htypes rows).1 hchecked⟩
  · rintro ⟨hrows, hchecked⟩
    exact ⟨listing.rows, hrows, bind_eq_ok_iff.2 ⟨(), (htypes listing.rows).2 hchecked, rfl⟩⟩

/-- Every row of a listing that can be read has a defined type. -/
theorem TargetListing.type_of_decode {buffer : Bytes} {listing : TargetListing}
    (h : TargetListing.decode buffer = .ok listing) :
    ∀ row ∈ listing.rows, ∃ type : TargetType, Coded.ofByte row.type = .ok type :=
  (decode_eq_ok_iff.1 h).2

/-- Every target can take a row over that has a defined type. -/
theorem TargetDevice.applyRow_accepted {row : TargetRow}
    (htype : ∃ type : TargetType, Coded.ofByte row.type = .ok type) (device : TargetDevice) :
    ∃ updated, device.applyRow row = .ok updated := by
  obtain ⟨type, htype⟩ := htype
  unfold TargetDevice.applyRow
  simp only [htype, bind, Except.bind, pure, Except.pure]
  exact ⟨_, rfl⟩

namespace TargetTable

variable {table : TargetTable} {row : TargetRow} {rows : List TargetRow}

/-- A row with a defined type whose target can be addressed is merged. -/
theorem mergeRow_accepted (hrow : isUnaddressable row = false)
    (htype : ∃ type : TargetType, Coded.ofByte row.type = .ok type) :
    ∃ count next, table.mergeRow row = .ok (count, next) := by
  have happly := TargetDevice.applyRow_accepted htype
  unfold mergeRow
  split
  next index _ =>
    obtain ⟨updated, hupdated⟩ := happly ((table.devices[index]?).getD {})
    simp only [hupdated, HostResult.ofCodec_ok, bind, Except.bind, pure, Except.pure]
    exact ⟨_, _, rfl⟩
  next hunknown =>
    obtain ⟨device, hdevice⟩ := happly {}
    obtain ⟨haddress, -, hvalid, -⟩ := TargetDevice.applyRow_eq_ok hdevice
    obtain ⟨hrange, hnamed⟩ : row.address ≤ maxTargetAddress ∧
        (row.address = 0 → row.pid.isZero = false) := by
      simpa [isUnaddressable, UInt8.not_lt] using hrow
    have hinsert : ∃ next, table.insert device = .ok next := by
      refine ⟨_, insert_eq_ok_iff.2 ⟨haddress ▸ hrange, ?_, ?_, rfl⟩⟩
      · rw [haddress]
        exact (positionOfRow_eq_none_iff.1 hunknown).1
      · apply TargetDevice.not_isUnreachable
        by_cases hzero : row.address = 0
        · exact .inr (.inr (by simp [hvalid, hnamed hzero]))
        · exact .inl (haddress ▸ hzero)
    obtain ⟨next, hnext⟩ := hinsert
    simp only [hdevice, hnext, HostResult.ofCodec_ok, bind, Except.bind, pure, Except.pure]
    exact ⟨_, _, rfl⟩

/-- Rows that are not refused up front are all merged. -/
theorem mergeRows_accepted (hrows : ∀ row ∈ rows, isUnaddressable row = false)
    (htypes : ∀ row ∈ rows, ∃ type : TargetType, Coded.ofByte row.type = .ok type) (added : Nat) :
    ∃ total next, table.mergeRows added rows = (.ok total, next) := by
  induction rows generalizing table added with
  | nil => exact ⟨added, table, rfl⟩
  | cons row rows ih =>
      obtain ⟨hrow, hrows⟩ := List.forall_mem_cons.1 hrows
      obtain ⟨htype, htypes⟩ := List.forall_mem_cons.1 htypes
      obtain ⟨count, merged, hmerge⟩ : ∃ count merged, table.mergeRow row = .ok (count, merged) :=
        mergeRow_accepted hrow htype
      rw [mergeRows, hmerge]
      exact ih hrows htypes (added + count)

/-- The rows of a listing are all merged, or the table stays as it was. -/
theorem mergeListing_accepted_or_refused (table : TargetTable) (buffer : Bytes) :
    (∃ added next, table.mergeListing buffer = (.ok added, next)) ∨
      ∃ error, table.mergeListing buffer = (.error error, table) := by
  unfold mergeListing
  split
  · exact .inr ⟨_, rfl⟩
  next listing hdecode =>
    split
    · exact .inr ⟨_, rfl⟩
    next hnone =>
      exact .inl (mergeRows_accepted (by simpa using hnone)
        (TargetListing.type_of_decode hdecode) 0)

/-- A listing that was accepted once always is. -/
theorem mergeListing_accepted {buffer : Bytes} {added : Nat} {next : TargetTable}
    (h : table.mergeListing buffer = (.ok added, next)) (other : TargetTable) :
    ∃ added next, other.mergeListing buffer = (.ok added, next) := by
  cases hdecode : TargetListing.decode buffer with
  | error error =>
      rw [mergeListing, hdecode] at h
      cases h
  | ok listing =>
      obtain ⟨hrows, -⟩ := mergeListing_eq_ok hdecode h
      rw [mergeListing_of_rows hdecode hrows]
      exact mergeRows_accepted hrows (TargetListing.type_of_decode hdecode) 0

/-- An entry of a capability report whose target could be reached is merged. -/
theorem mergeEntry_accepted {entry : CapabilityEntry}
    (hentry : (TargetDevice.ofCapabilityEntry entry).isUnreachable = false) :
    ∃ count next, table.mergeEntry entry = .ok (count, next) := by
  unfold mergeEntry
  split
  · exact ⟨_, _, rfl⟩
  · have haddress : (TargetDevice.ofCapabilityEntry entry).address = 0 := by
      simp [TargetDevice.ofCapabilityEntry, TargetDevice.applyCapabilityEntry]
    have hrange : (TargetDevice.ofCapabilityEntry entry).address ≤ maxTargetAddress := by
      rw [haddress]
      decide
    have hfree : (TargetDevice.ofCapabilityEntry entry).address ∉ table.addresses := by
      rw [haddress, ← position_eq_none_iff, position_zero]
    rw [insert_eq_ok_iff.2 ⟨hrange, hfree, hentry, rfl⟩]
    exact ⟨_, _, rfl⟩

/-- Entries that are not refused up front are all merged. -/
theorem mergeEntries_accepted {entries : List CapabilityEntry}
    (hentries : ∀ entry ∈ entries, (TargetDevice.ofCapabilityEntry entry).isUnreachable = false)
    (added : Nat) : ∃ total next, table.mergeEntries added entries = (.ok total, next) := by
  induction entries generalizing table added with
  | nil => exact ⟨added, table, rfl⟩
  | cons entry entries ih =>
      obtain ⟨hentry, hentries⟩ := List.forall_mem_cons.1 hentries
      obtain ⟨count, merged, hmerge⟩ : ∃ count merged,
          table.mergeEntry entry = .ok (count, merged) := mergeEntry_accepted hentry
      rw [mergeEntries, hmerge]
      exact ih hentries (added + count)

/-- A capability report that was accepted once always is. -/
theorem mergeCapability_accepted {buffer : Bytes} {added : Nat} {next : TargetTable}
    (h : table.mergeCapability buffer = (.ok added, next)) (other : TargetTable) :
    ∃ added next, other.mergeCapability buffer = (.ok added, next) := by
  unfold mergeCapability at h ⊢
  split at h
  · cases h
  next report _ =>
    split at h
    · cases h
    next hreachable =>
      rw [if_neg hreachable]
      exact mergeEntries_accepted (by simpa using hreachable) 0

/-- The moves of an answer are all looked at, or the table stays as it was. -/
theorem applyAddressChanges_accepted_or_refused (table : TargetTable) (buffer : Bytes) :
    (∃ moved next, table.applyAddressChanges buffer = (.ok moved, next)) ∨
      ∃ error, table.applyAddressChanges buffer = (.error error, table) := by
  unfold applyAddressChanges
  split
  · exact .inr ⟨_, rfl⟩
  · exact .inl ⟨_, _, rfl⟩

/-- What is wrong with a listing, if it is refused: it cannot be read, or the target of a row cannot
be addressed. -/
def listingFault (buffer : Bytes) : Option HostError :=
  match TargetListing.decode buffer with
  | .error error => some (.ofCodec error)
  | .ok listing =>
      (listing.rows.find? isUnaddressable).map fun row ↦
        .ofCodec (.invalidField "target address" row.address.toUInt32)

/-- What is wrong with a capability report, if it is refused: it cannot be read, or a target could
not be reached. -/
def capabilityFault (buffer : Bytes) : Option HostError :=
  match CapabilityReport.decode buffer with
  | .error error => some (.ofCodec error)
  | .ok report =>
      if report.targets.any fun entry ↦ (TargetDevice.ofCapabilityEntry entry).isUnreachable then
        some (.validation .unidentifiableDevice)
      else
        none

variable {buffer : Bytes} {error : HostError} {next : TargetTable}

/-- A listing without a fault has only rows whose targets can be addressed. -/
theorem addressable_of_listingFault {listing : TargetListing}
    (hdecode : TargetListing.decode buffer = .ok listing) (h : listingFault buffer = none) :
    ∀ row ∈ listing.rows, isUnaddressable row = false := by
  simp only [listingFault, hdecode, Option.map_eq_none_iff] at h
  simpa using h

/-- A capability report without a fault has only entries whose targets could be reached. -/
theorem reachable_of_capabilityFault {report : CapabilityReport}
    (hdecode : CapabilityReport.decode buffer = .ok report) (h : capabilityFault buffer = none) :
    ∀ entry ∈ report.targets, (TargetDevice.ofCapabilityEntry entry).isUnreachable = false := by
  simp only [capabilityFault, hdecode] at h
  split at h
  next => cases h
  next hreachable => simpa using hreachable

/-- A listing is refused exactly for its fault, and then the table stays as it was. -/
theorem mergeListing_eq_error_iff : table.mergeListing buffer = (.error error, next) ↔
    listingFault buffer = some error ∧ next = table := by
  cases hdecode : TargetListing.decode buffer with
  | error => simp [mergeListing, listingFault, hdecode, eq_comm]
  | ok listing =>
      cases hfault : listing.rows.find? isUnaddressable with
      | some row => simp [mergeListing, listingFault, hdecode, hfault, eq_comm]
      | none =>
          have hnone : listingFault buffer = none := by simp [listingFault, hdecode, hfault]
          have hrows := addressable_of_listingFault hdecode hnone
          obtain ⟨added, merged, hmerge⟩ :
              ∃ added merged, table.mergeRows 0 listing.rows = (.ok added, merged) :=
            mergeRows_accepted hrows (TargetListing.type_of_decode hdecode) 0
          rw [mergeListing_of_rows hdecode hrows, hmerge, hnone]
          simp

/-- A capability report is refused exactly for its fault, and then the table stays as it was. -/
theorem mergeCapability_eq_error_iff : table.mergeCapability buffer = (.error error, next) ↔
    capabilityFault buffer = some error ∧ next = table := by
  cases hdecode : CapabilityReport.decode buffer with
  | error => simp [mergeCapability, capabilityFault, hdecode, eq_comm]
  | ok report =>
      by_cases hfault : (report.targets.any fun entry ↦
          (TargetDevice.ofCapabilityEntry entry).isUnreachable) = true
      · simp only [mergeCapability, capabilityFault, hdecode, if_pos hfault]
        simp [eq_comm]
      · obtain ⟨added, merged, hmerge⟩ :
            ∃ added merged, table.mergeEntries 0 report.targets = (.ok added, merged) :=
          mergeEntries_accepted (by simpa using hfault) 0
        simp only [mergeCapability, capabilityFault, hdecode, if_neg hfault, hmerge]
        simp

/-- Whatever a table holds and whoever listens to it, a report is refused exactly for a fault that
is found before anything is merged, and then no target changes and nobody is told of anything. Of a
report without a fault, every row can be taken over by every target, and every row or entry can be
merged into every table, so also into those that earlier ones lead to. -/
theorem refused_iff_fault (table : TargetTable) (buffer : Bytes) :
    (∀ (error : HostError) (next : TargetTable),
      table.mergeListing buffer = (.error error, next) ↔
        listingFault buffer = some error ∧ next = table) ∧
    (∀ (error : HostError) (next : TargetTable),
      table.mergeCapability buffer = (.error error, next) ↔
        capabilityFault buffer = some error ∧ next = table) ∧
    (∀ listing : TargetListing, TargetListing.decode buffer = .ok listing →
      listingFault buffer = none → ∀ row ∈ listing.rows,
        (∀ known : TargetDevice, ∃ updated, known.applyRow row = .ok updated) ∧
        ∀ reached : TargetTable, ∃ count next, reached.mergeRow row = .ok (count, next)) ∧
    ∀ report : CapabilityReport, CapabilityReport.decode buffer = .ok report →
      capabilityFault buffer = none → ∀ entry ∈ report.targets,
        ∀ reached : TargetTable, ∃ count next, reached.mergeEntry entry = .ok (count, next) := by
  refine ⟨fun _ _ ↦ mergeListing_eq_error_iff, fun _ _ ↦ mergeCapability_eq_error_iff,
    fun listing hdecode hfault row hrow ↦ ?_, fun report hdecode hfault entry hentry reached ↦ ?_⟩
  · have htype := TargetListing.type_of_decode hdecode row hrow
    exact ⟨TargetDevice.applyRow_accepted htype, fun reached ↦
      mergeRow_accepted (addressable_of_listingFault hdecode hfault row hrow) htype⟩
  · exact mergeEntry_accepted (reachable_of_capabilityFault hdecode hfault entry hentry)

/-- A listing that adds a target, and whose second row has neither an address nor an identifier. -/
def halfAddressable : Bytes :=
  [2, 0, 0, 0, 9, 0, 0, 0, 6, 0, 0, 0, 0, 0, 0, 0, 0, 0, 0, 0,
    0, 0, 0, 0, 0, 0, 0, 0, 0, 0, 0, 0, 0, 0, 0, 0]

/-- A listing of a target that is known at another address, and of one that speaks I2C. -/
def bothAddressable : Bytes :=
  [2, 0, 0, 0, 10, 0, 0, 0, 5, 0, 0, 0, 0, 0, 0, 0, 0, 0, 0, 0,
    8, 0, 1, 0, 0, 0, 0, 0, 0, 0, 0, 0, 0, 0, 0, 0]

/-- A capability report that adds a target, and whose second entry has neither a static address nor
an identifier. -/
def halfReachable : Bytes :=
  [48, 0, 5, 0, 1, 1, 1, 0, 0, 0, 0, 0, 0, 0, 0, 0,
    0x30, 1, 0, 0, 0, 0, 0, 0, 0, 0, 0, 0, 0, 0, 0, 0,
    0, 0, 0, 0, 0, 0, 0, 0, 0, 0, 0, 0, 0, 0, 0, 0]

/-- The listener is not told of the target that a refused listing would have added. Of a listing
that is accepted every row is merged, after the first one as well. -/
theorem refused_halfAddressable :
    let table := TableOperation.run
      [.insert (.ofPid 8 5), .listen (some "arrivals"), .enableEvents true]
    table.mergeListing halfAddressable =
      (.error (.ofCodec (.invalidField "target address" 0)), table) ∧
    table.mergeCapability halfReachable = (.error (.validation .unidentifiableDevice), table) ∧
    ∃ listing, TargetListing.decode bothAddressable = .ok listing ∧
      listingFault bothAddressable = none ∧ ∀ row ∈ listing.rows, ∃ count next,
        (table.mergeRows 0 (listing.rows.take 1)).2.mergeRow row = .ok (count, next) := by
  intro table
  refine ⟨?_, ?_, ?_⟩
  · exact ((refused_iff_fault table halfAddressable).1 _ _).2 ⟨by rfl, rfl⟩
  · exact ((refused_iff_fault table halfReachable).2.1 _ _).2 ⟨by rfl, rfl⟩
  · obtain ⟨listing, hdecode⟩ : ∃ listing, TargetListing.decode bothAddressable = .ok listing :=
      ⟨_, by rfl⟩
    have hfault : listingFault bothAddressable = none := by rfl
    refine ⟨listing, hdecode, hfault, fun row hrow ↦ ?_⟩
    exact ((refused_iff_fault table bothAddressable).2.2.1 listing hdecode hfault row hrow).2 _

end TargetTable

end I3cHost
