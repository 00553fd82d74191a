import I3cHost.Proofs.Target.Placement

/-!
# Merging a report a second time

A report that lists no address and no identifier twice says the same of the targets when it is
merged again, and mostly nothing changes. But an entry without an identifier leaves its target known
by the identifier that it had, and a later entry with this identifier and an address that is not in
use takes the target away. The first entry is then about no target any more, or about another one,
and merging it again adds a target or changes one. A listing changes nothing when it is merged again
exactly if no two rows were merged into one target (`mergeListing_again_iff`). Static addresses need
not be distinct, so an entry of a capability report may be about another target afterwards; it must
agree with that one if its target was taken away (`mergeCapability_again_iff`).
-/

namespace I3cHost.TargetTable

variable {table next : TargetTable} {row : TargetRow} {rows : List TargetRow}
  {entry : CapabilityEntry} {entries : List CapabilityEntry} {added total place : Nat}

/-- The places of the targets that rows are merged into, one after the other. -/
def placesOfRows (table : TargetTable) : List TargetRow → List Nat
  | [] => []
  | row :: rows => table.placeOfRow row :: (table.mergeRows 0 [row]).2.placesOfRows rows

/-- The place of the target that an entry is merged into. A new one is the last. -/
def placeOfEntry (table : TargetTable) (entry : CapabilityEntry) : Nat :=
  (table.positionOfEntry entry).getD table.devices.length

/-- The places of the targets that entries are merged into, one after the other. -/
def placesOfEntries (table : TargetTable) : List CapabilityEntry → List Nat
  | [] => []
  | entry :: entries =>
      table.placeOfEntry entry :: (table.mergeEntries 0 [entry]).2.placesOfEntries entries

/-- No address and no identifier is listed twice in a capability report. -/
structure UnambiguousEntries (entries : List CapabilityEntry) : Prop where
  addresses : entries.Pairwise fun first second ↦
    first.staticAddress ≠ 0 → first.staticAddress ≠ second.staticAddress
  pids : entries.Pairwise fun first second ↦ first.pid.isZero = false → first.pid ≠ second.pid

instance (entries : List CapabilityEntry) : Decidable (UnambiguousEntries entries) :=
  decidable_of_iff (_ ∧ _) ⟨fun h ↦ ⟨h.1, h.2⟩, fun h ↦ ⟨h.addresses, h.pids⟩⟩

/-- Entries that are unambiguous are so as a report that is merged. -/
theorem UnambiguousEntries.matching (h : UnambiguousEntries entries) :
    CapabilityEntry.matching.Unambiguous entries :=
  h.addresses.imp₂ (fun _ _ haddress hpid ↦ ⟨haddress, hpid⟩) h.pids

/-- The places of rows are those of their matches. -/
theorem placesOfRows_eq (h : table.mergeRows added rows = (.ok total, next)) :
    table.placesOfRows rows = TargetRow.matching.places table.devices rows := by
  induction rows generalizing table added with
  | nil => rfl
  | cons row rows ih =>
      obtain ⟨count, merged, hrow, hrest⟩ := mergeRows_cons_eq_ok h
      have hmerge : (table.mergeRows 0 [row]).2 = merged := by
        rw [mergeRows, hrow]
        rfl
      rw [placesOfRows, Matching.places, ← (devices_mergeRow hrow).1, hmerge, ih hrest, placeOfRow,
        Matching.place, found_row]

/-- The places of entries are those of their matches. -/
theorem placesOfEntries_eq (h : table.mergeEntries added entries = (.ok total, next)) :
    table.placesOfEntries entries = CapabilityEntry.matching.places table.devices entries := by
  induction entries generalizing table added with
  | nil => rfl
  | cons entry entries ih =>
      unfold mergeEntries at h
      split at h
      next count merged hentry =>
        have hmerge : (table.mergeEntries 0 [entry]).2 = merged := by
          rw [mergeEntries, hentry]
          rfl
        rw [placesOfEntries, Matching.places, ← (devices_mergeEntry hentry).1, hmerge, ih h]
        rfl
      next => cases h

/-- A row that agrees with what is known changes nothing. -/
theorem mergeRow_of_agrees (htype : ∃ type : TargetType, Coded.ofByte row.type = .ok type)
    (h : TargetRow.matching.Agrees table.devices row) : table.mergeRow row = .ok (0, table) := by
  obtain ⟨place, device, hfound, hdevice, htake⟩ := h
  have happly : device.applyRow row = .ok device :=
    TargetDevice.applyRow_eq_ok_iff_takeRow.2 ⟨htype, htake.symm⟩
  rw [mergeRow_of_positionOfRow (found_row.symm.trans hfound) hdevice happly,
    modify_eq_self hdevice rfl]

/-- Rows that say what is known already change nothing. -/
theorem mergeRows_of_agrees (htypes : ∀ row ∈ rows, ∃ type : TargetType,
      Coded.ofByte row.type = .ok type)
    (h : ∀ row ∈ rows, TargetRow.matching.Agrees table.devices row) (added : Nat) :
    table.mergeRows added rows = (.ok added, table) := by
  induction rows with
  | nil => rfl
  | cons row rows ih =>
      obtain ⟨htype, htypes⟩ := List.forall_mem_cons.1 htypes
      obtain ⟨hrow, hrows⟩ := List.forall_mem_cons.1 h
      rw [mergeRows, mergeRow_of_agrees htype hrow]
      exact ih htypes hrows

/-- Rows that were accepted change nothing exactly if each of them agrees with what is known. -/
theorem mergeRows_eq_self_iff (hrows : Unambiguous rows)
    (haddressable : ∀ row ∈ rows, isUnaddressable row = false)
    (htypes : ∀ row ∈ rows, ∃ type : TargetType, Coded.ofByte row.type = .ok type) :
    table.mergeRows 0 rows = (.ok 0, table) ↔
      ∀ row ∈ rows, TargetRow.matching.Agrees table.devices row := by
  refine ⟨fun h ↦ ?_, fun h ↦ mergeRows_of_agrees htypes h 0⟩
  refine (Matching.mergeAll_eq_self_iff hrows.matching fun row hrow ↦
    named_of_isUnaddressable (haddressable row hrow)).1 ?_
  exact (devices_mergeRows h).1.symm

/-- A table agrees with an entry exactly if its match does. -/
theorem agreesWithEntry_iff : table.agreesWithEntry entry = true ↔
    CapabilityEntry.matching.Agrees table.devices entry := by
  simp only [agreesWithEntry, Option.any_eq_true, Option.bind_eq_some_iff, beq_iff_eq]
  constructor
  · rintro ⟨device, ⟨place, hplace, hdevice⟩, hsame⟩
    exact ⟨place, device, hplace, hdevice, hsame⟩
  · rintro ⟨place, device, hplace, hdevice, hsame⟩
    exact ⟨device, ⟨place, hplace, hdevice⟩, hsame⟩

/-- Entries that are unambiguous change nothing exactly if the table agrees with each of them. -/
theorem mergeEntries_eq_self_iff (hentries : UnambiguousEntries entries)
    (hreachable : ∀ entry ∈ entries, (TargetDevice.ofCapabilityEntry entry).isUnreachable = false) :
    table.mergeEntries 0 entries = (.ok 0, table) ↔
      ∀ entry ∈ entries, table.agreesWithEntry entry = true := by
  refine ⟨fun h entry hentry ↦ ?_, fun h ↦ mergeEntries_agreeing h 0⟩
  refine agreesWithEntry_iff.2 ((Matching.mergeAll_eq_self_iff hentries.matching
    fun entry hentry ↦ named_of_isUnreachable (hreachable entry hentry)).1 ?_ entry hentry)
  exact (devices_mergeEntries h).1.symm

/-- When a row has been merged, only its target has the address of the row. -/
theorem only_at_place (hintegrity : Integrity table.devices) {front later : List TargetRow}
    (haddressable : ∀ other ∈ front ++ row :: later, isUnaddressable other = false)
    (hzero : row.address ≠ 0)
    (hmerge : table.mergeRows added (front ++ row :: later) = (.ok total, next))
    (hplace : place ≠
      TargetRow.matching.place (TargetRow.matching.mergeAll table.devices front) row) :
    ((TargetRow.matching.merge (TargetRow.matching.mergeAll table.devices front) row)[place]?).all
      (·.address != row.address) = true := by
  obtain ⟨haddressableFront, haddressable⟩ := List.forall_mem_append.1 haddressable
  obtain ⟨count, reached, hfront, hrest⟩ := mergeRows_append_eq_ok hmerge
  obtain ⟨more, merged, hrow, -⟩ := mergeRows_cons_eq_ok hrest
  have hmerged : Integrity merged.devices := by
    refine (integrity_mergeRows hintegrity haddressableFront hfront).mergeRow ?_ hrow
    simpa [isUnaddressable] using
      (Bool.or_eq_false_iff.1 (haddressable row List.mem_cons_self)).1
  rw [(devices_mergeRow hrow).1, (devices_mergeRows hfront).1] at hmerged
  rw [Option.all_eq_true]
  intro device hdevice
  rw [bne_iff_ne]
  intro hsame
  exact hplace (hmerged.eq_of_address hdevice Matching.getElem?_merge_place (hsame ▸ hzero) hsame)

/-- A listing that was merged changes nothing when it is merged again exactly if no two of its rows
were merged into one target. -/
theorem mergeListing_again_iff {buffer : Bytes} {listing : TargetListing}
    (hintegrity : Integrity table.devices) (hdecode : TargetListing.decode buffer = .ok listing)
    (hrows : Unambiguous listing.rows) (hmerge : table.mergeListing buffer = (.ok added, next)) :
    next.mergeListing buffer = (.ok 0, next) ↔ (table.placesOfRows listing.rows).Nodup := by
  obtain ⟨haddressable, hmerge⟩ := mergeListing_eq_ok hdecode hmerge
  have hnamed (row : TargetRow) (hrow : row ∈ listing.rows) :=
    named_of_isUnaddressable (haddressable row hrow)
  rw [mergeListing_of_rows hdecode haddressable,
    mergeRows_eq_self_iff hrows haddressable (TargetListing.type_of_decode hdecode),
    placesOfRows_eq hmerge, (devices_mergeRows hmerge).1, Matching.nodup_places_iff]
  generalize listing.rows = rows at *
  constructor
  · -- Addresses are distinct, so no other target holds that of a row whose target was taken away.
    rintro h front row later rfl hover
    have hrow := List.mem_append_right front (List.mem_cons_self (a := row) (l := later))
    exact Matching.not_agrees_of_overtaken hrows.matching (hnamed row hrow)
      (fun place hplace ↦ only_at_place hintegrity haddressable
        (hover.given_ne_zero hrows.matching (hnamed row hrow)) hmerge hplace) hover (h row hrow)
  · intro h row hrow
    obtain ⟨front, later, rfl⟩ := List.append_of_mem hrow
    exact Matching.agrees_of_not_overtaken hrows.matching (hnamed row hrow)
      (h front row later rfl)

/-- Rows that all have an identifier are merged into different targets, so the listing changes
nothing when it is merged again. -/
theorem mergeListing_again_of_pids {buffer : Bytes} {listing : TargetListing}
    (hintegrity : Integrity table.devices) (hdecode : TargetListing.decode buffer = .ok listing)
    (hrows : Unambiguous listing.rows) (hpids : ∀ row ∈ listing.rows, row.pid.isZero = false)
    (hmerge : table.mergeListing buffer = (.ok added, next)) :
    next.mergeListing buffer = (.ok 0, next) := by
  refine (mergeListing_again_iff hintegrity hdecode hrows hmerge).2 ?_
  rw [placesOfRows_eq (mergeListing_eq_ok hdecode hmerge).2]
  exact Matching.nodup_places hrows.matching hpids

/-- A capability report is merged as its entries are, if all of their targets could be reached. -/
theorem mergeCapability_eq_ok {buffer : Bytes} {report : CapabilityReport}
    (hdecode : CapabilityReport.decode buffer = .ok report)
    (h : table.mergeCapability buffer = (.ok added, next)) :
    (∀ entry ∈ report.targets, (TargetDevice.ofCapabilityEntry entry).isUnreachable = false) ∧
      ∀ other : TargetTable,
        other.mergeCapability buffer = other.mergeEntries 0 report.targets := by
  simp only [mergeCapability, hdecode] at h ⊢
  split at h
  next => cases h
  next hreachable => exact ⟨by simpa using hreachable, fun other ↦ if_neg hreachable⟩

/-- A capability report that was merged changes nothing when it is merged again exactly if it agrees
with the table in each entry whose target a later one was merged into as well. -/
theorem mergeCapability_again_iff {buffer : Bytes} {report : CapabilityReport}
    (hdecode : CapabilityReport.decode buffer = .ok report)
    (hentries : UnambiguousEntries report.targets)
    (hmerge : table.mergeCapability buffer = (.ok added, next)) :
    next.mergeCapability buffer = (.ok 0, next) ↔
      ∀ (turn later place : Nat) (entry : CapabilityEntry), turn < later →
        report.targets[turn]? = some entry →
        (table.placesOfEntries report.targets)[turn]? = some place →
        (table.placesOfEntries report.targets)[later]? = some place →
        next.agreesWithEntry entry = true := by
  obtain ⟨hreachable, heq⟩ := mergeCapability_eq_ok hdecode hmerge
  rw [heq] at hmerge ⊢
  rw [mergeEntries_eq_self_iff hentries hreachable, placesOfEntries_eq hmerge]
  generalize report.targets = entries at *
  constructor
  · intro h turn later place entry _ hentry _ _
    exact h entry (List.mem_of_getElem? hentry)
  · intro h entry hentry
    obtain ⟨front, later, rfl⟩ := List.append_of_mem hentry
    -- Static addresses may be shared, so nothing is known of an entry whose target was taken away.
    by_cases hover : CapabilityEntry.matching.Overtaken table.devices front entry later
    · obtain ⟨turn, place, hturn, hfirst, hlater⟩ := Matching.overtaken_iff.1 hover
      exact h front.length turn place entry hturn (by simp) hfirst hlater
    · rw [agreesWithEntry_iff, (devices_mergeEntries hmerge).1]
      exact Matching.agrees_of_not_overtaken hentries.matching
        (named_of_isUnreachable (hreachable entry hentry)) hover

/-- In every table that operations lead to, let a report be merged that lists no address and no
identifier twice. Merging it again adds no target, tells no listener and leaves all as it is exactly
if, for a listing, no two rows were merged into one target, and, for a capability report, every
entry whose target a later one was merged into as well says of the target that it is about now what
is known of it. -/
theorem merge_again_iff (history : List TableOperation) (buffer : Bytes) :
    (∀ (listing : TargetListing) (added : Nat) (next : TargetTable),
      TargetListing.decode buffer = .ok listing → Unambiguous listing.rows →
      (TableOperation.run history).mergeListing buffer = (.ok added, next) →
      (next.mergeListing buffer = (.ok 0, next) ↔
        ((TableOperation.run history).placesOfRows listing.rows).Nodup)) ∧
    ∀ (report : CapabilityReport) (added : Nat) (next : TargetTable),
      CapabilityReport.decode buffer = .ok report → UnambiguousEntries report.targets →
      (TableOperation.run history).mergeCapability buffer = (.ok added, next) →
      (next.mergeCapability buffer = (.ok 0, next) ↔
        ∀ (turn later place : Nat) (entry : CapabilityEntry), turn < later →
          report.targets[turn]? = some entry →
          ((TableOperation.run history).placesOfEntries report.targets)[turn]? = some place →
          ((TableOperation.run history).placesOfEntries report.targets)[later]? = some place →
          next.agreesWithEntry entry = true) :=
  ⟨fun _ _ _ hdecode hrows hmerge ↦
      mergeListing_again_iff (Integrity.nil.applyAll history) hdecode hrows hmerge,
    fun _ _ _ hdecode hentries hmerge ↦ mergeCapability_again_iff hdecode hentries hmerge⟩

/-- Two targets with one static address. -/
def twins : List TableOperation :=
  [.insert { TargetDevice.ofPid 8 5 with capability := { staticAddress := 0x30 } },
    .insert { TargetDevice.ofPid 9 6 with
      capability := { staticAddress := 0x30, ibiPriority := 1 } }]

/-- Rows for both of them, one of which speaks I2C and has no identifier. -/
def twinRows : List TargetRow :=
  [{ address := 8, type := 1 }, { address := 9, pid := ⟨0, 6⟩, bcr := 0x46 }]

/-- An entry without an identifier, and one that gives the first of them another static address. -/
def twinEntries : List CapabilityEntry :=
  [{ staticAddress := 0x30, ibiPriority := 1 }, { staticAddress := 0x31, pid := ⟨0, 5⟩ }]

/-- The first entry is about the other target when the report is merged again, and agrees with
it. -/
theorem merge_again_twins :
    (∃ buffer next, TargetListing.decode buffer = .ok ⟨twinRows⟩ ∧ Unambiguous twinRows ∧
      (TableOperation.run twins).mergeListing buffer = (.ok 0, next) ∧
      next.mergeListing buffer = (.ok 0, next)) ∧
    ∃ buffer report next, CapabilityReport.decode buffer = .ok report ∧
      report.targets = twinEntries ∧ UnambiguousEntries twinEntries ∧
      (TableOperation.run twins).placesOfEntries twinEntries = [0, 0] ∧
      (TableOperation.run twins).mergeCapability buffer = (.ok 0, next) ∧
      next.mergeCapability buffer = (.ok 0, next) := by
  constructor
  · let buffer : Bytes := [2, 0, 0, 0, 8, 0, 1, 0, 0, 0, 0, 0, 0, 0, 0, 0, 0, 0, 0, 0,
      9, 0, 0, 0, 6, 0, 0, 0, 0, 0, 0, 0x46, 0, 0, 0, 0]
    have hdecode : TargetListing.decode buffer = .ok ⟨twinRows⟩ := by rfl
    have hrows : Unambiguous twinRows := by decide
    have hmerge : (TableOperation.run twins).mergeListing buffer =
      (.ok 0, ((TableOperation.run twins).mergeListing buffer).2) := by rfl
    have hdistinct : ((TableOperation.run twins).placesOfRows twinRows).Nodup := by decide
    exact ⟨buffer, _, hdecode, hrows, hmerge,
      ((merge_again_iff twins buffer).1 _ _ _ hdecode hrows hmerge).2 hdistinct⟩
  · let report := CapabilityReport.ofTargets .primaryController {} 0 twinEntries
    let buffer : Bytes := [48, 0, 5, 0, 1, 1, 1, 0, 0, 0, 0, 0, 0, 0, 0, 0,
      0x30, 1, 0, 0, 0, 0, 0, 0, 0, 0, 0, 0, 0, 0, 0, 0,
      0x31, 0, 0, 0, 5, 0, 0, 0, 0, 0, 0, 0, 0, 0, 0, 0]
    have hdecode : CapabilityReport.decode buffer = .ok report := by rfl
    have hentries : UnambiguousEntries twinEntries := by decide
    have hmerge : (TableOperation.run twins).mergeCapability buffer =
      (.ok 0, ((TableOperation.run twins).mergeCapability buffer).2) := by rfl
    have hagrees : ∀ entry ∈ twinEntries,
        ((TableOperation.run twins).mergeCapability buffer).2.agreesWithEntry entry = true := by
      decide
    exact ⟨buffer, report, _, hdecode, rfl, hentries, by decide, hmerge,
      ((merge_again_iff twins buffer).2 _ _ _ hdecode hentries hmerge).2
        fun _ _ _ entry _ hentry _ _ ↦ hagrees entry (List.mem_of_getElem? hentry)⟩

/-- One target, and a listener. -/
def listenedTo (device : TargetDevice) : List TableOperation :=
  [.insert device, .listen (some "arrivals"), .enableEvents true]

/-- A target without an identifier at the address of the known one, and the known one elsewhere. -/
def displacingRows : List TargetRow :=
  [{ address := 9, type := 1 }, { address := 8, pid := ⟨0, 5⟩ }]

/-- The same of the static addresses. -/
def displacingEntries : List CapabilityEntry :=
  [{ staticAddress := 0x30, ibiPriority := 1, discoVersion := 256, maxPendingIbi := 8 },
    { staticAddress := 0x31, ibiPriority := 2, discoVersion := 256, maxPendingIbi := 9,
      pid := ⟨0, 5⟩ }]

/-- The listing of these rows. -/
def displacingListing : Bytes :=
  [2, 0, 0, 0, 9, 0, 1, 0, 0, 0, 0, 0, 0, 0, 0, 0, 0, 0, 0, 0,
    8, 0, 0, 0, 5, 0, 0, 0, 0, 0, 0, 0, 0, 0, 0, 0]

/-- The report of these entries. -/
def displacingReport : Bytes :=
  [48, 0, 5, 0, 1, 1, 1, 0, 0, 0, 0, 0, 0, 0, 0, 0,
    0x30, 1, 0, 1, 0, 0, 0, 0, 0, 0, 0, 0, 8, 0, 0, 0,
    0x31, 2, 0, 1, 5, 0, 0, 0, 0, 0, 0, 0, 9, 0, 0, 0]

/-- Both rows, or both entries, are merged into the known target. When they are merged again the
first one adds a target, which the listener is told of if it has an address. -/
theorem merge_again_displacing :
    let known := TableOperation.run (listenedTo (.ofPid 9 5))
    let fixed := TableOperation.run
      (listenedTo { TargetDevice.ofPid 0 5 with capability := { staticAddress := 0x30 } })
    (TargetListing.decode displacingListing = .ok ⟨displacingRows⟩ ∧ Unambiguous displacingRows ∧
      ∃ first second : TargetTable, known.mergeListing displacingListing = (.ok 0, first) ∧
        first.mergeListing displacingListing = (.ok 1, second) ∧
        first.arrivals = #[] ∧ second.arrivals = #[⟨"arrivals", 9⟩] ∧
        first.addresses = [8] ∧ second.addresses = [8, 9]) ∧
    (∃ report, CapabilityReport.decode displacingReport = .ok report ∧
      report.targets = displacingEntries) ∧ UnambiguousEntries displacingEntries ∧
      ∃ first second : TargetTable, fixed.mergeCapability displacingReport = (.ok 0, first) ∧
        first.mergeCapability displacingReport = (.ok 1, second) ∧
        first.devices.map (·.capability.staticAddress) = [0x31] ∧
        second.devices.map (·.capability.staticAddress) = [0x31, 0x30] :=
  ⟨⟨by rfl, by decide, _, _, by rfl, by rfl, by rfl, by rfl, by rfl, by rfl⟩,
    ⟨_, by rfl, by rfl⟩, by decide, _, _, by rfl, by rfl, by rfl, by rfl⟩

end I3cHost.TargetTable
