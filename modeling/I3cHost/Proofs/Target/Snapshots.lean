import Mathlib.Algebra.GroupWithZero.Nat
import I3cHost.Proofs.Target.Acceptance

/-!
# Listings that repeat each other

A device that has listed its targets once lists most of them again whenever it is asked. As long as
each target keeps its address, a row finds the record of its target by the address and by the
identifier alike, and a target is inserted only for the first row in which its address appears. So
a listener hears of every address once, in the order of these rows, and the table has one target for
each address that was ever listed (`arrivals_mergeListings`).
-/

namespace I3cHost

/-- The addresses of a list that are not known already, once each, in the order in which they appear
first. -/
def newAddresses (known listed : List UInt8) : List UInt8 :=
  (listed.filter (· ∉ known)).eraseDups

/-- What is new in two lists is new in the first, or in the second and not known from the first. -/
theorem newAddresses_append (known front later : List UInt8) :
    newAddresses known (front ++ later) =
      newAddresses known front ++ newAddresses (known ++ newAddresses known front) later := by
  simp only [newAddresses, List.filter_append, List.eraseDups_append, List.removeAll,
    List.filter_filter]
  congr 2
  refine List.filter_congr fun address _ ↦ ?_
  by_cases hknown : address ∈ known <;> simp [hknown]

/-- A single address is new unless it is known. -/
theorem newAddresses_singleton (known : List UInt8) (address : UInt8) :
    newAddresses known [address] = if address ∈ known then [] else [address] := by
  by_cases h : address ∈ known <;> simp [newAddresses, h, List.eraseDups_cons]

/-- While nothing is known every address is new, once. -/
theorem newAddresses_nil (listed : List UInt8) : newAddresses [] listed = listed.eraseDups := by
  rw [newAddresses, List.filter_eq_self.2 (by simp)]

/-- Addresses given to identifiers, no one twice. Not every identifier has one. -/
structure Assignment where
  address : ProvisionedId → Option UInt8
  named : ∀ pid given, address pid = some given → pid.isZero = false
  inRange : ∀ pid given, address pid = some given → given ≠ 0 ∧ given ≤ 0x7F
  injective : ∀ pid other given, address pid = some given → address other = some given → pid = other

/-- The addresses in a listing, in the order of its rows. -/
def TargetListing.addressesIn (buffer : Bytes) : List UInt8 :=
  match TargetListing.decode buffer with
  | .ok listing => listing.rows.map (·.address)
  | .error _ => []

namespace Assignment

/-- Whether a row lists an identifier with the address that is given to it. -/
def Lists (assignment : Assignment) (row : TargetRow) : Prop :=
  assignment.address row.pid = some row.address

instance (assignment : Assignment) (row : TargetRow) : Decidable (assignment.Lists row) :=
  inferInstanceAs (Decidable (_ = _))

/-- Whether all rows of a listing do so. -/
def Follows (assignment : Assignment) (buffer : Bytes) : Prop :=
  ∃ listing, TargetListing.decode buffer = .ok listing ∧ ∀ row ∈ listing.rows, assignment.Lists row

/-- Whether an operation merges such a listing, or concerns the listener only. -/
inductive Builds (assignment : Assignment) : TableOperation → Prop where
  | mergeListing {buffer : Bytes} (h : assignment.Follows buffer) :
      assignment.Builds (.mergeListing buffer)
  | listen (listener : Option String) : assignment.Builds (.listen listener)
  | enableEvents (enabled : Bool) : assignment.Builds (.enableEvents enabled)

end Assignment

/-- The addresses that an operation lists. -/
def TableOperation.listed : TableOperation → List UInt8
  | mergeListing buffer => TargetListing.addressesIn buffer
  | _ => []

namespace TargetTable

/-- Merges listings one after the other, and returns what each merge returned. -/
def mergeListings (table : TargetTable) : List Bytes → List (HostResult Nat) × TargetTable
  | [] => ([], table)
  | buffer :: buffers =>
      let (result, merged) := table.mergeListing buffer
      let (results, last) := merged.mergeListings buffers
      (result :: results, last)

/-- All targets are known by their identifiers and are at the addresses given to these. -/
def Tracks (assignment : Assignment) (table : TargetTable) : Prop :=
  ∀ device ∈ table.devices, device.validPid = true ∧
    assignment.address device.pid = some device.address

/-- The table with further targets, of which a listener has been told. -/
structure Joined (table next : TargetTable) (new : List UInt8) : Prop where
  addresses : next.devices.map (·.address) = table.devices.map (·.address) ++ new
  enabled : next.eventsEnabled = table.eventsEnabled
  listener : next.listener = table.listener
  told : ∀ listener, table.eventsEnabled = true → table.listener = some listener →
    next.arrivals = table.arrivals ++ (new.map (Arrival.mk listener)).toArray

variable {assignment : Assignment} {table next last : TargetTable} {row : TargetRow}
  {rows : List TargetRow} {new later : List UInt8} {added count total : Nat}

/-- Nobody has joined. -/
theorem Joined.refl (table : TargetTable) : Joined table table [] where
  addresses := (List.append_nil _).symm
  enabled := rfl
  listener := rfl
  told _ _ _ := by simp

/-- Those who join later are announced behind those who joined first. -/
theorem Joined.trans (h : Joined table next new) (hlast : Joined next last later) :
    Joined table last (new ++ later) where
  addresses := by rw [hlast.addresses, h.addresses, List.append_assoc]
  enabled := hlast.enabled.trans h.enabled
  listener := hlast.listener.trans h.listener
  told listener henabled hlistener := by
    rw [hlast.told listener (h.enabled.trans henabled) (h.listener.trans hlistener),
      h.told listener henabled hlistener]
    simp

/-- Every tracked target has an address. -/
theorem Tracks.addresses_eq (h : Tracks assignment table) :
    table.addresses = table.devices.map (·.address) := by
  refine List.filter_eq_self.2 fun address hmem ↦ ?_
  obtain ⟨device, hdevice, rfl⟩ := List.mem_map.1 hmem
  simpa using (assignment.inRange _ _ (h device hdevice).2).1

/-- The addresses of those who join come behind those known before. -/
theorem Tracks.addresses_joined (h : Tracks assignment table) (hnext : Tracks assignment next)
    (hjoined : Joined table next new) : next.addresses = table.addresses ++ new := by
  rw [hnext.addresses_eq, hjoined.addresses, h.addresses_eq]

/-- A row finds nothing exactly if its address is not in use: what is known by its identifier has
the address of the row. -/
theorem Tracks.positionOfRow_eq_none_iff (h : Tracks assignment table)
    (hrow : assignment.Lists row) :
    table.positionOfRow row = none ↔ row.address ∉ table.addresses := by
  rw [TargetTable.positionOfRow_eq_none_iff]
  refine and_iff_left_of_imp fun hfree device hdevice ↦ ?_
  rw [← Bool.not_eq_true]
  intro hmatch
  have hgiven := (h device hdevice).2
  rw [(TargetDevice.matchesPid_iff.1 hmatch).2.2] at hgiven
  exact hfree (mem_addresses_iff.2 ⟨(assignment.inRange _ _ hrow).1, device, hdevice,
    Option.some.inj (hgiven.symm.trans hrow)⟩)

/-- A row that was taken over says where its target is. -/
theorem tracks_applyRow {known updated : TargetDevice} (hrow : assignment.Lists row)
    (happly : known.applyRow row = .ok updated) : updated.validPid = true ∧
      assignment.address updated.pid = some updated.address := by
  have hmatch := TargetDevice.applyRow_matchesPid happly (assignment.named _ _ hrow)
  obtain ⟨hvalid, -, hpid⟩ := TargetDevice.matchesPid_iff.1 hmatch
  rw [hpid, (TargetDevice.applyRow_eq_ok happly).1]
  exact ⟨hvalid, hrow⟩

/-- A row adds a target if its address is not in use, and updates the one at its address
otherwise. -/
theorem Tracks.mergeRow (h : Tracks assignment table) (hrow : assignment.Lists row)
    (hmerge : table.mergeRow row = .ok (count, next)) :
    Tracks assignment next ∧ count = (newAddresses table.addresses [row.address]).length ∧
      Joined table next (newAddresses table.addresses [row.address]) := by
  obtain ⟨henabled, hlistener, harrivals⟩ := arrivals_mergeRow hmerge
  have hzero := (assignment.inRange _ _ hrow).1
  rw [newAddresses_singleton]
  rcases mergeRow_cases hmerge with
    ⟨index, updated, hindex, hfound, happly, rfl, rfl⟩ | ⟨hnone, device, happly, rfl, hinsert⟩
  · have hused : row.address ∈ table.addresses := by
      refine Decidable.byContradiction fun hfree ↦ ?_
      rw [(h.positionOfRow_eq_none_iff hrow).2 hfree] at hfound
      cases hfound
    obtain ⟨_, ⟨hsame, -⟩ | ⟨hfree, -⟩⟩ := positionOfRow_eq_some hfound
    · rw [if_pos hused]
      refine ⟨fun device hdevice ↦ ?_, rfl, ?_, henabled, hlistener, ?_⟩
      · rcases mem_of_mem_modify hdevice with hdevice | rfl
        · exact h device hdevice
        · exact tracks_applyRow hrow happly
      · rw [List.append_nil]
        exact map_modify (List.getElem?_eq_getElem hindex)
          ((TargetDevice.applyRow_eq_ok happly).1.trans hsame.symm)
      · intro listener hevents hlisten
        rw [harrivals listener hevents hlisten, hfound]
        simp
    · exact absurd hused hfree
  · have hfree := (h.positionOfRow_eq_none_iff hrow).1 hnone
    obtain ⟨-, -, -, rfl⟩ := insert_eq_ok_iff.1 hinsert
    rw [if_neg hfree]
    refine ⟨fun target htarget ↦ ?_, rfl, ?_, henabled, hlistener, ?_⟩
    · rw [announce_devices] at htarget
      rcases List.mem_append.1 htarget with hknown | hnew
      · exact h target hknown
      · obtain rfl := List.mem_singleton.1 hnew
        exact tracks_applyRow hrow happly
    · simp [(TargetDevice.applyRow_eq_ok happly).1]
    · intro listener hevents hlisten
      rw [harrivals listener hevents hlisten, if_pos ⟨hnone, hzero⟩]
      rfl

/-- Merging rows that follow the assignment adds the targets whose addresses are new, and announces
them in order. -/
theorem Tracks.mergeRows (h : Tracks assignment table)
    (hrows : ∀ row ∈ rows, assignment.Lists row)
    (hmerge : table.mergeRows added rows = (.ok total, next)) :
    Tracks assignment next ∧
      total = added + (newAddresses table.addresses (rows.map (·.address))).length ∧
      Joined table next (newAddresses table.addresses (rows.map (·.address))) := by
  induction rows generalizing table added with
  | nil =>
      cases hmerge
      exact ⟨h, rfl, .refl next⟩
  | cons row rows ih =>
      obtain ⟨hrow, hrows⟩ := List.forall_mem_cons.1 hrows
      obtain ⟨count, merged, hfirst, hmerge⟩ := mergeRows_cons_eq_ok hmerge
      obtain ⟨hmerged, rfl, hjoined⟩ := h.mergeRow hrow hfirst
      obtain ⟨hnext, rfl, hlater⟩ := ih hmerged hrows hmerge
      have hsplit := newAddresses_append table.addresses [row.address] (rows.map (·.address))
      rw [← h.addresses_joined hmerged hjoined, List.singleton_append, ← List.map_cons] at hsplit
      rw [hsplit, List.length_append, ← Nat.add_assoc]
      exact ⟨hnext, rfl, hjoined.trans hlater⟩

/-- A listing that follows the assignment is accepted, and adds a target for each address that is
new. -/
theorem Tracks.mergeListing {buffer : Bytes} (h : Tracks assignment table)
    (hbuffer : assignment.Follows buffer) :
    ∃ next, Tracks assignment next ∧
      Joined table next (newAddresses table.addresses (TargetListing.addressesIn buffer)) ∧
      table.mergeListing buffer =
        (.ok (newAddresses table.addresses (TargetListing.addressesIn buffer)).length, next) := by
  obtain ⟨listing, hdecode, hrows⟩ := hbuffer
  have haddressable : ∀ row ∈ listing.rows, isUnaddressable row = false := fun row hrow ↦ by
    obtain ⟨hzero, hrange⟩ := assignment.inRange _ _ (hrows row hrow)
    simp [isUnaddressable, hzero, UInt8.not_lt.2 (show row.address ≤ maxTargetAddress from hrange)]
  obtain ⟨total, next, hmerge⟩ : ∃ total next,
      table.mergeRows 0 listing.rows = (.ok total, next) :=
    mergeRows_accepted haddressable (TargetListing.type_of_decode hdecode) 0
  obtain ⟨hnext, htotal, hjoined⟩ := h.mergeRows hrows hmerge
  have hlisted : TargetListing.addressesIn buffer = listing.rows.map (·.address) := by
    rw [TargetListing.addressesIn, hdecode]
  rw [mergeListing_of_rows hdecode haddressable, hmerge, htotal, Nat.zero_add, hlisted]
  exact ⟨next, hnext, hjoined, rfl⟩

/-- So is every listing of a sequence. -/
theorem Tracks.mergeListings {buffers : List Bytes} (h : Tracks assignment table)
    (hbuffers : ∀ buffer ∈ buffers, assignment.Follows buffer) :
    let new := newAddresses table.addresses (buffers.flatMap TargetListing.addressesIn)
    ∃ (counts : List Nat) (next : TargetTable),
      table.mergeListings buffers = (counts.map .ok, next) ∧
      counts.sum = new.length ∧ Tracks assignment next ∧ Joined table next new := by
  induction buffers generalizing table with
  | nil => exact ⟨[], table, rfl, rfl, h, .refl table⟩
  | cons buffer buffers ih =>
      obtain ⟨hbuffer, hbuffers⟩ := List.forall_mem_cons.1 hbuffers
      obtain ⟨merged, hmerged, hjoined, hmerge⟩ := h.mergeListing hbuffer
      obtain ⟨counts, next, hlater, hsum, hnext, hrest⟩ := ih hmerged hbuffers
      have hsplit := newAddresses_append table.addresses (TargetListing.addressesIn buffer)
        (buffers.flatMap TargetListing.addressesIn)
      rw [← h.addresses_joined hmerged hjoined] at hsplit
      rw [List.flatMap_cons, hsplit]
      refine ⟨(newAddresses table.addresses (TargetListing.addressesIn buffer)).length :: counts,
        next, ?_, ?_, hnext, hjoined.trans hrest⟩
      · rw [TargetTable.mergeListings, hmerge]
        simp only [hlater]
        rfl
      · rw [List.sum_cons, hsum, List.length_append]

/-- Whatever is built of listings that follow the assignment has one target for each address that
was listed, in the order in which the addresses appeared. -/
theorem Tracks.foldl {history : List TableOperation} (h : Tracks assignment table)
    (hhistory : ∀ operation ∈ history, assignment.Builds operation) :
    Tracks assignment (history.foldl TableOperation.apply table) ∧
      (history.foldl TableOperation.apply table).addresses =
        table.addresses ++ newAddresses table.addresses (history.flatMap (·.listed)) := by
  induction history generalizing table with
  | nil => exact ⟨h, (List.append_nil _).symm⟩
  | cons operation history ih =>
      obtain ⟨hoperation, hhistory⟩ := List.forall_mem_cons.1 hhistory
      have hstep : Tracks assignment (operation.apply table) ∧ (operation.apply table).addresses =
          table.addresses ++ newAddresses table.addresses operation.listed := by
        cases hoperation with
        | mergeListing hbuffer =>
            obtain ⟨merged, hmerged, hjoined, hmerge⟩ := h.mergeListing hbuffer
            rw [TableOperation.apply, hmerge]
            exact ⟨hmerged, h.addresses_joined hmerged hjoined⟩
        | listen listener => exact ⟨h, (List.append_nil _).symm⟩
        | enableEvents enabled => exact ⟨h, (List.append_nil _).symm⟩
      obtain ⟨hrest, haddresses⟩ := ih hstep.1 hhistory
      refine ⟨hrest, ?_⟩
      rw [List.foldl_cons, haddresses, List.flatMap_cons, newAddresses_append, hstep.2,
        List.append_assoc]

/-- Let a table be built of listings all of whose rows follow one assignment of addresses to
identifiers, and let events be enabled and a listener be registered. Merging more such listings,
with whatever rows and however often repeated, tells the listener each address that they list and
that was not in use at the start, once, in the order in which the addresses appear first. As many
targets are added as addresses are told. In the end there is one target for each address that was
ever listed, and it is the one that the assignment gives the address to. -/
theorem arrivals_mergeListings {history : List TableOperation} {buffers : List Bytes}
    {listener : String} (hhistory : ∀ operation ∈ history, assignment.Builds operation)
    (henabled : (TableOperation.run history).eventsEnabled = true)
    (hlistener : (TableOperation.run history).listener = some listener)
    (hbuffers : ∀ buffer ∈ buffers, assignment.Follows buffer) :
    let start := TableOperation.run history
    let told := newAddresses start.addresses (buffers.flatMap TargetListing.addressesIn)
    ∃ (counts : List Nat) (next : TargetTable),
      start.mergeListings buffers = (counts.map .ok, next) ∧
      next.arrivals = start.arrivals ++ (told.map (Arrival.mk listener)).toArray ∧
      counts.sum = told.length ∧
      next.devices.map (·.address) = (history.flatMap (·.listed) ++
        buffers.flatMap TargetListing.addressesIn).eraseDups ∧
      Tracks assignment next := by
  intro start told
  have hempty : Tracks assignment {} := List.forall_mem_nil _
  obtain ⟨hstart, haddresses⟩ : Tracks assignment start ∧
      start.addresses = newAddresses [] (history.flatMap (·.listed)) := hempty.foldl hhistory
  obtain ⟨counts, next, hmerge, hsum, hnext, hjoined⟩ := hstart.mergeListings hbuffers
  refine ⟨counts, next, hmerge, hjoined.told listener henabled hlistener, hsum, ?_, hnext⟩
  rw [← hnext.addresses_eq, hstart.addresses_joined hnext hjoined, haddresses, ← newAddresses_nil,
    newAddresses_append, List.nil_append]

/-- The identifiers 1, 2 and 3 have the addresses 8, 9 and 10. -/
def consecutive : Assignment where
  address pid :=
    match pid.toNat with
    | 1 => some 8
    | 2 => some 9
    | 3 => some 10
    | _ => none
  named pid given h := by
    rw [← Bool.not_eq_true, ProvisionedId.isZero_iff]
    intro hzero
    simp [hzero] at h
  inRange pid given h := by
    split at h <;> cases h <;> decide
  injective pid other given h hother := by
    have hsame : pid.toNat = other.toNat := by
      split at h <;> cases h <;> split at hother <;> simp_all
    rw [← pid.ofNat_toNat, hsame, other.ofNat_toNat]

/-- The identifier 1 at the address 8. -/
def firstListing : Bytes :=
  [1, 0, 0, 0, 8, 0, 0, 0, 1, 0, 0, 0, 0, 0, 0, 0, 0, 0, 0, 0]

/-- The identifiers 2 and 1 at the addresses 9 and 8. -/
def secondListing : Bytes :=
  [2, 0, 0, 0, 9, 0, 0, 0, 2, 0, 0, 0, 0, 0, 0, 0, 0, 0, 0, 0,
    8, 0, 0, 0, 1, 0, 0, 0, 0, 0, 0, 0, 0, 0, 0, 0]

/-- The identifiers 3 and 2 at the addresses 10 and 9. -/
def thirdListing : Bytes :=
  [2, 0, 0, 0, 10, 0, 0, 0, 3, 0, 0, 0, 0, 0, 0, 0, 0, 0, 0, 0,
    9, 0, 0, 0, 2, 0, 0, 0, 0, 0, 0, 0, 0, 0, 0, 0]

/-- Of three listings that overlap the last two announce what the one before has not listed. -/
theorem arrivals_overlapping :
    let history : List TableOperation :=
      [.mergeListing firstListing, .listen (some "arrivals"), .enableEvents true]
    (∀ operation ∈ history, consecutive.Builds operation) ∧
    (∀ buffer ∈ [secondListing, thirdListing], consecutive.Follows buffer) ∧
    ∃ (counts : List Nat) (next : TargetTable),
      (TableOperation.run history).mergeListings [secondListing, thirdListing] =
        (counts.map .ok, next) ∧
      next.arrivals = #[⟨"arrivals", 9⟩, ⟨"arrivals", 10⟩] ∧ counts.sum = 2 ∧
      next.devices.map (·.address) = [8, 9, 10] := by
  intro history
  have hfirst : consecutive.Follows firstListing :=
    ⟨⟨[{ address := 8, pid.low := 1 }]⟩, by rfl, by decide⟩
  have hsecond : consecutive.Follows secondListing :=
    ⟨⟨[{ address := 9, pid.low := 2 }, { address := 8, pid.low := 1 }]⟩, by rfl, by decide⟩
  have hthird : consecutive.Follows thirdListing :=
    ⟨⟨[{ address := 10, pid.low := 3 }, { address := 9, pid.low := 2 }]⟩, by rfl, by decide⟩
  have hhistory : ∀ operation ∈ history, consecutive.Builds operation := by
    intro operation hoperation
    simp only [history, List.mem_cons, List.not_mem_nil, or_false] at hoperation
    rcases hoperation with rfl | rfl | rfl
    · exact .mergeListing hfirst
    · exact .listen _
    · exact .enableEvents _
  have hbuffers : ∀ buffer ∈ [secondListing, thirdListing], consecutive.Follows buffer := by
    simpa using ⟨hsecond, hthird⟩
  obtain ⟨counts, next, hmerge, harrivals, hsum, haddresses, -⟩ :=
    arrivals_mergeListings hhistory rfl rfl hbuffers
  exact ⟨hhistory, hbuffers, counts, next, hmerge, harrivals.trans (by rfl), hsum.trans (by rfl),
    haddresses.trans (by rfl)⟩

end TargetTable

end I3cHost
