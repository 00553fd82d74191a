import I3cHost.Proofs.Target.Acceptance
import I3cHost.Proofs.Target.Configuration

/-!
# Merging the same listings again

Initialization merges a listing, configures the targets that have an address, and merges another
listing. If the table that comes of this agrees with every row of both, doing the same again leaves
it as it was (`remerge`). Rows that agree with the table change neither which targets there are nor
what they are known by, so of the rows that are merged into one target the last decides what else is
known of it. It does so the first time as well: the target that the table has for a row is the one
that the row was merged into, unless a later row is about the same target (`merged_into_place`).
-/

namespace I3cHost

namespace TargetDevice

variable {device other updated : TargetDevice} {row : TargetRow} {pid : ProvisionedId}

/-- What is left of a target if all is ignored that rows say of targets which they know already. -/
def identity (device : TargetDevice) : TargetDevice :=
  { device with
    type := .i3c
    dcr := 0
    bcr := 0
    capability := { device.capability with handoffControllerRole := false }
    config := {}
    maxIbiPayload := 0 }

/-- The address is part of what identifies a target. -/
theorem address_of_identity (h : device.identity = other.identity) :
    device.address = other.address :=
  (congrArg address h :)

/-- The identifier is part of what identifies a target. -/
theorem matchesPid_of_identity (h : device.identity = other.identity) (pid : ProvisionedId) :
    device.matchesPid pid = other.matchesPid pid :=
  (congrArg (·.matchesPid pid) h :)

/-- A configuration is no part of what identifies a target. -/
@[simp] theorem identity_configured (config : TargetConfig) (maxIbiPayload : UInt32) :
    (device.configured config maxIbiPayload).identity = device.identity := by
  unfold configured
  split <;> rfl

/-- What a row makes of a target depends on what it does not say. -/
theorem applyRow_of_identity (h : device.identity = other.identity) :
    device.applyRow row = other.applyRow row := by
  have hidentity (device : TargetDevice) : device.identity.applyRow row = device.applyRow row := by
    unfold applyRow adoptPid
    cases (Coded.ofByte row.type : CodecResult TargetType) with
    | error error => rfl
    | ok type => split <;> rfl
  rw [← hidentity device, h, hidentity]

/-- A target that is known by an identifier already takes it over without a change. -/
theorem adoptPid_of_matchesPid (h : pid.isZero = true ∨ device.matchesPid pid = true) :
    device.adoptPid pid = device := by
  rcases h with hzero | hmatch
  · exact if_pos hzero
  · obtain ⟨hvalid, hzero, rfl⟩ := matchesPid_iff.1 hmatch
    have hnumber : (device.pid.toNat != 0) = true := by
      rw [bne_iff_ne, Ne, ← ProvisionedId.isZero_iff, hzero]
      exact Bool.false_ne_true
    rw [adoptPid, hzero, if_neg Bool.false_ne_true, setPid, hnumber, ProvisionedId.ofNat_toNat,
      ← hvalid]

/-- What is known of a target after a row has been taken over. -/
theorem applyRow_eq_ok_iff : device.applyRow row = .ok updated ↔
    ∃ type, Coded.ofByte row.type = .ok type ∧ updated =
      { device.adoptPid row.pid with
        address := row.address
        type
        dcr := row.dcr
        bcr := row.bcr
        capability :=
          { device.capability with handoffControllerRole := canTakeController row.bcr }
        config := row.config.config
        maxIbiPayload := row.maxIbiPayload } := by
  unfold applyRow
  cases htype : (Coded.ofByte row.type : CodecResult TargetType) with
  | error error => simp [bind, Except.bind]
  | ok type =>
      simp only [bind, Except.bind, pure, Except.pure, Except.ok.injEq, exists_eq_left', eq_comm]
      unfold adoptPid
      split <;> rfl

/-- A row that a target agrees with leaves its identity as it was. -/
theorem identity_applyRow (h : device.applyRow row = .ok updated)
    (haddress : device.address = row.address)
    (hpid : row.pid.isZero = true ∨ device.matchesPid row.pid = true) :
    updated.identity = device.identity := by
  obtain ⟨type, -, rfl⟩ := applyRow_eq_ok_iff.1 h
  rw [adoptPid_of_matchesPid hpid, ← haddress]
  rfl

/-- Taking a row over a second time changes nothing. -/
theorem applyRow_again (h : device.applyRow row = .ok updated)
    (hother : other.identity = updated.identity) : other.applyRow row = .ok updated := by
  rw [applyRow_of_identity hother]
  obtain ⟨type, htype, hupdated⟩ := applyRow_eq_ok_iff.1 h
  have hknown : row.pid.isZero = true ∨ updated.matchesPid row.pid = true := by
    cases hzero : row.pid.isZero with
    | true => exact .inl rfl
    | false => exact .inr (applyRow_matchesPid h hzero)
  refine applyRow_eq_ok_iff.2 ⟨type, htype, ?_⟩
  rw [adoptPid_of_matchesPid hknown, hupdated]

end TargetDevice

namespace TargetTable

variable {table before between next : TargetTable} {row : TargetRow} {rows : List TargetRow}
  {device : TargetDevice} {pid : ProvisionedId} {place : Nat}

/-- Whether the target that a row is about is in the table, with the address of the row, and known
by its identifier if the row has one. -/
def agreesWithRow (table : TargetTable) (row : TargetRow) : Bool :=
  ((table.positionOfRow row).bind (table.devices[·]?)).any fun device ↦
    device.address == row.address && (row.pid.isZero || device.matchesPid row.pid)

/-- A table agrees with a row if the target of the row has its address, and its identifier if it has
one. -/
theorem agreesWithRow_iff : table.agreesWithRow row = true ↔
    ∃ place device, table.positionOfRow row = some place ∧ table.devices[place]? = some device ∧
      device.address = row.address ∧
      (row.pid.isZero = true ∨ device.matchesPid row.pid = true) := by
  simp only [agreesWithRow, Option.any_eq_true, Option.bind_eq_some_iff, Bool.and_eq_true,
    Bool.or_eq_true, beq_iff_eq]
  constructor
  · rintro ⟨device, ⟨place, hplace, hdevice⟩, haddress, hpid⟩
    exact ⟨place, device, hplace, hdevice, haddress, hpid⟩
  · rintro ⟨place, device, hplace, hdevice, haddress, hpid⟩
    exact ⟨device, ⟨place, hplace, hdevice⟩, haddress, hpid⟩

/-- Where the target of a row is depends on the identities of the targets. -/
theorem positionOfRow_of_identity
    (h : before.devices.map (·.identity) = table.devices.map (·.identity)) :
    before.positionOfRow row = table.positionOfRow row := by
  have hfind (found : TargetDevice → Bool)
      (hfound : ∀ device, found device.identity = found device) :
      before.devices.findIdx? found = table.devices.findIdx? found := by
    have hidentity (devices : List TargetDevice) :
        (devices.map (·.identity)).findIdx? found = devices.findIdx? found := by
      rw [List.findIdx?_map]
      exact congrArg (devices.findIdx? ·) (funext hfound)
    rw [← hidentity, h, hidentity]
  unfold positionOfRow position positionOfPid
  rw [hfind _ fun _ ↦ rfl, hfind _ fun _ ↦ rfl]

/-- The place of the target that a row is merged into. A new one is the last. -/
def placeOfRow (table : TargetTable) (row : TargetRow) : Nat :=
  (table.positionOfRow row).getD table.devices.length

/-- A row is merged into one target, and the others stay as they are. -/
theorem mergeRow_place {count : Nat} (h : table.mergeRow row = .ok (count, next)) :
    ∃ known updated, known.applyRow row = .ok updated ∧
      (∀ device, table.devices[table.placeOfRow row]? = some device → device = known) ∧
      next.devices[table.placeOfRow row]? = some updated ∧
      ∀ place, place ≠ table.placeOfRow row → next.devices[place]? = table.devices[place]? := by
  unfold placeOfRow
  rcases mergeRow_cases h with
    ⟨index, updated, hindex, hfound, happly, -, rfl⟩ | ⟨hnone, updated, happly, -, hinsert⟩
  · refine ⟨_, updated, happly, ?_⟩
    simp only [hfound, Option.getD_some, modify, List.getElem?_modify, if_true]
    refine ⟨fun device hdevice ↦ ?_, ?_, fun place hplace ↦ ?_⟩
    · exact Option.some.inj (hdevice.symm.trans (List.getElem?_eq_getElem hindex))
    · rw [List.getElem?_eq_getElem hindex]
      rfl
    · simp [hplace.symm]
  · obtain ⟨-, -, -, rfl⟩ := insert_eq_ok_iff.1 hinsert
    refine ⟨_, updated, happly, ?_⟩
    simp only [hnone, Option.getD_none, announce_devices]
    refine ⟨fun device hdevice ↦ ?_, List.getElem?_concat_length, fun place hplace ↦ ?_⟩
    · rw [List.getElem?_eq_none_iff.2 (Nat.le_refl _)] at hdevice
      cases hdevice
    · rcases Nat.lt_or_gt_of_ne hplace with hlt | hgt
      · exact List.getElem?_append_left hlt
      · rw [List.getElem?_eq_none_iff.2 (Nat.le_of_lt hgt), List.getElem?_eq_none_iff.2]
        rw [List.length_append]
        exact hgt

/-- Whatever rows are merged, a target is as it was unless one of them was merged into it. -/
theorem unchanged_or_merged {added total : Nat} (h : table.mergeRows added rows = (.ok total, next))
    (hdevice : next.devices[place]? = some device) :
    table.devices[place]? = some device ∨
      ∃ row ∈ rows, ∃ known : TargetDevice, known.applyRow row = .ok device := by
  induction rows generalizing table added with
  | nil =>
      obtain rfl : table = next := congrArg Prod.snd h
      exact .inl hdevice
  | cons row rows ih =>
      obtain ⟨count, merged, hmerge, hrest⟩ := mergeRows_cons_eq_ok h
      rcases ih hrest with hunchanged | ⟨later, hlater, hmerged⟩
      · obtain ⟨known, updated, happly, -, hupdated, hothers⟩ := mergeRow_place hmerge
        by_cases hplace : place = table.placeOfRow row
        · rw [hplace, hupdated] at hunchanged
          exact .inr ⟨row, List.mem_cons_self, known, Option.some.inj hunchanged ▸ happly⟩
        · exact .inl (hothers place hplace ▸ hunchanged)
      · exact .inr ⟨later, List.mem_cons_of_mem row hlater, hmerged⟩

/-- Targets with the same address are the same. -/
theorem Integrity.eq_of_address {devices : List TargetDevice} (h : Integrity devices)
    {first second : Nat} {device other : TargetDevice} (hfirst : devices[first]? = some device)
    (hsecond : devices[second]? = some other) (hzero : device.address ≠ 0)
    (hsame : device.address = other.address) : first = second := by
  obtain ⟨hfirst', rfl⟩ := List.getElem?_eq_some_iff.1 hfirst
  obtain ⟨hsecond', rfl⟩ := List.getElem?_eq_some_iff.1 hsecond
  exact Decidable.byContradiction fun hne ↦ h.address_ne hfirst' hsecond' hne hzero hsame

/-- The place of a target that has an address is found by it. -/
theorem position_address (h : Integrity table.devices)
    (hdevice : table.devices[place]? = some device) (hzero : device.address ≠ 0) :
    table.position device.address = some place := by
  cases hposition : table.position device.address with
  | none =>
      have hmem : device.address ∈ table.addresses :=
        mem_addresses_iff.2 ⟨hzero, device, List.mem_of_getElem? hdevice, rfl⟩
      exact absurd hmem (position_eq_none_iff.1 hposition)
  | some found =>
      obtain ⟨-, hfound, haddress⟩ := position_eq_some hposition
      rw [h.eq_of_address hdevice (List.getElem?_eq_getElem hfound) hzero haddress.symm]

/-- The target at a place of another table is known by an identifier, and if it has an address the
table knows the target at this address by that identifier, too. -/
def Backs (table other : TargetTable) (pid : ProvisionedId) (place : Nat) : Prop :=
  ∃ device, other.devices[place]? = some device ∧ device.matchesPid pid = true ∧
    (device.address ≠ 0 → ∃ target ∈ table.devices, target.address = device.address ∧
      target.matchesPid pid = true)

/-- A target that is known by an identifier is known by no other one. -/
theorem pid_eq_of_matchesPid {other : ProvisionedId} (h : device.matchesPid pid = true)
    (hother : device.matchesPid other = true) : other = pid := by
  obtain ⟨-, -, rfl⟩ := TargetDevice.matchesPid_iff.1 h
  exact (TargetDevice.matchesPid_iff.1 hother).2.2.symm

/-- The target that a row is about is the one at its address, or one that is known by its
identifier. -/
theorem placeOfRow_eq (hdevice : table.devices[table.placeOfRow row]? = some device) :
    table.positionOfRow row = some (table.placeOfRow row) ∧
      (device.address = row.address ∧ row.address ≠ 0 ∨ device.matchesPid row.pid = true) := by
  unfold placeOfRow at *
  cases hposition : table.positionOfRow row with
  | none =>
      rw [hposition, Option.getD_none, List.getElem?_eq_none_iff.2 (Nat.le_refl _)] at hdevice
      cases hdevice
  | some place =>
      rw [hposition, Option.getD_some] at hdevice
      obtain ⟨hplace, hfound⟩ := positionOfRow_eq_some hposition
      obtain rfl := Option.some.inj (hdevice.symm.trans (List.getElem?_eq_getElem hplace))
      exact ⟨rfl, hfound.imp_right And.right⟩

/-- A row that the table agrees with does not take from a target an identifier that the table
backs. -/
theorem Backs.mergeRow (htable : Integrity table.devices) (hagrees : table.agreesWithRow row = true)
    {count : Nat} (hmerge : before.mergeRow row = .ok (count, next))
    (h : table.Backs before pid place) : table.Backs next pid place := by
  obtain ⟨device, hdevice, hmatch, hbacked⟩ := h
  obtain ⟨known, updated, happly, hknown, hupdated, hothers⟩ := mergeRow_place hmerge
  by_cases hplace : place = before.placeOfRow row
  · subst hplace
    obtain rfl := hknown device hdevice
    obtain ⟨haddress, -, -, -⟩ := TargetDevice.applyRow_eq_ok happly
    obtain ⟨found, target, -, htarget, hsame, hpid⟩ := agreesWithRow_iff.1 hagrees
    refine ⟨updated, hupdated, ?_⟩
    rw [haddress]
    -- The table knows the target at the address of the row by the identifier, too.
    have htargetAt (hzero : row.address ≠ 0) (heq : device.address = row.address) :
        target.matchesPid pid = true := by
      obtain ⟨other, hmem, hother, hotherMatch⟩ := hbacked (heq ▸ hzero)
      obtain ⟨index, hindex⟩ := List.mem_iff_getElem?.1 hmem
      have hplace := htable.eq_of_address hindex htarget (hother ▸ heq ▸ hzero)
        (hother.trans (heq.trans hsame.symm))
      rw [hplace, htarget] at hindex
      exact Option.some.inj hindex ▸ hotherMatch
    cases hzero : row.pid.isZero with
    | true =>
        have hfound := (placeOfRow_eq hdevice).2.resolve_right fun hrow ↦ by
          rw [(TargetDevice.matchesPid_iff.1 hrow).2.1] at hzero
          cases hzero
        rw [TargetDevice.applyRow_matchesPid_of_isZero happly hzero]
        exact ⟨hmatch, fun hnonzero ↦
          ⟨target, List.mem_of_getElem? htarget, hsame, htargetAt hnonzero hfound.1⟩⟩
    | false =>
        have htargetRow := hpid.resolve_left (hzero ▸ Bool.false_ne_true)
        have hrow : row.pid = pid := by
          rcases (placeOfRow_eq hdevice).2 with ⟨heq, hnonzero⟩ | hrow
          · exact pid_eq_of_matchesPid (htargetAt hnonzero heq) htargetRow
          · exact pid_eq_of_matchesPid hmatch hrow
        rw [← hrow]
        exact ⟨TargetDevice.applyRow_matchesPid happly hzero, fun _ ↦
          ⟨target, List.mem_of_getElem? htarget, hsame, htargetRow⟩⟩
  · exact ⟨device, (hothers place hplace).trans hdevice, hmatch, hbacked⟩

/-- Where the table has a row that it agrees with, it has every other that says the same of which
target it is about. -/
theorem positionOfRow_alike (htable : Integrity table.devices) {other : TargetRow}
    (hrow : table.positionOfRow row = some place) (hdevice : table.devices[place]? = some device)
    (haddress : device.address = row.address) (hother : device.address = other.address)
    (haddressable : isUnaddressable other = false)
    (hpid : other.pid.isZero = true ∨ device.matchesPid other.pid = true) :
    table.positionOfRow other = some place := by
  by_cases hzero : device.address = 0
  · have hposition {row : TargetRow} (heq : device.address = row.address) :
        table.positionOfRow row = table.positionOfPid row.pid := by
      rw [positionOfRow, ← heq, hzero, position_zero, Option.none_or]
    rw [hposition haddress] at hrow
    rw [hposition hother]
    obtain ⟨hplace, hmatch⟩ := positionOfPid_eq_some hrow
    obtain rfl := Option.some.inj (hdevice.symm.trans (List.getElem?_eq_getElem hplace))
    -- Without an address there is an identifier, which is that of the first row.
    have hnamed : other.pid.isZero = false := by
      simpa [isUnaddressable, ← hother, hzero, maxTargetAddress] using haddressable
    rw [pid_eq_of_matchesPid hmatch (hpid.resolve_left (hnamed ▸ Bool.false_ne_true))]
    exact hrow
  · rw [positionOfRow, ← hother, position_address htable hdevice hzero, Option.some_or]

/-- A row was merged where the table has it if the target that the table has there was there right
after the merge, and if the table still backs what it backed then. -/
theorem merged_into_place {count : Nat}
    (hmerge : before.mergeRow row = .ok (count, next)) (hnext : Integrity next.devices)
    (hagrees : table.agreesWithRow row = true) (haddressable : isUnaddressable row = false)
    (hrow : table.positionOfRow row = some place)
    {settled : TargetDevice} (hdevice : next.devices[place]? = some device)
    (hsettled : table.devices[place]? = some settled) (hsame : settled.identity = device.identity)
    (hbacks : ∀ pid place, table.Backs next pid place → table.Backs table pid place) :
    ∃ known : TargetDevice, known.applyRow row = .ok device := by
  obtain ⟨known, updated, happly, -, hupdated, hothers⟩ := mergeRow_place hmerge
  suffices hplace : before.placeOfRow row = place by
    rw [hplace, hdevice] at hupdated
    exact ⟨known, Option.some.inj hupdated ▸ happly⟩
  obtain ⟨found, target, hfound, htarget, haddress, -⟩ := agreesWithRow_iff.1 hagrees
  obtain rfl := Option.some.inj (hrow.symm.trans hfound)
  obtain rfl := Option.some.inj (hsettled.symm.trans htarget)
  obtain ⟨hplaced, -, -, -⟩ := TargetDevice.applyRow_eq_ok happly
  have hdeviceAddress : device.address = row.address :=
    (TargetDevice.address_of_identity hsame).symm.trans haddress
  by_cases hzero : row.address = 0
  · have hnamed : row.pid.isZero = false := by
      simpa [isUnaddressable, hzero, maxTargetAddress] using haddressable
    have hposition (table : TargetTable) :
        table.positionOfRow row = table.positionOfPid row.pid := by
      rw [positionOfRow, hzero, position_zero, Option.none_or]
    rw [hposition] at hrow
    obtain ⟨hindex, hmatches, hfirst⟩ := List.findIdx?_eq_some_iff_getElem.1 hrow
    have hmatch : device.matchesPid row.pid = true := by
      rw [← TargetDevice.matchesPid_of_identity hsame]
      exact Option.some.inj ((List.getElem?_eq_getElem hindex).symm.trans hsettled) ▸ hmatches
    rcases Nat.lt_trichotomy (before.placeOfRow row) place with hlt | heq | hgt
    · -- The table would have found the target that the row was merged into.
      obtain ⟨earlier, hearlier, hearlierMatch, -⟩ := hbacks row.pid _ ⟨updated, hupdated,
        TargetDevice.applyRow_matchesPid happly hnamed, absurd (hplaced.trans hzero)⟩
      obtain ⟨hindex, rfl⟩ := List.getElem?_eq_some_iff.1 hearlier
      exact absurd hearlierMatch (hfirst _ hlt)
    · exact heq
    · -- The row would have been merged into the target at the place.
      rw [hothers place (Nat.ne_of_lt hgt)] at hdevice
      obtain ⟨hindex, rfl⟩ := List.getElem?_eq_some_iff.1 hdevice
      unfold placeOfRow at hgt
      rw [hposition] at hgt
      cases hunknown : before.positionOfPid row.pid with
      | none =>
          have hnone := positionOfPid_eq_none_iff.1 hunknown _ (List.getElem_mem hindex)
          rw [hmatch] at hnone
          cases hnone
      | some first =>
          rw [hunknown, Option.getD_some] at hgt
          obtain ⟨_, _, hbeforeFirst⟩ := List.findIdx?_eq_some_iff_getElem.1 hunknown
          exact absurd hmatch (hbeforeFirst _ hgt)
  · exact hnext.eq_of_address hupdated hdevice (hplaced ▸ hzero)
      (hplaced.trans hdeviceAddress.symm)

/-- Where two tables have the same targets, one has a target with the identity of that of the
other. -/
theorem getElem?_of_identity
    (hsame : before.devices.map (·.identity) = table.devices.map (·.identity))
    (hdevice : table.devices[place]? = some device) :
    ∃ other, before.devices[place]? = some other ∧ other.identity = device.identity := by
  have hmap : (before.devices.map (·.identity))[place]? = some device.identity := by
    rw [hsame, List.getElem?_map, hdevice]
    rfl
  rw [List.getElem?_map, Option.map_eq_some_iff] at hmap
  exact hmap

/-- A row is taken over by the target that it is about. -/
theorem mergeRow_of_positionOfRow {updated : TargetDevice}
    (hrow : table.positionOfRow row = some place) (hdevice : table.devices[place]? = some device)
    (happly : device.applyRow row = .ok updated) :
    table.mergeRow row = .ok (0, table.modify place fun _ ↦ updated) := by
  simp only [mergeRow, hrow, hdevice, Option.getD_some, happly, HostResult.ofCodec_ok, bind,
    Except.bind, pure, Except.pure]

/-- Merging rows that a table agrees with into a table with the same targets leaves all as it was,
or as the last row about it has it. -/
theorem mergeRows_agreeing (hagrees : ∀ row ∈ rows, table.agreesWithRow row = true)
    (htypes : ∀ row ∈ rows, ∃ type : TargetType, Coded.ofByte row.type = .ok type)
    (hsame : before.devices.map (·.identity) = table.devices.map (·.identity)) (added : Nat) :
    ∃ devices, before.mergeRows added rows = (.ok added, { before with devices }) ∧
      devices.map (·.identity) = table.devices.map (·.identity) ∧
      ∀ (place : Nat) device, devices[place]? = some device →
        (before.devices[place]? = some device ∧
          ∀ row ∈ rows, table.positionOfRow row ≠ some place) ∨
        ∃ front row later known, rows = front ++ row :: later ∧
          table.positionOfRow row = some place ∧
          (∀ other ∈ later, table.positionOfRow other ≠ some place) ∧
          table.devices[place]? = some known ∧ known.applyRow row = .ok device := by
  induction rows generalizing before with
  | nil => exact ⟨_, rfl, hsame, fun _ _ hdevice ↦ .inl ⟨hdevice, List.forall_mem_nil _⟩⟩
  | cons row rows ih =>
      obtain ⟨hrow, hagrees⟩ := List.forall_mem_cons.1 hagrees
      obtain ⟨⟨type, htype⟩, htypes⟩ := List.forall_mem_cons.1 htypes
      obtain ⟨found, target, hfound, htarget, haddress, hpid⟩ := agreesWithRow_iff.1 hrow
      obtain ⟨known, hknown, hidentity⟩ := getElem?_of_identity hsame htarget
      obtain ⟨updated, hupdated⟩ : ∃ updated, known.applyRow row = .ok updated :=
        ⟨_, TargetDevice.applyRow_eq_ok_iff.2 ⟨type, htype, rfl⟩⟩
      have hmerge := mergeRow_of_positionOfRow ((positionOfRow_of_identity hsame).trans hfound)
        hknown hupdated
      have hkept : updated.identity = known.identity := by
        refine TargetDevice.identity_applyRow hupdated ?_ ?_
        · exact (TargetDevice.address_of_identity hidentity).trans haddress
        · rwa [TargetDevice.matchesPid_of_identity hidentity]
      obtain ⟨devices, hmerged, hdevices, hlast⟩ :=
        ih hagrees htypes (show (before.modify found fun _ ↦ updated).devices.map (·.identity) = _
          from (map_modify hknown hkept).trans hsame)
      refine ⟨devices, ?_, hdevices, fun place device hdevice ↦ ?_⟩
      · rw [mergeRows, hmerge]
        exact hmerged
      rcases hlast place device hdevice with ⟨hunchanged, hnone⟩ | ⟨front, last, later, known,
        rfl, hplace, hlater, hknown, happly⟩
      · by_cases hplace : found = place
        · subst hplace
          have hunchanged : (before.devices.modify found fun _ ↦ updated)[found]? = some device :=
            hunchanged
          rw [List.getElem?_modify_eq, hknown] at hunchanged
          obtain rfl : updated = device := Option.some.inj hunchanged
          exact .inr ⟨[], row, rows, target, rfl, hfound, hnone, htarget,
            TargetDevice.applyRow_of_identity hidentity ▸ hupdated⟩
        · have hunchanged : (before.devices.modify found fun _ ↦ updated)[place]? = some device :=
            hunchanged
          rw [List.getElem?_modify_ne _ _ hplace] at hunchanged
          refine .inl ⟨hunchanged, List.forall_mem_cons.2 ⟨?_, hnone⟩⟩
          rw [hfound]
          exact fun heq ↦ hplace (Option.some.inj heq)
      · exact .inr ⟨row :: front, last, later, known, rfl, hplace, hlater, hknown, happly⟩

/-- Rows that are not refused keep a table intact. -/
theorem integrity_mergeRows {added total : Nat} (h : Integrity table.devices)
    (hrows : ∀ row ∈ rows, isUnaddressable row = false)
    (hmerge : table.mergeRows added rows = (.ok total, next)) : Integrity next.devices := by
  have hkept := mergeRows_preserves (fun table ↦ Integrity table.devices)
    (fun row hrow table count next hbefore hmerge ↦ hbefore.mergeRow
      (by simpa [isUnaddressable] using (Bool.or_eq_false_iff.1 (hrows row hrow)).1) hmerge) added h
  rwa [hmerge] at hkept

/-- Rows that a table agrees with leave a target of another table backed by it. -/
theorem Backs.mergeRows {added total : Nat} (htable : Integrity table.devices)
    (hagrees : ∀ row ∈ rows, table.agreesWithRow row = true)
    (hmerge : before.mergeRows added rows = (.ok total, next)) (h : table.Backs before pid place) :
    table.Backs next pid place := by
  have hkept := mergeRows_preserves (fun before ↦ table.Backs before pid place)
    (fun row hrow _ _ _ hbefore hmerge ↦ hbefore.mergeRow htable (hagrees row hrow) hmerge) added h
  rwa [hmerge] at hkept

/-- A configuration leaves a target backed. -/
theorem Backs.configured (config : TargetConfig) (maxIbiPayload : UInt32)
    (h : table.Backs before pid place) :
    table.Backs (before.configured config maxIbiPayload) pid place := by
  obtain ⟨device, hdevice, hmatch, hbacked⟩ := h
  have hsame := device.identity_configured config maxIbiPayload
  refine ⟨device.configured config maxIbiPayload, ?_, ?_⟩
  · show (before.devices.map _)[place]? = _
    rw [List.getElem?_map, hdevice]
    rfl
  · rw [TargetDevice.matchesPid_of_identity hsame, TargetDevice.address_of_identity hsame]
    exact ⟨hmatch, hbacked⟩

/-- A row that was merged into a target where the table has it agrees with where the table has
it. -/
theorem positionOfRow_merged (htable : Integrity table.devices) {other : TargetRow}
    (hrow : table.positionOfRow row = some place) (hagrees : table.agreesWithRow row = true)
    (hdevice : table.devices[place]? = some device) {merged known : TargetDevice}
    (hsame : device.identity = merged.identity) (happly : known.applyRow other = .ok merged)
    (haddressable : isUnaddressable other = false) : table.positionOfRow other = some place := by
  obtain ⟨found, target, hfound, htarget, haddress, -⟩ := agreesWithRow_iff.1 hagrees
  obtain rfl := Option.some.inj (hrow.symm.trans hfound)
  obtain rfl := Option.some.inj (hdevice.symm.trans htarget)
  obtain ⟨hmerged, -, -, -⟩ := TargetDevice.applyRow_eq_ok happly
  refine positionOfRow_alike htable hrow hdevice haddress
    ((TargetDevice.address_of_identity hsame).trans hmerged) haddressable ?_
  rw [TargetDevice.matchesPid_of_identity hsame]
  cases hzero : other.pid.isZero with
  | true => exact .inl rfl
  | false => exact .inr (TargetDevice.applyRow_matchesPid happly hzero)

/-- When rows have been merged, a target where the table has one of them is as that row has it,
unless the table has a later row at the same place. -/
theorem last_row_merged (htable : Integrity table.devices) (hbefore : Integrity before.devices)
    {front later : List TargetRow} {added total : Nat}
    (hmerge : before.mergeRows added (front ++ row :: later) = (.ok total, next))
    (haddressable : ∀ other ∈ front ++ row :: later, isUnaddressable other = false)
    (hagrees : ∀ other ∈ front ++ row :: later, table.agreesWithRow other = true)
    (hrow : table.positionOfRow row = some place)
    (hlater : ∀ other ∈ later, table.positionOfRow other ≠ some place)
    {settled : TargetDevice} (hdevice : next.devices[place]? = some device)
    (hsettled : table.devices[place]? = some settled) (hsame : settled.identity = device.identity)
    (hbacks : ∀ pid place, table.Backs next pid place → table.Backs table pid place) :
    ∃ known : TargetDevice, known.applyRow row = .ok device := by
  obtain ⟨count, reached, hfront, hrest⟩ := mergeRows_append_eq_ok hmerge
  obtain ⟨more, merged, hmerged, hrest⟩ := mergeRows_cons_eq_ok hrest
  obtain ⟨haddressableFront, haddressable⟩ := List.forall_mem_append.1 haddressable
  obtain ⟨haddressableRow, haddressable⟩ := List.forall_mem_cons.1 haddressable
  obtain ⟨-, hagrees⟩ := List.forall_mem_append.1 hagrees
  obtain ⟨hagreesRow, hagrees⟩ := List.forall_mem_cons.1 hagrees
  have hreached := integrity_mergeRows hbefore haddressableFront hfront
  have hintegrity : Integrity merged.devices := hreached.mergeRow
    (by simpa [isUnaddressable] using (Bool.or_eq_false_iff.1 haddressableRow).1) hmerged
  rcases unchanged_or_merged hrest hdevice with hunchanged | ⟨other, hother, known, happly⟩
  · exact merged_into_place hmerged hintegrity hagreesRow haddressableRow hrow hunchanged hsettled
      hsame fun pid place hbacked ↦ hbacks pid place (hbacked.mergeRows htable hagrees hrest)
  · exact absurd (positionOfRow_merged htable hrow hagreesRow hsettled hsame happly
      (haddressable other hother)) (hlater other hother)

/-- Merging a listing, configuring the targets that have an address and merging another listing
leaves a table that came of this as it was, if the table agrees with every row of both. -/
theorem remerge {first listed : TargetTable} {rerows : List TargetRow} {config : TargetConfig}
    {maxIbiPayload : UInt32} {added readded : Nat} (hfirst : Integrity first.devices)
    (haddressable : ∀ row ∈ rows ++ rerows, isUnaddressable row = false)
    (htypes : ∀ row ∈ rows ++ rerows, ∃ type : TargetType, Coded.ofByte row.type = .ok type)
    (hmerge : first.mergeRows 0 rows = (.ok added, listed))
    (hremerge : (listed.configured config maxIbiPayload).mergeRows 0 rerows = (.ok readded, table))
    (hagrees : ∀ row ∈ rows ++ rerows, table.agreesWithRow row = true) :
    ∃ again, table.mergeRows 0 rows = (.ok 0, again) ∧
      (again.configured config maxIbiPayload).mergeRows 0 rerows = (.ok 0, table) := by
  obtain ⟨haddressableRows, haddressableRerows⟩ := List.forall_mem_append.1 haddressable
  obtain ⟨htypesRows, htypesRerows⟩ := List.forall_mem_append.1 htypes
  obtain ⟨hagreesRows, hagreesRerows⟩ := List.forall_mem_append.1 hagrees
  have hlisted := integrity_mergeRows hfirst haddressableRows hmerge
  have hconfigured := hlisted.configured config maxIbiPayload
  have htable := integrity_mergeRows hconfigured haddressableRerows hremerge
  obtain ⟨merged, hmerged, hmergedSame, hmergedLast⟩ :=
    mergeRows_agreeing hagreesRows htypesRows (rfl : table.devices.map (·.identity) = _) 0
  have hconfiguredSame : (({ table with devices := merged } : TargetTable).configured config
      maxIbiPayload).devices.map (·.identity) = table.devices.map (·.identity) := by
    rw [← hmergedSame]
    show (merged.map _).map _ = _
    rw [List.map_map]
    exact List.map_congr_left fun device _ ↦ device.identity_configured config maxIbiPayload
  obtain ⟨remerged, hremerged, hremergedSame, hremergedLast⟩ :=
    mergeRows_agreeing hagreesRerows htypesRerows hconfiguredSame 0
  refine ⟨_, hmerged, ?_⟩
  suffices hsame : remerged = table.devices by
    rw [hremerged, hsame]
    rfl
  refine List.ext_getElem ?_ fun place hplace hplace' ↦ ?_
  · simpa using congrArg List.length hremergedSame
  have hsettled : table.devices[place]? = some table.devices[place] :=
    List.getElem?_eq_getElem hplace'
  generalize table.devices[place] = settled at hsettled ⊢
  have hdevice : remerged[place]? = some remerged[place] := List.getElem?_eq_getElem hplace
  generalize remerged[place] = device at hdevice ⊢
  -- The first time, a target was as it had been configured unless it was merged into later.
  have hconfiguredAt {place : Nat} {device : TargetDevice}
      (hdevice : table.devices[place]? = some device) :
      (∃ first, listed.devices[place]? = some first ∧
          first.configured config maxIbiPayload = device) ∨
        ∃ row ∈ rerows, ∃ known : TargetDevice, known.applyRow row = .ok device := by
    rcases unchanged_or_merged hremerge hdevice with hunchanged | hmerged
    · rw [configured, List.getElem?_map, Option.map_eq_some_iff] at hunchanged
      exact .inl hunchanged
    · exact .inr hmerged
  -- The last row that the table has at the place decides what is known of the target there.
  rcases hremergedLast place device hdevice with
    ⟨hunchanged, hnone⟩ | ⟨front, row, later, known, rfl, hrow, hlater, hknown, happly⟩
  · rw [configured, List.getElem?_map, Option.map_eq_some_iff] at hunchanged
    obtain ⟨other, hother, rfl⟩ := hunchanged
    rcases hmergedLast place other hother with
      ⟨hunchanged, hnoneBefore⟩ | ⟨front, row, later, known, rfl, hrow, hlater, hknown, happly⟩
    · obtain rfl := Option.some.inj (hsettled.symm.trans hunchanged)
      by_cases hzero : settled.address = 0
      · exact if_pos hzero
      · have hunmerged := (hconfiguredAt hsettled).resolve_right fun ⟨row, hrow, known, happly⟩ ↦ by
          obtain ⟨haddress, -⟩ := TargetDevice.applyRow_eq_ok happly
          refine hnone row hrow ?_
          rw [positionOfRow, ← haddress, position_address htable hsettled hzero, Option.some_or]
        obtain ⟨before, -, rfl⟩ := hunmerged
        exact TargetDevice.configured_configured config maxIbiPayload
    · obtain rfl := Option.some.inj (hsettled.symm.trans hknown)
      have hunmerged := (hconfiguredAt hsettled).resolve_right fun ⟨other, hother, known, happly⟩ ↦
        hnone other hother (positionOfRow_merged htable hrow
          (hagreesRows row (List.mem_append_right front List.mem_cons_self)) hsettled rfl happly
          (haddressableRerows other hother))
      obtain ⟨before, hbefore, rfl⟩ := hunmerged
      have hsame := before.identity_configured config maxIbiPayload
      obtain ⟨known, hmergedFirst⟩ := last_row_merged htable hfirst hmerge haddressableRows
        hagreesRows hrow hlater hbefore hsettled hsame fun _ _ hbacked ↦
          (hbacked.configured config maxIbiPayload).mergeRows htable hagreesRerows hremerge
      rw [Except.ok.inj (happly.symm.trans (TargetDevice.applyRow_again hmergedFirst hsame))]
  · obtain rfl := Option.some.inj (hsettled.symm.trans hknown)
    obtain ⟨first, hfirst⟩ := last_row_merged htable hconfigured hremerge haddressableRerows
      hagreesRerows hrow hlater hsettled hsettled rfl fun _ _ ↦ id
    exact Except.ok.inj (happly.symm.trans (TargetDevice.applyRow_again hfirst rfl))

/-- Whether the target that an entry is about is in the table, and the entry says of it what is
known already. -/
def agreesWithEntry (table : TargetTable) (entry : CapabilityEntry) : Bool :=
  ((table.positionOfEntry entry).bind (table.devices[·]?)).any fun device ↦
    device.applyCapabilityEntry entry == device

/-- Merging entries that a table agrees with changes nothing. -/
theorem mergeEntries_agreeing {entries : List CapabilityEntry}
    (h : ∀ entry ∈ entries, table.agreesWithEntry entry = true) (added : Nat) :
    table.mergeEntries added entries = (.ok added, table) := by
  induction entries with
  | nil => rfl
  | cons entry entries ih =>
      obtain ⟨hentry, hentries⟩ := List.forall_mem_cons.1 h
      simp only [agreesWithEntry, Option.any_eq_true, Option.bind_eq_some_iff, beq_iff_eq] at hentry
      obtain ⟨device, ⟨place, hplace, hdevice⟩, hsame⟩ := hentry
      rw [mergeEntries, mergeEntry, hplace]
      show (table.modify place (·.applyCapabilityEntry entry)).mergeEntries added entries = _
      rw [modify_eq_self hdevice hsame, ih hentries]

end TargetTable

end I3cHost
