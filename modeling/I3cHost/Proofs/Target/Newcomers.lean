import Mathlib.Data.List.Perm.Basic
import I3cHost.Proofs.Target.Identifiers

/-!
# Which targets a listing announces

A listener is to hear of the targets that join the bus, once each. What it does hear of are the rows
for which a target is inserted, and whether one is inserted depends on what the rows in front have
made of the table. A target that is known already, but has no address, is not inserted when it gets
one. Neither is a target at the address of another one, which it overwrites; and the overwritten one
is inserted when its own row follows, although it has been there before. `announced_iff` says that
the targets are announced that had no address before, and no others, exactly if nothing of this
happens.
-/

namespace I3cHost

/-- Whether a target is the one that a row is about. It is known by the identifier of the row; or it
is at the address of the row, not both have an identifier, and no row has that of the target. -/
def TargetDevice.isOf (device : TargetDevice) (rows : List TargetRow) (row : TargetRow) : Bool :=
  device.matchesPid row.pid || (device.address == row.address &&
    !(device.validPid && !row.pid.isZero) && rows.all fun other ↦ !device.matchesPid other.pid)

namespace TargetTable

/-- Whether the target of a row has an address now and had none before. -/
def isNewcomer (table : TargetTable) (rows : List TargetRow) (row : TargetRow) : Bool :=
  row.address != 0 && table.devices.all fun device ↦ device.address == 0 || !device.isOf rows row

/-- The addresses of the targets of a listing that had none before. -/
def newcomers (table : TargetTable) (rows : List TargetRow) : List UInt8 :=
  (rows.filter (table.isNewcomer rows)).map (·.address)

/-- After the rows in front of a row it is apparent whether its target is a newcomer. -/
structure Recognized (table : TargetTable) (rows front : List TargetRow) (row : TargetRow) :
    Prop where
  /-- A newcomer is at an address that is not in use, and was not known without an address. -/
  newcomer : table.isNewcomer rows row = true →
    row.address ∉ (table.mergeRows 0 front).2.addresses ∧
      ∀ device ∈ table.devices, device.matchesPid row.pid = false
  /-- A target that had an address has not been renamed, unless its new address is in use. -/
  resident : ∀ device ∈ table.devices, device.address ≠ 0 → device.matchesPid row.pid = true →
    row.address ∈ (table.mergeRows 0 front).2.addresses ∨
      ∃ known ∈ table.devices, known.matchesPid row.pid = true ∧ ¬ Renames front known.address

instance (table : TargetTable) (rows front : List TargetRow) (row : TargetRow) :
    Decidable (table.Recognized rows front row) :=
  decidable_of_iff (_ ∧ _) ⟨fun h ↦ ⟨h.1, h.2⟩, fun h ↦ ⟨h.newcomer, h.resident⟩⟩

variable {table next reached : TargetTable} {row : TargetRow} {rows front later : List TargetRow}
  {device : TargetDevice} {pid : ProvisionedId} {address : UInt8} {listener : String}
  {added count total : Nat}

/-- Only a row without an identifier leaves a target known by another identifier than its own. -/
theorem isZero_of_matchesPid {known updated : TargetDevice}
    (happly : known.applyRow row = .ok updated) (hmatch : updated.matchesPid pid = true)
    (hother : row.pid ≠ pid) : row.pid.isZero = true := by
  by_contra hrow
  have hrow := TargetDevice.applyRow_matchesPid happly (Bool.eq_false_iff.2 hrow)
  exact hother ((TargetDevice.matchesPid_iff.1 hrow).2.2.symm.trans
    (TargetDevice.matchesPid_iff.1 hmatch).2.2)

/-- A target that is known by an identifier which a row does not have was known by it before, and is
not renamed by the row. -/
theorem known_before_mergeRow (hintegrity : Integrity table.devices)
    (hdevice : device ∈ next.devices) (hmatch : device.matchesPid pid = true)
    (hother : row.pid ≠ pid) (hmerge : table.mergeRow row = .ok (count, next)) :
    ∃ known ∈ table.devices, known.address = device.address ∧ known.matchesPid pid = true ∧
      ¬ Renames [row] known.address := by
  rcases mergeRow_eq_ok hmerge with
    ⟨index, updated, hindex, hfound, happly, rfl⟩ | ⟨hfree, -, new, happly, hinsert⟩
  · obtain ⟨place, hplace, rfl⟩ := List.getElem_of_mem hdevice
    have hplace' : place < table.devices.length := by simpa [modify] using hplace
    simp only [modify, List.getElem_modify] at hmatch ⊢
    split at hmatch
    next hsame =>
      subst hsame
      have hnone := isZero_of_matchesPid happly hmatch hother
      rw [if_pos rfl]
      -- The row was taken over because of its address.
      obtain ⟨haddress, -⟩ := hfound.resolve_right fun hpid ↦ by
        rw [(TargetDevice.matchesPid_iff.1 hpid.2).2.1] at hnone
        cases hnone
      exact ⟨_, List.getElem_mem hindex, haddress.trans (TargetDevice.applyRow_eq_ok happly).1.symm,
        TargetDevice.applyRow_matchesPid_of_isZero happly hnone ▸ hmatch,
        not_renames_of_isZero hnone⟩
    next hne =>
      rw [if_neg hne]
      refine ⟨_, List.getElem_mem hplace', rfl, hmatch, ?_⟩
      rcases hfound with ⟨haddress, hnonzero⟩ | ⟨hfree, -⟩
      · refine not_renames_of_ne fun heq ↦ ?_
        exact hintegrity.address_ne hindex hplace' hne (haddress ▸ hnonzero)
          (haddress.trans heq.symm)
      · exact not_renames_of_free hfree (List.getElem_mem hplace')
  · obtain ⟨-, -, -, rfl⟩ := insert_eq_ok_iff.1 hinsert
    rw [announce_devices] at hdevice
    rcases List.mem_append.1 hdevice with hknown | hnew
    · exact ⟨device, hknown, rfl, hmatch, not_renames_of_free hfree hknown⟩
    · obtain rfl := List.mem_singleton.1 hnew
      have hnone := isZero_of_matchesPid happly hmatch hother
      rw [TargetDevice.applyRow_matchesPid_of_isZero happly hnone] at hmatch
      exact absurd (TargetDevice.matchesPid_iff.1 hmatch).1 Bool.false_ne_true

/-- A target whose identifier no row has was there before, and was not renamed. -/
theorem known_before_mergeRows (hintegrity : Integrity table.devices)
    (haddressable : ∀ row ∈ rows, isUnaddressable row = false)
    (hdevice : device ∈ next.devices) (hmatch : device.matchesPid pid = true)
    (hother : ∀ row ∈ rows, row.pid ≠ pid)
    (hmerge : table.mergeRows added rows = (.ok total, next)) :
    ∃ known ∈ table.devices, known.address = device.address ∧ known.matchesPid pid = true ∧
      ¬ Renames rows known.address := by
  induction rows generalizing table added with
  | nil =>
      obtain rfl : table = next := congrArg Prod.snd hmerge
      exact ⟨device, hdevice, rfl, hmatch, not_renames_nil⟩
  | cons row rows ih =>
      obtain ⟨count, merged, hrow, hmerge⟩ := mergeRows_cons_eq_ok hmerge
      obtain ⟨haddress, haddressable⟩ := List.forall_mem_cons.1 haddressable
      obtain ⟨hfirst, hother⟩ := List.forall_mem_cons.1 hother
      have hrange : row.address ≤ maxTargetAddress := by
        simpa [isUnaddressable] using (Bool.or_eq_false_iff.1 haddress).1
      obtain ⟨kept, hkept, hsame, hmatch, hrest⟩ :=
        ih (hintegrity.mergeRow hrange hrow) haddressable hother hmerge
      obtain ⟨known, hknown, hbefore, hmatch, hrenames⟩ :=
        known_before_mergeRow hintegrity hkept hmatch hfirst hrow
      rw [← hbefore] at hsame hrest
      exact ⟨known, hknown, hsame, hmatch, fun h ↦ (renames_cons.1 h).elim hrenames hrest⟩

/-- As long as an identifier is not listed, it is that of the targets that had it and are not
renamed. -/
theorem exists_known_mergeRows_iff (hintegrity : Integrity table.devices)
    (haddressable : ∀ row ∈ rows, isUnaddressable row = false)
    (hother : ∀ row ∈ rows, row.pid ≠ pid)
    (hmerge : table.mergeRows added rows = (.ok total, next)) :
    (∃ device ∈ next.devices, device.matchesPid pid = true) ↔
      ∃ known ∈ table.devices, known.matchesPid pid = true ∧ ¬ Renames rows known.address := by
  constructor
  · rintro ⟨device, hdevice, hmatch⟩
    obtain ⟨known, hknown, -, hmatch, hkept⟩ :=
      known_before_mergeRows hintegrity haddressable hdevice hmatch hother hmerge
    exact ⟨known, hknown, hmatch, hkept⟩
  · rintro ⟨known, hknown, hmatch, hkept⟩
    obtain ⟨device, hdevice, -, hmatch⟩ := kept_mergeRows hknown hmatch hkept hother hmerge
    exact ⟨device, hdevice, hmatch⟩

/-- A target whose address and identifier are not listed stays as it is. -/
theorem mem_mergeRows_of_unlisted (hdevice : device ∈ table.devices)
    (haddress : ∀ row ∈ rows, row.address ≠ device.address)
    (hpid : ∀ row ∈ rows, device.matchesPid row.pid = false)
    (hmerge : table.mergeRows added rows = (.ok total, next)) : device ∈ next.devices := by
  induction rows generalizing table added with
  | nil =>
      obtain rfl : table = next := congrArg Prod.snd hmerge
      exact hdevice
  | cons row rows ih =>
      obtain ⟨count, merged, hrow, hmerge⟩ := mergeRows_cons_eq_ok hmerge
      obtain ⟨hfirst, haddress⟩ := List.forall_mem_cons.1 haddress
      obtain ⟨hunlisted, hpid⟩ := List.forall_mem_cons.1 hpid
      refine ih ?_ haddress hpid hmerge
      rcases mergeRow_eq_ok hrow with
        ⟨index, updated, hindex, hfound, -, rfl⟩ | ⟨-, -, new, -, hinsert⟩
      · obtain ⟨place, hplace, rfl⟩ := List.getElem_of_mem hdevice
        refine mem_modify_of_ne hplace ?_
        rintro rfl
        rcases hfound with ⟨hsame, -⟩ | ⟨-, hmatch⟩
        · exact hfirst hsame.symm
        · exact absurd (hunlisted.symm.trans hmatch) Bool.false_ne_true
      · obtain ⟨-, -, -, rfl⟩ := insert_eq_ok_iff.1 hinsert
        simp [hdevice]

/-- A newcomer is one that no target with an address is. -/
theorem isNewcomer_iff (hzero : row.address ≠ 0) : table.isNewcomer rows row = true ↔
    ∀ device ∈ table.devices, device.address ≠ 0 → device.isOf rows row = false := by
  simp [isNewcomer, hzero, or_iff_not_imp_left]

/-- After the rows in front a row inserts a target if its address is not in use and every target
that was known by its identifier has been renamed. -/
theorem positionOfRow_mergeRows_iff (hintegrity : Integrity table.devices)
    (hrows : Unambiguous (front ++ row :: later))
    (haddressable : ∀ row ∈ front, isUnaddressable row = false)
    (hfront : table.mergeRows 0 front = (.ok count, reached)) :
    reached.positionOfRow row = none ↔ row.address ∉ reached.addresses ∧
      ∀ known ∈ table.devices, known.matchesPid row.pid = true → Renames front known.address := by
  rw [positionOfRow_eq_none_iff]
  refine and_congr_right fun _ ↦ ?_
  cases hrow : row.pid.isZero with
  | true => simp [TargetDevice.matchesPid, hrow]
  | false =>
      have hother : ∀ earlier ∈ front, earlier.pid ≠ row.pid := fun earlier hearlier heq ↦
        (List.pairwise_append.1 hrows.pids).2.2 earlier hearlier row List.mem_cons_self
          (heq ▸ hrow) heq
      simpa using not_congr (exists_known_mergeRows_iff hintegrity haddressable hother hfront)

/-- If a target is the one of a row without being known by its identifier, the address of the row is
in use. -/
theorem occupied_of_isOf (hrows : Unambiguous (front ++ row :: later)) (hzero : row.address ≠ 0)
    (hfront : table.mergeRows 0 front = (.ok count, reached)) (hdevice : device ∈ table.devices)
    (hunknown : device.matchesPid row.pid = false)
    (hof : device.isOf (front ++ row :: later) row = true) : row.address ∈ reached.addresses := by
  simp only [TargetDevice.isOf, hunknown, Bool.false_or, Bool.and_eq_true, beq_iff_eq,
    List.all_eq_true, Bool.not_eq_true'] at hof
  obtain ⟨⟨haddress, -⟩, hunlisted⟩ := hof
  refine mem_addresses_iff.2 ⟨hzero, device, mem_mergeRows_of_unlisted hdevice
    (fun earlier hearlier heq ↦ ?_)
    (fun earlier hearlier ↦ hunlisted earlier (List.mem_append_left _ hearlier)) hfront, haddress⟩
  have hsame := heq.trans haddress
  exact (List.pairwise_append.1 hrows.addresses).2.2 earlier hearlier row List.mem_cons_self
    (hsame ▸ hzero) hsame

/-- The target of a row is recognized exactly if one is inserted for a newcomer and for no other. -/
theorem recognized_iff (hintegrity : Integrity table.devices) (hrows : Unambiguous rows)
    (hsplit : rows = front ++ row :: later)
    (haddressable : ∀ row ∈ front, isUnaddressable row = false) (hzero : row.address ≠ 0)
    (hfront : table.mergeRows 0 front = (.ok count, reached)) :
    table.Recognized rows front row ↔
      (reached.positionOfRow row = none ↔ table.isNewcomer rows row = true) := by
  subst hsplit
  obtain rfl : (table.mergeRows 0 front).2 = reached := congrArg Prod.snd hfront
  rw [positionOfRow_mergeRows_iff hintegrity hrows haddressable hfront]
  have hisOf {device : TargetDevice} (hmatch : device.matchesPid row.pid = true) :
      device.isOf (front ++ row :: later) row = true := by
    rw [TargetDevice.isOf, hmatch, Bool.true_or]
  constructor
  · intro h
    refine ⟨fun ⟨hfree, hrenamed⟩ ↦ ?_, fun hnew ↦ ?_⟩
    · refine (isNewcomer_iff hzero).2 fun device hdevice haddress ↦ ?_
      rw [← Bool.not_eq_true]
      intro hof
      cases hmatch : device.matchesPid row.pid with
      | false => exact hfree (occupied_of_isOf hrows hzero hfront hdevice hmatch hof)
      | true =>
          rcases h.resident device hdevice haddress hmatch with
            hused | ⟨known, hknown, hsame, hkept⟩
          · exact hfree hused
          · exact hkept (hrenamed known hknown hsame)
    · obtain ⟨hfree, hunknown⟩ := h.newcomer hnew
      refine ⟨hfree, fun known hknown hmatch ↦ ?_⟩
      exact absurd ((hunknown known hknown).symm.trans hmatch) Bool.false_ne_true
  · intro h
    refine ⟨fun hnew ↦ ?_, fun device hdevice haddress hmatch ↦ ?_⟩
    · obtain ⟨hfree, hrenamed⟩ := h.2 hnew
      refine ⟨hfree, fun device hdevice ↦ ?_⟩
      rw [← Bool.not_eq_true]
      intro hmatch
      -- A target that was known by the identifier had no address, so no row has renamed it.
      have hunlike := (isNewcomer_iff hzero).1 hnew device hdevice
        (hrenamed device hdevice hmatch).1
      exact absurd (hunlike.symm.trans (hisOf hmatch)) Bool.false_ne_true
    · by_contra hnot
      obtain ⟨hfree, hkept⟩ := not_or.1 hnot
      have hnew := h.1 ⟨hfree, fun known hknown hsame ↦
        Classical.byContradiction fun hstays ↦ hkept ⟨known, hknown, hsame, hstays⟩⟩
      have hunlike := (isNewcomer_iff hzero).1 hnew device hdevice haddress
      exact absurd (hunlike.symm.trans (hisOf hmatch)) Bool.false_ne_true

/-- The first row has its turn before all others, and the others after it. -/
theorem exists_turn_cons {P : List TargetRow → TargetRow → Prop} :
    (∃ (turn : Nat) (hturn : turn < (row :: rows).length),
        P ((row :: rows).take turn) (row :: rows)[turn]) ↔
      P [] row ∨ ∃ (turn : Nat) (hturn : turn < rows.length),
        P (row :: rows.take turn) rows[turn] := by
  constructor
  · rintro ⟨turn, hturn, h⟩
    cases turn with
    | zero => exact .inl h
    | succ turn => exact .inr ⟨turn, Nat.lt_of_succ_lt_succ hturn, h⟩
  · rintro (h | ⟨turn, hturn, h⟩)
    · exact ⟨0, Nat.zero_lt_succ _, h⟩
    · exact ⟨turn + 1, Nat.succ_lt_succ hturn, h⟩

/-- What rows announce are the addresses of those that insert a target, in their order. -/
theorem arrivals_mergeRows (henabled : table.eventsEnabled = true)
    (hlistener : table.listener = some listener)
    (hmerge : table.mergeRows added rows = (.ok total, next)) :
    ∃ told : List UInt8,
      next.arrivals = table.arrivals ++ (told.map (Arrival.mk listener)).toArray ∧
      told.Sublist ((rows.map (·.address)).filter (· ≠ 0)) ∧
      ∀ address, address ∈ told ↔ ∃ (turn : Nat) (hturn : turn < rows.length),
        rows[turn].address = address ∧ address ≠ 0 ∧
          (table.mergeRows added (rows.take turn)).2.positionOfRow rows[turn] = none := by
  induction rows generalizing table added with
  | nil =>
      obtain rfl : table = next := congrArg Prod.snd hmerge
      exact ⟨[], by simp, List.Sublist.refl _, by simp⟩
  | cons row rows ih =>
      obtain ⟨count, merged, hrow, hmerge⟩ := mergeRows_cons_eq_ok hmerge
      obtain ⟨hevents, hsame, harrivals⟩ := arrivals_mergeRow hrow
      obtain ⟨told, htold, hsublist, hmem⟩ :=
        ih (hevents.trans henabled) (hsame.trans hlistener) hmerge
      specialize harrivals listener henabled hlistener
      have hrest (turn : Nat) : table.mergeRows added (row :: rows.take turn) =
          merged.mergeRows (added + count) (rows.take turn) := by
        rw [mergeRows, hrow]
      have hsplit (address : UInt8) : (∃ (turn : Nat) (hturn : turn < (row :: rows).length),
          (row :: rows)[turn].address = address ∧ address ≠ 0 ∧
            (table.mergeRows added ((row :: rows).take turn)).2.positionOfRow (row :: rows)[turn] =
              none) ↔
          (row.address = address ∧ address ≠ 0 ∧ table.positionOfRow row = none) ∨
            address ∈ told := by
        rw [exists_turn_cons (P := fun front row ↦ row.address = address ∧ address ≠ 0 ∧
          (table.mergeRows added front).2.positionOfRow row = none), hmem]
        simp only [hrest]
        rfl
      by_cases hinserts : table.positionOfRow row = none ∧ row.address ≠ 0
      · rw [if_pos hinserts] at harrivals
        refine ⟨row.address :: told, ?_, ?_, fun address ↦ ?_⟩
        · simp [htold, harrivals]
        · simpa [hinserts.2] using hsublist
        · rw [hsplit, List.mem_cons]
          refine or_congr_left ⟨?_, ?_⟩
          · rintro rfl
            exact ⟨rfl, hinserts.2, hinserts.1⟩
          · exact fun h ↦ h.1.symm
      · rw [if_neg hinserts] at harrivals
        refine ⟨told, ?_, ?_, fun address ↦ ?_⟩
        · simp [htold, harrivals]
        · rw [List.map_cons, List.filter_cons]
          split
          · exact hsublist.cons _
          · exact hsublist
        · rw [hsplit]
          refine (or_iff_right ?_).symm
          rintro ⟨rfl, hzero, hnone⟩
          exact hinserts ⟨hnone, hzero⟩

/-- Rows with the same address are the same. -/
theorem Unambiguous.eq_of_address (h : Unambiguous rows) {turn place : Nat}
    (hturn : turn < rows.length) (hplace : place < rows.length) (hzero : rows[turn].address ≠ 0)
    (hsame : rows[turn].address = rows[place].address) : turn = place := by
  by_contra hne
  refine related_of_pairwise (fun first second hne ↦ ?_) h.addresses hturn hplace hne hzero hsame
  exact fun hzero heq ↦ hne (heq ▸ hzero) heq.symm

/-- No address is listed twice, unless it is zero. -/
theorem Unambiguous.nodup_addresses (h : Unambiguous rows) :
    ((rows.map (·.address)).filter (· ≠ 0)).Nodup := by
  rw [List.Nodup, List.pairwise_filter, List.pairwise_map]
  exact h.addresses.imp fun hne hzero _ ↦ hne (by simpa using hzero)

/-- A newcomer has an address. -/
theorem ne_zero_of_isNewcomer (h : table.isNewcomer rows row = true) : row.address ≠ 0 := by
  simpa using (Bool.and_eq_true_iff.1 h).1

/-- No newcomer is announced twice. -/
theorem Unambiguous.nodup_newcomers (h : Unambiguous rows) : (table.newcomers rows).Nodup := by
  rw [newcomers, List.Nodup, List.pairwise_map, List.pairwise_filter]
  exact h.addresses.imp fun hne hfirst _ ↦ hne (ne_zero_of_isNewcomer hfirst)

/-- The address of a newcomer is that of one of the rows. -/
theorem exists_of_mem_newcomers (h : address ∈ table.newcomers rows) :
    ∃ (turn : Nat) (hturn : turn < rows.length),
      rows[turn].address = address ∧ address ≠ 0 := by
  obtain ⟨row, hmem, rfl⟩ := List.mem_map.1 h
  obtain ⟨hrow, hnew⟩ := List.mem_filter.1 hmem
  obtain ⟨turn, hturn, rfl⟩ := List.getElem_of_mem hrow
  exact ⟨turn, hturn, rfl, ne_zero_of_isNewcomer hnew⟩

/-- The address of a row is that of a newcomer if the target of the row is one. -/
theorem Unambiguous.mem_newcomers_iff (h : Unambiguous rows) {turn : Nat}
    (hturn : turn < rows.length) (hzero : rows[turn].address ≠ 0) :
    rows[turn].address ∈ table.newcomers rows ↔ table.isNewcomer rows rows[turn] = true := by
  simp only [newcomers, List.mem_map, List.mem_filter]
  constructor
  · rintro ⟨row, ⟨hrow, hnew⟩, hsame⟩
    obtain ⟨place, hplace, rfl⟩ := List.getElem_of_mem hrow
    obtain rfl := h.eq_of_address hturn hplace hzero hsame.symm
    exact hnew
  · exact fun hnew ↦ ⟨_, ⟨List.getElem_mem hturn, hnew⟩, rfl⟩

/-- In every table that operations lead to, with events enabled and a listener registered, let a
listing be merged in which no address and no identifier is listed twice. The listener is told the
addresses of the targets that had none before, once each, and no others, exactly if for every row
with an address it is recognized whether its target is one of them. -/
theorem announced_iff {history : List TableOperation} {buffer : Bytes} {listing : TargetListing}
    (henabled : (TableOperation.run history).eventsEnabled = true)
    (hlistener : (TableOperation.run history).listener = some listener)
    (hdecode : TargetListing.decode buffer = .ok listing) (hrows : Unambiguous listing.rows)
    (hmerge : (TableOperation.run history).mergeListing buffer = (.ok added, next)) :
    ∃ told : List UInt8,
      next.arrivals =
        (TableOperation.run history).arrivals ++ (told.map (Arrival.mk listener)).toArray ∧
      (told.Perm ((TableOperation.run history).newcomers listing.rows) ↔
        ∀ (turn : Nat) (hturn : turn < listing.rows.length), listing.rows[turn].address ≠ 0 →
          (TableOperation.run history).Recognized listing.rows (listing.rows.take turn)
            listing.rows[turn]) := by
  have hintegrity : Integrity (TableOperation.run history).devices := Integrity.nil.applyAll history
  obtain ⟨haddressable, hmerge⟩ := mergeListing_eq_ok hdecode hmerge
  generalize TableOperation.run history = table at *
  generalize listing.rows = rows at *
  obtain ⟨told, htold, hsublist, hmem⟩ := arrivals_mergeRows henabled hlistener hmerge
  refine ⟨told, htold, ?_⟩
  have hinserts {turn : Nat} (hturn : turn < rows.length) (hzero : rows[turn].address ≠ 0) :
      rows[turn].address ∈ told ↔
        (table.mergeRows 0 (rows.take turn)).2.positionOfRow rows[turn] = none := by
    rw [hmem]
    constructor
    · rintro ⟨place, hplace, hsame, -, hnone⟩
      obtain rfl := hrows.eq_of_address hturn hplace hzero hsame.symm
      exact hnone
    · exact fun hnone ↦ ⟨turn, hturn, rfl, hzero, hnone⟩
  have hrecognized {turn : Nat} (hturn : turn < rows.length) (hzero : rows[turn].address ≠ 0) :
      table.Recognized rows (rows.take turn) rows[turn] ↔
        (rows[turn].address ∈ told ↔ rows[turn].address ∈ table.newcomers rows) := by
    have hsplit : rows = rows.take turn ++ rows[turn] :: rows.drop (turn + 1) := by simp
    obtain ⟨count, reached, hfront, -⟩ := mergeRows_append_eq_ok (hsplit ▸ hmerge)
    rw [recognized_iff hintegrity hrows hsplit
      (fun row hrow ↦ haddressable row (List.mem_of_mem_take hrow)) hzero hfront,
      hinserts hturn hzero, hrows.mem_newcomers_iff hturn hzero, hfront]
  rw [List.perm_ext_iff_of_nodup (hrows.nodup_addresses.sublist hsublist) hrows.nodup_newcomers]
  constructor
  · exact fun h turn hturn hzero ↦ (hrecognized hturn hzero).2 (h _)
  · intro h address
    have hsame {turn : Nat} (hturn : turn < rows.length) (hzero : rows[turn].address ≠ 0) :=
      (hrecognized hturn hzero).1 (h turn hturn hzero)
    constructor
    · intro hlisted
      obtain ⟨turn, hturn, rfl, hzero, -⟩ := (hmem address).1 hlisted
      exact (hsame hturn hzero).1 hlisted
    · intro hnew
      obtain ⟨turn, hturn, rfl, hzero⟩ := exists_of_mem_newcomers hnew
      exact (hsame hturn hzero).2 hnew

/-- A table with targets, of whose arrivals a listener is told from now on. -/
def listening (devices : List TargetDevice) : List TableOperation :=
  devices.map .insert ++ [.listen (some "arrivals"), .enableEvents true]

/-- Two targets with different identifiers, and a listener. -/
def watched : List TableOperation :=
  listening [.ofPid 8 1, .ofPid 9 2]

/-- Three rows: the identifier 1 at the address 12, and the identifiers 3 and 2 at 8 and 9. -/
def vacated : Bytes :=
  [3, 0, 0, 0, 12, 0, 0, 0, 1, 0, 0, 0, 0, 0, 0, 0, 0, 0, 0, 0,
    8, 0, 0, 0, 3, 0, 0, 0, 0, 0, 0, 0, 0, 0, 0, 0, 9, 0, 0, 0, 2, 0, 0, 0, 0, 0, 0, 0, 0, 0, 0, 0]

/-- A new target is announced that has the address which another one has left for a free one. -/
theorem announced_vacated :
    (TableOperation.run watched).eventsEnabled = true ∧
    (TableOperation.run watched).listener = some "arrivals" ∧
    TargetListing.decode vacated = .ok ⟨[plainRow 12 1, plainRow 8 3, plainRow 9 2]⟩ ∧
    Unambiguous [plainRow 12 1, plainRow 8 3, plainRow 9 2] ∧
    ∃ next told, (TableOperation.run watched).mergeListing vacated = (.ok 1, next) ∧
      next.arrivals = (TableOperation.run watched).arrivals ++
        (List.map (Arrival.mk "arrivals") told).toArray ∧
      told.Perm [8] := by
  have henabled : (TableOperation.run watched).eventsEnabled = true := by rfl
  have hlistener : (TableOperation.run watched).listener = some "arrivals" := by rfl
  have hdecode : TargetListing.decode vacated =
      .ok ⟨[plainRow 12 1, plainRow 8 3, plainRow 9 2]⟩ := by rfl
  have hrows : Unambiguous [plainRow 12 1, plainRow 8 3, plainRow 9 2] := by decide
  have hmerge : (TableOperation.run watched).mergeListing vacated =
      (.ok 1, ((TableOperation.run watched).mergeListing vacated).2) := by rfl
  obtain ⟨told, htold, hiff⟩ := announced_iff henabled hlistener hdecode hrows hmerge
  have hnewcomers : (TableOperation.run watched).newcomers
      [plainRow 12 1, plainRow 8 3, plainRow 9 2] = [8] := by decide
  have hrecognized := hiff.2 (by decide)
  exact ⟨henabled, hlistener, hdecode, hrows, _, told, hmerge, htold, hnewcomers ▸ hrecognized⟩

/-- A target that was known without an address is not announced when it gets one. If a new target
overwrites another one and the row of the other follows, the other one is announced instead. -/
theorem not_announced :
    TargetListing.decode takeover = .ok ⟨[plainRow 9 1]⟩ ∧
    (TableOperation.run (listening [.ofPid 0 1])).newcomers [plainRow 9 1] = [9] ∧
    (∃ next, (TableOperation.run (listening [.ofPid 0 1])).mergeListing takeover = (.ok 0, next) ∧
      next.arrivals = #[]) ∧
    TargetListing.decode exchange = .ok ⟨[plainRow 9 1, plainRow 8 2]⟩ ∧
    Unambiguous [plainRow 9 1, plainRow 8 2] ∧
    (TableOperation.run (listening [.ofPid 9 2])).newcomers [plainRow 9 1, plainRow 8 2] = [9] ∧
    ∃ next, (TableOperation.run (listening [.ofPid 9 2])).mergeListing exchange = (.ok 1, next) ∧
      next.arrivals = #[⟨"arrivals", 8⟩] := by
  refine ⟨by rfl, by decide, ⟨_, by rfl, by decide⟩, by rfl, by decide, by decide, _, by rfl,
    by decide⟩

end TargetTable

end I3cHost
