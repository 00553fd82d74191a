import I3cHost.Proofs.Target.Integrity

/-!
# Identifiers of targets across a listing

A listing tells the addresses of targets, and a target that moved is recognized by its identifier.
A row is matched by its address first, so when a target moved to an address that the table has for
another one, the row overwrites that other target, and two targets have one identifier. This is
mended if a later row gives the target that was left behind another identifier, as when two targets
exchange their addresses. `distinctPids_mergeListing_iff` says that identifiers stay distinct, and
every identifier of the listing is found once and at its address, exactly if every target that is
left behind is renamed in this way.
-/

namespace I3cHost

namespace TargetTable

/-- No two targets are known by the same identifier. -/
def DistinctPids (devices : List TargetDevice) : Prop :=
  devices.Pairwise fun first second ↦
    first.validPid = true → second.validPid = true → first.pid ≠ second.pid

instance (devices : List TargetDevice) : Decidable (DistinctPids devices) :=
  inferInstanceAs (Decidable (List.Pairwise _ _))

/-- Exactly one target is known by the identifier of a row, and it is at the address of the row. -/
def Settled (devices : List TargetDevice) (row : TargetRow) : Prop :=
  (devices.filter (·.matchesPid row.pid)).map (·.address) = [row.address]

instance (devices : List TargetDevice) (row : TargetRow) : Decidable (Settled devices row) :=
  inferInstanceAs (Decidable (_ = _))

/-- No address and no identifier is listed twice. -/
structure Unambiguous (rows : List TargetRow) : Prop where
  addresses : rows.Pairwise fun first second ↦
    first.address ≠ 0 → first.address ≠ second.address
  pids : rows.Pairwise fun first second ↦ first.pid.isZero = false → first.pid ≠ second.pid

instance (rows : List TargetRow) : Decidable (Unambiguous rows) :=
  decidable_of_iff (_ ∧ _) ⟨fun h ↦ ⟨h.1, h.2⟩, fun h ↦ ⟨h.addresses, h.pids⟩⟩

/-- The identifier of a row is that of one target, and its address that of another, which the row
overwrites. -/
structure LeavesBehind (table : TargetTable) (row : TargetRow) (holder : TargetDevice) : Prop where
  mem : holder ∈ table.devices
  holds : holder.matchesPid row.pid = true
  elsewhere : holder.address ≠ row.address
  occupied : row.address ∈ table.addresses

instance (table : TargetTable) (row : TargetRow) (holder : TargetDevice) :
    Decidable (table.LeavesBehind row holder) :=
  decidable_of_iff (_ ∧ _ ∧ _ ∧ _) ⟨fun h ↦ ⟨h.1, h.2.1, h.2.2.1, h.2.2.2⟩,
    fun h ↦ ⟨h.mem, h.holds, h.elsewhere, h.occupied⟩⟩

/-- One of the rows gives the target at an address another identifier. -/
def Renames (rows : List TargetRow) (address : UInt8) : Prop :=
  address ≠ 0 ∧ ∃ row ∈ rows, row.address = address ∧ row.pid.isZero = false

instance (rows : List TargetRow) (address : UInt8) : Decidable (Renames rows address) :=
  inferInstanceAs (Decidable (_ ∧ _))

/-- Two targets may share an identifier as long as it is not listed any more and one of them will
be renamed. -/
def Tolerated (rows : List TargetRow) (first second : TargetDevice) : Prop :=
  first.validPid = true → second.validPid = true → first.pid = second.pid →
    (∀ row ∈ rows, row.pid.isZero = false → row.pid ≠ first.pid) ∧
      (Renames rows first.address ∨ Renames rows second.address)

variable {table next : TargetTable} {row : TargetRow} {rows : List TargetRow}
  {device first second : TargetDevice} {address : UInt8} {count : Nat}

/-- The rows behind the first one are as unambiguous. -/
theorem Unambiguous.tail (h : Unambiguous (row :: rows)) : Unambiguous rows :=
  ⟨(List.pairwise_cons.1 h.addresses).2, (List.pairwise_cons.1 h.pids).2⟩

/-- The last of the rows are as unambiguous. -/
theorem Unambiguous.right {before : List TargetRow} (h : Unambiguous (before ++ rows)) :
    Unambiguous rows :=
  ⟨(List.pairwise_append.1 h.addresses).2.1, (List.pairwise_append.1 h.pids).2.1⟩

/-- A target is renamed by the first row or by a later one. -/
theorem renames_cons :
    Renames (row :: rows) address ↔ Renames [row] address ∨ Renames rows address := by
  simp only [Renames, List.mem_cons, List.not_mem_nil, or_false, exists_eq_left, or_and_right,
    exists_or, and_or_left]

/-- Without rows no target is renamed. -/
theorem not_renames_nil : ¬ Renames [] address :=
  fun h ↦ absurd h.2 (by simp)

/-- Which of two targets is compared with which does not matter. -/
theorem Tolerated.symm (h : Tolerated rows first second) : Tolerated rows second first := by
  intro hsecond hfirst hpid
  obtain ⟨hlisted, hrenames⟩ := h hfirst hsecond hpid.symm
  exact ⟨hpid ▸ hlisted, hrenames.symm⟩

/-- At the end of a listing nothing is tolerated any more. -/
theorem tolerated_nil_iff : Tolerated [] first second ↔
    (first.validPid = true → second.validPid = true → first.pid ≠ second.pid) := by
  simp only [Tolerated, not_renames_nil, or_self, and_false]

/-- A row that renames neither of two targets does not change what is tolerated. -/
theorem Tolerated.tail (h : Tolerated (row :: rows) first second)
    (hfirst : ¬ Renames [row] first.address) (hsecond : ¬ Renames [row] second.address) :
    Tolerated rows first second := by
  intro hvalid hother hpid
  obtain ⟨hlisted, hrenames⟩ := h hvalid hother hpid
  refine ⟨(List.forall_mem_cons.1 hlisted).2, ?_⟩
  simpa [renames_cons, hfirst, hsecond] using hrenames

/-- What is tolerated depends on addresses and identifiers only. -/
theorem Tolerated.congr {updated : TargetDevice} (h : Tolerated rows first second)
    (haddress : updated.address = second.address) (hvalid : updated.validPid = second.validPid)
    (hpid : updated.pid = second.pid) : Tolerated rows first updated := by
  unfold Tolerated Renames at h ⊢
  rwa [haddress, hvalid, hpid]

/-- A row for an address that is not in use renames nothing. -/
theorem not_renames_of_free (hfree : row.address ∉ table.addresses)
    (hdevice : device ∈ table.devices) : ¬ Renames [row] device.address := by
  rintro ⟨hzero, other, hother, heq, -⟩
  obtain rfl := List.mem_singleton.1 hother
  exact hfree (mem_addresses_iff.2 ⟨heq ▸ hzero, device, hdevice, heq.symm⟩)

/-- A row renames nothing at other addresses. -/
theorem not_renames_of_ne (hne : address ≠ row.address) : ¬ Renames [row] address := by
  rintro ⟨-, other, hother, heq, -⟩
  obtain rfl := List.mem_singleton.1 hother
  exact hne heq.symm

/-- A row without an identifier renames nothing. -/
theorem not_renames_of_isZero (hrow : row.pid.isZero = true) : ¬ Renames [row] address := by
  rintro ⟨-, other, hother, -, hpid⟩
  obtain rfl := List.mem_singleton.1 hother
  exact absurd (hrow.symm.trans hpid) Bool.noConfusion

/-- An identifier that was just listed is not listed again. -/
theorem Unambiguous.not_listed (h : Unambiguous (row :: rows)) (hpid : row.pid.isZero = false)
    (other : TargetRow) (hother : other ∈ rows) : other.pid ≠ row.pid :=
  ((List.pairwise_cons.1 h.pids).1 other hother hpid).symm

/-- An address that was just listed is not listed again. -/
theorem Unambiguous.not_renames (h : Unambiguous (row :: rows)) : ¬ Renames rows row.address := by
  rintro ⟨hzero, later, hlater, heq, -⟩
  exact (List.pairwise_cons.1 h.addresses).1 later hlater hzero heq.symm

/-- The target at the address of a row takes over the identifier of the row. Another target that has
it is left behind. -/
theorem tolerated_overwrite (hintegrity : Integrity table.devices)
    (hrows : Unambiguous (row :: rows)) (h : table.devices.Pairwise (Tolerated (row :: rows)))
    (hleft : ∀ holder, table.LeavesBehind row holder → Renames rows holder.address)
    {index : Nat} (hindex : index < table.devices.length)
    (haddress : table.devices[index].address = row.address) (hzero : row.address ≠ 0)
    {updated : TargetDevice} (happly : table.devices[index].applyRow row = .ok updated) :
    (table.devices.modify index fun _ ↦ updated).Pairwise (Tolerated rows) := by
  obtain ⟨hupdated, -, hvalid, hpid⟩ := TargetDevice.applyRow_eq_ok happly
  -- Nothing else has the address of the row.
  have hne : ∀ (other : Nat) (hother : other < table.devices.length), other ≠ index →
      table.devices[other].address ≠ row.address := by
    intro other hother hplace
    rw [← haddress] at hzero ⊢
    exact (hintegrity.address_ne hindex hother hplace.symm hzero).symm
  refine pairwise_modify (fun _ _ ↦ Tolerated.symm) hindex ?_ ?_
  · intro first second hfirst hsecond hplace hplace' hdiffer
    exact (related_of_pairwise (fun _ _ ↦ Tolerated.symm) h hfirst hsecond hdiffer).tail
      (not_renames_of_ne (hne first hfirst hplace)) (not_renames_of_ne (hne second hsecond hplace'))
  · intro other hother hplace
    cases hrow : row.pid.isZero with
    | true =>
        have hbefore := related_of_pairwise (fun _ _ ↦ Tolerated.symm) h hother hindex hplace
        exact (hbefore.tail (not_renames_of_ne (hne other hother hplace))
          (not_renames_of_isZero hrow)).congr
          (hupdated.trans haddress.symm) (by simp [hvalid, hrow]) (by simp [hpid, hrow])
    | false =>
        intro hother' _ hsame
        have hsame : table.devices[other].pid = row.pid := by simpa [hpid, hrow] using hsame
        rw [hsame]
        refine ⟨fun listed hlisted _ ↦ hrows.not_listed hrow listed hlisted, .inl (hleft _ ?_)⟩
        exact {
          mem := List.getElem_mem hother
          holds := TargetDevice.matchesPid_iff.2 ⟨hother', hrow, hsame⟩
          elsewhere := hne other hother hplace
          occupied := mem_addresses_iff.2 ⟨hzero, _, List.getElem_mem hindex, haddress⟩ }

/-- A target whose identifier is listed with an address that is not in use moves there, as the only
one with the identifier. -/
theorem tolerated_move (h : table.devices.Pairwise (Tolerated (row :: rows)))
    (hfree : row.address ∉ table.addresses) {index : Nat} (hindex : index < table.devices.length)
    (hmatch : table.devices[index].matchesPid row.pid = true) {updated : TargetDevice}
    (happly : table.devices[index].applyRow row = .ok updated) :
    (table.devices.modify index fun _ ↦ updated).Pairwise (Tolerated rows) := by
  obtain ⟨hvalid, hrow, hpid⟩ := TargetDevice.matchesPid_iff.1 hmatch
  obtain ⟨-, -, -, hkept⟩ := TargetDevice.applyRow_eq_ok happly
  refine pairwise_modify (fun _ _ ↦ Tolerated.symm) hindex ?_ ?_
  · intro first second hfirst hsecond _ _ hdiffer
    exact (related_of_pairwise (fun _ _ ↦ Tolerated.symm) h hfirst hsecond hdiffer).tail
      (not_renames_of_free hfree (List.getElem_mem hfirst))
      (not_renames_of_free hfree (List.getElem_mem hsecond))
  · intro other hother hplace hother' _ hsame
    have hsame : table.devices[other].pid = row.pid := by simpa [hkept, hrow] using hsame
    -- Another target with the identifier would not have been tolerated before this row.
    obtain ⟨hlisted, -⟩ := related_of_pairwise (fun _ _ ↦ Tolerated.symm) h hother hindex hplace
      hother' hvalid (hsame.trans hpid.symm)
    exact absurd hsame.symm (hlisted row List.mem_cons_self hrow)

/-- A target is inserted only if nothing has its identifier. -/
theorem tolerated_append (h : table.devices.Pairwise (Tolerated (row :: rows)))
    (hfree : row.address ∉ table.addresses)
    (hnone : ∀ known ∈ table.devices, known.matchesPid row.pid = false)
    (happly : TargetDevice.applyRow {} row = .ok device) :
    (table.devices ++ [device]).Pairwise (Tolerated rows) := by
  obtain ⟨-, -, hvalid, hpid⟩ := TargetDevice.applyRow_eq_ok happly
  rw [List.pairwise_append]
  refine ⟨?_, List.pairwise_singleton _ _, ?_⟩
  · refine h.imp_of_mem fun hfirst hsecond htolerated ↦ ?_
    exact htolerated.tail (not_renames_of_free hfree hfirst) (not_renames_of_free hfree hsecond)
  · intro known hknown new hnew hknown' hnew' hsame
    obtain rfl := List.mem_singleton.1 hnew
    have hrow : row.pid.isZero = false := by simpa [hvalid] using hnew'
    have hsame : known.pid = row.pid := by simpa [hpid, hrow] using hsame
    have hmatch := TargetDevice.matchesPid_iff.2 ⟨hknown', hrow, hsame⟩
    rw [hnone known hknown] at hmatch
    cases hmatch

/-- If a target that a row leaves behind is renamed later, then a row leaves only what is tolerated
until the end. -/
theorem tolerated_mergeRow (hintegrity : Integrity table.devices)
    (hrows : Unambiguous (row :: rows)) (h : table.devices.Pairwise (Tolerated (row :: rows)))
    (hleft : ∀ holder, table.LeavesBehind row holder → Renames rows holder.address)
    (hmerge : table.mergeRow row = .ok (count, next)) :
    next.devices.Pairwise (Tolerated rows) := by
  rcases mergeRow_eq_ok hmerge with
    ⟨index, updated, hindex, ⟨haddress, hzero⟩ | ⟨hfree, hmatch⟩, happly, rfl⟩ |
      ⟨hfree, hnone, device, happly, hinsert⟩
  · exact tolerated_overwrite hintegrity hrows h hleft hindex haddress hzero happly
  · exact tolerated_move h hfree hindex hmatch happly
  · obtain ⟨-, -, -, rfl⟩ := insert_eq_ok_iff.1 hinsert
    rw [announce_devices]
    exact tolerated_append h hfree hnone happly

/-- If every target that is left behind is renamed later, then the identifiers are distinct when all
rows have been merged. -/
theorem distinctPids_mergeRows {added total : Nat} (hintegrity : Integrity table.devices)
    (hrows : Unambiguous rows) (haddressable : ∀ row ∈ rows, isUnaddressable row = false)
    (h : table.devices.Pairwise (Tolerated rows))
    (hleft : ∀ before row after, rows = before ++ row :: after →
      ∀ holder, (table.mergeRows added before).2.LeavesBehind row holder →
        Renames after holder.address)
    (hmerge : table.mergeRows added rows = (.ok total, next)) : DistinctPids next.devices := by
  induction rows generalizing table added with
  | nil =>
      cases hmerge
      exact h.imp tolerated_nil_iff.1
  | cons row rows ih =>
      obtain ⟨count, merged, hrow, hmerge⟩ := mergeRows_cons_eq_ok hmerge
      obtain ⟨haddress, haddressable⟩ := List.forall_mem_cons.1 haddressable
      have hrange : row.address ≤ maxTargetAddress := by
        simpa [isUnaddressable] using (Bool.or_eq_false_iff.1 haddress).1
      refine ih (hintegrity.mergeRow hrange hrow) hrows.tail haddressable ?_ ?_ hmerge
      · exact tolerated_mergeRow hintegrity hrows h (hleft [] row rows rfl) hrow
      · intro before later after hsplit
        have hbefore := hleft (row :: before) later after (by rw [hsplit, List.cons_append])
        rwa [mergeRows, hrow] at hbefore

/-- When a row was merged, a target that is known by its identifier is at its address. -/
theorem exists_of_mergeRow (hrow : row.pid.isZero = false)
    (hmerge : table.mergeRow row = .ok (count, next)) :
    ∃ device ∈ next.devices, device.address = row.address ∧ device.matchesPid row.pid = true := by
  rcases mergeRow_eq_ok hmerge with
    ⟨index, updated, hindex, -, happly, rfl⟩ | ⟨-, -, device, happly, hinsert⟩
  · exact ⟨updated, mem_modify hindex updated, (TargetDevice.applyRow_eq_ok happly).1,
      TargetDevice.applyRow_matchesPid happly hrow⟩
  · obtain ⟨-, -, -, rfl⟩ := insert_eq_ok_iff.1 hinsert
    exact ⟨device, by simp, (TargetDevice.applyRow_eq_ok happly).1,
      TargetDevice.applyRow_matchesPid happly hrow⟩

/-- A target stays at its address and known by its identifier when a row is merged that neither
lists the identifier nor renames the target. -/
theorem kept_mergeRow {pid : ProvisionedId} (hdevice : device ∈ table.devices)
    (hmatch : device.matchesPid pid = true) (hkept : ¬ Renames [row] device.address)
    (hother : row.pid ≠ pid) (hmerge : table.mergeRow row = .ok (count, next)) :
    ∃ kept ∈ next.devices, kept.address = device.address ∧ kept.matchesPid pid = true := by
  rcases mergeRow_eq_ok hmerge with
    ⟨index, updated, hindex, hfound, happly, rfl⟩ | ⟨-, -, new, -, hinsert⟩
  · obtain ⟨place, hplace, rfl⟩ := List.getElem_of_mem hdevice
    by_cases hne : index = place
    · subst hne
      rcases hfound with ⟨haddress, hzero⟩ | ⟨-, hrow⟩
      · -- A row for the address of the target that does not rename it has no identifier.
        have hnone : row.pid.isZero = true := by
          cases hrow : row.pid.isZero with
          | true => rfl
          | false => exact absurd ⟨haddress ▸ hzero, row, by simp, haddress.symm, hrow⟩ hkept
        refine ⟨updated, mem_modify hindex updated, ?_, ?_⟩
        · exact (TargetDevice.applyRow_eq_ok happly).1.trans haddress.symm
        · exact (TargetDevice.applyRow_matchesPid_of_isZero happly hnone).trans hmatch
      · have hsame := (TargetDevice.matchesPid_iff.1 hrow).2.2
        exact absurd (hsame.symm.trans (TargetDevice.matchesPid_iff.1 hmatch).2.2) hother
    · exact ⟨_, mem_modify_of_ne hplace hne, rfl, hmatch⟩
  · obtain ⟨-, -, -, rfl⟩ := insert_eq_ok_iff.1 hinsert
    exact ⟨device, by simp [hdevice], rfl, hmatch⟩

/-- A target stays at its address and known by its identifier when rows are merged none of which
lists the identifier or renames the target. -/
theorem kept_mergeRows {pid : ProvisionedId} {added total : Nat} (hdevice : device ∈ table.devices)
    (hmatch : device.matchesPid pid = true) (hkept : ¬ Renames rows device.address)
    (hother : ∀ row ∈ rows, row.pid ≠ pid)
    (hmerge : table.mergeRows added rows = (.ok total, next)) :
    ∃ kept ∈ next.devices, kept.address = device.address ∧ kept.matchesPid pid = true := by
  induction rows generalizing table added device with
  | nil =>
      cases hmerge
      exact ⟨device, hdevice, rfl, hmatch⟩
  | cons row rows ih =>
      obtain ⟨count, merged, hrow, hmerge⟩ := mergeRows_cons_eq_ok hmerge
      obtain ⟨hfirst, hrest⟩ := List.forall_mem_cons.1 hother
      obtain ⟨hkeeps, hkept⟩ := not_or.1 (mt renames_cons.2 hkept)
      obtain ⟨kept, hmem, haddress, hmatch⟩ := kept_mergeRow hdevice hmatch hkeeps hfirst hrow
      rw [← haddress] at hkept ⊢
      exact ih hmem hmatch hkept hrest hmerge

/-- When all rows have been merged, a target that is known by the identifier of a row is at the
address of the row. -/
theorem exists_of_mergeRows {added total : Nat} (hrows : Unambiguous rows) (hmem : row ∈ rows)
    (hrow : row.pid.isZero = false) (hmerge : table.mergeRows added rows = (.ok total, next)) :
    ∃ device ∈ next.devices, device.address = row.address ∧ device.matchesPid row.pid = true := by
  obtain ⟨before, after, rfl⟩ := List.append_of_mem hmem
  obtain ⟨_, reached, -, hmerge⟩ := mergeRows_append_eq_ok hmerge
  obtain ⟨_, merged, hstep, hmerge⟩ := mergeRows_cons_eq_ok hmerge
  obtain ⟨device, hdevice, haddress, hmatch⟩ := exists_of_mergeRow hrow hstep
  have hkept : ¬ Renames after device.address := haddress ▸ hrows.right.not_renames
  obtain ⟨kept, hkept, hsame, hmatch⟩ :=
    kept_mergeRows hdevice hmatch hkept (hrows.right.not_listed hrow) hmerge
  exact ⟨kept, hkept, hsame.trans haddress, hmatch⟩

/-- If identifiers are distinct, then no other target has the identifier of a row. -/
theorem DistinctPids.settled {devices : List TargetDevice} (h : DistinctPids devices)
    (hdevice : device ∈ devices) (haddress : device.address = row.address)
    (hmatch : device.matchesPid row.pid = true) : Settled devices row := by
  have hmem : device ∈ devices.filter (·.matchesPid row.pid) :=
    List.mem_filter.2 ⟨hdevice, hmatch⟩
  have hholds : ∀ holder ∈ devices.filter (·.matchesPid row.pid),
      holder.matchesPid row.pid = true := fun holder hholder ↦ (List.mem_filter.1 hholder).2
  have hdistinct := h.sublist (List.filter_sublist (p := (·.matchesPid row.pid)))
  rw [Settled, ← haddress]
  generalize devices.filter (·.matchesPid row.pid) = holders at hmem hholds hdistinct ⊢
  match holders with
  | [] => cases hmem
  | [only] => rw [List.mem_singleton.1 hmem, List.map_singleton]
  | first :: second :: _ =>
      obtain ⟨hfirst, -, hpid⟩ := TargetDevice.matchesPid_iff.1 (hholds first (by simp))
      obtain ⟨hsecond, -, hpid'⟩ := TargetDevice.matchesPid_iff.1 (hholds second (by simp))
      have hne := (List.pairwise_cons.1 hdistinct).1 second (by simp) hfirst hsecond
      exact absurd (hpid.trans hpid'.symm) hne

/-- The target that a row leaves behind is still at its address after the row. -/
theorem LeavesBehind.mem_mergeRow {holder : TargetDevice} (h : table.LeavesBehind row holder)
    (hmerge : table.mergeRow row = .ok (count, next)) : holder ∈ next.devices := by
  rcases mergeRow_eq_ok hmerge with
    ⟨index, updated, hindex, ⟨haddress, -⟩ | ⟨hfree, -⟩, -, rfl⟩ | ⟨hfree, -⟩
  · obtain ⟨place, hplace, rfl⟩ := List.getElem_of_mem h.mem
    have hne : index ≠ place := by
      rintro rfl
      exact h.elsewhere haddress
    exact mem_modify_of_ne hplace hne
  · exact absurd h.occupied hfree
  · exact absurd h.occupied hfree

/-- A target that was left behind and is not renamed later still has the identifier of the row when
all rows have been merged. -/
theorem LeavesBehind.not_settled {holder : TargetDevice} {added total : Nat}
    (h : table.LeavesBehind row holder) (hrows : Unambiguous (row :: rows))
    (hkept : ¬ Renames rows holder.address)
    (hmerge : table.mergeRows added (row :: rows) = (.ok total, next)) :
    ¬ Settled next.devices row := by
  intro hsettled
  obtain ⟨-, hrow, -⟩ := TargetDevice.matchesPid_iff.1 h.holds
  obtain ⟨_, merged, hstep, hmerge⟩ := mergeRows_cons_eq_ok hmerge
  obtain ⟨kept, hmem, hsame, hmatch⟩ := kept_mergeRows (h.mem_mergeRow hstep) h.holds hkept
    (hrows.not_listed hrow) hmerge
  have honly : kept.address ∈ [row.address] :=
    hsettled ▸ List.mem_map_of_mem (List.mem_filter.2 ⟨hmem, hmatch⟩)
  exact h.elsewhere (hsame.symm.trans (List.mem_singleton.1 honly))

/-- After a listing in which no address and no identifier is listed twice, identifiers are still
distinct, and each listed one is that of one target, at the listed address, exactly if every target
that a row left behind with its identifier was renamed by a later row. -/
theorem distinctPids_mergeListing_iff {history : List TableOperation} {buffer : Bytes}
    {listing : TargetListing} {added : Nat}
    (hdistinct : DistinctPids (TableOperation.run history).devices)
    (hdecode : TargetListing.decode buffer = .ok listing) (hrows : Unambiguous listing.rows)
    (hmerge : (TableOperation.run history).mergeListing buffer = (.ok added, next)) :
    (DistinctPids next.devices ∧
      ∀ row ∈ listing.rows, row.pid.isZero = false → Settled next.devices row) ↔
    ∀ before row after, listing.rows = before ++ row :: after → ∀ holder,
      ((TableOperation.run history).mergeRows 0 before).2.LeavesBehind row holder →
        Renames after holder.address := by
  obtain ⟨haddressable, hmerge⟩ := mergeListing_eq_ok hdecode hmerge
  constructor
  · rintro ⟨-, hsettled⟩ before row after hsplit holder hleft
    refine Classical.byContradiction fun hkept ↦ ?_
    rw [hsplit] at hrows hmerge hsettled
    obtain ⟨_, reached, hbefore, hmerge⟩ := mergeRows_append_eq_ok hmerge
    rw [hbefore] at hleft
    exact hleft.not_settled hrows.right hkept hmerge
      (hsettled row (by simp) (TargetDevice.matchesPid_iff.1 hleft.holds).2.1)
  · intro hleft
    -- At the start nothing needs to be tolerated.
    have htolerated : (TableOperation.run history).devices.Pairwise (Tolerated listing.rows) :=
      hdistinct.imp fun hne hfirst hsecond hpid ↦ absurd hpid (hne hfirst hsecond)
    have hfinal := distinctPids_mergeRows (Integrity.nil.applyAll history) hrows haddressable
      htolerated hleft hmerge
    refine ⟨hfinal, fun row hmem hrow ↦ ?_⟩
    obtain ⟨device, hdevice, haddress, hmatch⟩ := exists_of_mergeRows hrows hmem hrow hmerge
    exact hfinal.settled hdevice haddress hmatch

/-- Two targets with different identifiers. -/
def twoTargets : List TableOperation :=
  [.insert (.ofPid 8 1), .insert (.ofPid 9 2)]

/-- The row of a target that has nothing but an address and an identifier. -/
def plainRow (address : UInt8) (pid : UInt32) : TargetRow where
  address
  pid.low := pid

/-- Two rows with the identifiers 1 and 2 at the addresses 9 and 8. -/
def exchange : Bytes :=
  [2, 0, 0, 0, 9, 0, 0, 0, 1, 0, 0, 0, 0, 0, 0, 0, 0, 0, 0, 0,
    8, 0, 0, 0, 2, 0, 0, 0, 0, 0, 0, 0, 0, 0, 0, 0]

/-- When two targets exchange their addresses, the second row renames the target that the first row
leaves behind. -/
theorem distinctPids_exchange :
    DistinctPids (TableOperation.run twoTargets).devices ∧
    TargetListing.decode exchange = .ok ⟨[plainRow 9 1, plainRow 8 2]⟩ ∧
    Unambiguous [plainRow 9 1, plainRow 8 2] ∧
    ∃ next, (TableOperation.run twoTargets).mergeListing exchange = (.ok 0, next) ∧
      DistinctPids next.devices ∧
      ∀ row ∈ [plainRow 9 1, plainRow 8 2], row.pid.isZero = false → Settled next.devices row := by
  have hdistinct : DistinctPids (TableOperation.run twoTargets).devices := by decide
  have hdecode : TargetListing.decode exchange = .ok ⟨[plainRow 9 1, plainRow 8 2]⟩ := by rfl
  have hrows : Unambiguous [plainRow 9 1, plainRow 8 2] := by decide
  have hmerge : (TableOperation.run twoTargets).mergeListing exchange =
      (.ok 0, ((TableOperation.run twoTargets).mergeListing exchange).2) := by rfl
  refine ⟨hdistinct, hdecode, hrows, _, hmerge,
    (distinctPids_mergeListing_iff hdistinct hdecode hrows hmerge).2 ?_⟩
  -- Only the target at the address 8 is left behind, by the first row.
  have hfirst : ∀ holder ∈ (TableOperation.run twoTargets).devices,
      (TableOperation.run twoTargets).LeavesBehind (plainRow 9 1) holder →
        Renames [plainRow 8 2] holder.address := by decide
  have hsecond : ∀ holder ∈ ((TableOperation.run twoTargets).mergeRows 0 [plainRow 9 1]).2.devices,
      ¬ ((TableOperation.run twoTargets).mergeRows 0 [plainRow 9 1]).2.LeavesBehind (plainRow 8 2)
        holder := by decide
  intro before row after hsplit holder hleft
  match before with
  | [] =>
      cases hsplit
      exact hfirst holder hleft.mem hleft
  | [_] =>
      cases hsplit
      exact absurd hleft (hsecond holder hleft.mem)
  | _ :: _ :: _ => simp at hsplit

/-- One row with the identifier 1 at the address 9. -/
def takeover : Bytes :=
  [1, 0, 0, 0, 9, 0, 0, 0, 1, 0, 0, 0, 0, 0, 0, 0, 0, 0, 0, 0]

/-- When a target moves to the address of another one that is not listed, both have its
identifier. -/
theorem not_distinctPids_takeover :
    DistinctPids (TableOperation.run twoTargets).devices ∧
    TargetListing.decode takeover = .ok ⟨[plainRow 9 1]⟩ ∧
    Unambiguous [plainRow 9 1] ∧
    ∃ next, (TableOperation.run twoTargets).mergeListing takeover = (.ok 0, next) ∧
      ¬ DistinctPids next.devices ∧ ¬ Settled next.devices (plainRow 9 1) := by
  refine ⟨by decide, by rfl, by decide, _, by rfl, by decide, by decide⟩

end TargetTable

end I3cHost
