import Mathlib.Data.List.Perm.Basic
import I3cHost.Proofs.Target.Integrity

/-!
# Moving targets one after the other

An answer of the device to a change of addresses says where targets are now, so its moves are to be
read as made all at once. They are carried out one after the other, and a move to an address that is
still in use is refused. So a move is carried out exactly if its destination was free from the start
or the target there has been moved away before. All moves are carried out, and the order in which
they are listed is of no account, if none of them goes to an address that a later one leaves
(`applyAddressChanges_moves`). Targets that exchange their addresses keep them.
-/

namespace I3cHost

/-- Whether an outcome is about a target that was moved: it succeeded and names two addresses. -/
def AddressChangeOutcome.isMove (outcome : AddressChangeOutcome) : Bool :=
  outcome.succeeded && outcome.old != outcome.new

/-- The moves that an answer reports. -/
def AddressChangeReport.moves (report : AddressChangeReport) : List AddressChangeOutcome :=
  report.outcomes.filter (·.isMove)

/-- No move goes to an address that a later one leaves. -/
def InOrder (moves : List AddressChangeOutcome) : Prop :=
  moves.Pairwise fun first second ↦ first.new ≠ second.old

instance (moves : List AddressChangeOutcome) : Decidable (InOrder moves) :=
  inferInstanceAs (Decidable (List.Pairwise _ _))

/-- The target after moves that are made all at once. -/
def TargetDevice.relocated (moves : List AddressChangeOutcome) (device : TargetDevice) :
    TargetDevice :=
  match moves.find? (·.old == device.address) with
  | some move => { device with address := move.new }
  | none => device

namespace TargetTable

/-- The table after moves that are made all at once. -/
def relocated (moves : List AddressChangeOutcome) (table : TargetTable) : TargetTable :=
  { table with devices := table.devices.map (·.relocated moves) }

/-- Moves that can be made all at once: each starts at a target and goes to an address that is not
that of a target that stays, and no two of them start or end at one address. -/
structure Movable (table : TargetTable) (moves : List AddressChangeOutcome) : Prop where
  known : ∀ move ∈ moves, move.old ∈ table.addresses
  departures : moves.Pairwise fun first second ↦ first.old ≠ second.old
  destinations : moves.Pairwise fun first second ↦ first.new ≠ second.new
  inRange : ∀ move ∈ moves, move.new ≠ 0 ∧ move.new ≤ 0x7F
  vacated : ∀ move ∈ moves, move.new ∈ table.addresses → ∃ other ∈ moves, other.old = move.new

instance (table : TargetTable) (moves : List AddressChangeOutcome) :
    Decidable (table.Movable moves) :=
  decidable_of_iff (_ ∧ _ ∧ _ ∧ _ ∧ _)
    ⟨fun h ↦ ⟨h.1, h.2.1, h.2.2.1, h.2.2.2.1, h.2.2.2.2⟩,
      fun h ↦ ⟨h.known, h.departures, h.destinations, h.inRange, h.vacated⟩⟩

/-- The moves that are carried out, after some that have been already: those to an address that no
target had at the start, or whose target has been moved away by then. -/
def carriedOut (table : TargetTable) (done : List AddressChangeOutcome) :
    List AddressChangeOutcome → List AddressChangeOutcome
  | [] => done
  | move :: moves =>
      if move.new ∈ table.addresses ∧ ∀ earlier ∈ done, earlier.old ≠ move.new then
        table.carriedOut done moves
      else
        table.carriedOut (done ++ [move]) moves

end TargetTable

namespace TargetDevice

variable {device : TargetDevice} {moves : List AddressChangeOutcome} {move : AddressChangeOutcome}

/-- Without moves a target stays where it is. -/
@[simp] theorem relocated_nil : device.relocated [] = device :=
  rfl

/-- A target that no move starts at stays as it is. -/
theorem relocated_of_stays (h : ∀ move ∈ moves, move.old ≠ device.address) :
    device.relocated moves = device := by
  have hnone : moves.find? (·.old == device.address) = none := by simpa using h
  rw [relocated, hnone]

/-- A target is moved by the one move that starts at its address. -/
theorem relocated_of_mem (hdistinct : moves.Pairwise fun first second ↦ first.old ≠ second.old)
    (hmem : move ∈ moves) (hold : move.old = device.address) :
    device.relocated moves = { device with address := move.new } := by
  have hfind : moves.find? (·.old == device.address) = some move := by
    obtain ⟨before, after, rfl⟩ := List.append_of_mem hmem
    refine List.find?_eq_some_iff_append.2 ⟨by simpa using hold, before, after, rfl, ?_⟩
    intro earlier hearlier
    have hne := (List.pairwise_append.1 hdistinct).2.2 earlier hearlier move List.mem_cons_self
    simpa [← hold] using hne
  rw [relocated, hfind]

/-- Where a target is after all moves does not depend on their order. -/
theorem relocated_perm {others : List AddressChangeOutcome} (hperm : others.Perm moves)
    (hdistinct : moves.Pairwise fun first second ↦ first.old ≠ second.old) :
    device.relocated others = device.relocated moves := by
  have hothers : others.Pairwise fun first second ↦ first.old ≠ second.old :=
    (hperm.pairwise_iff fun hne ↦ Ne.symm hne).2 hdistinct
  by_cases hmoved : ∃ move ∈ moves, move.old = device.address
  · obtain ⟨move, hmem, hold⟩ := hmoved
    rw [relocated_of_mem hdistinct hmem hold, relocated_of_mem hothers (hperm.mem_iff.2 hmem) hold]
  · have hstays : ∀ move ∈ moves, move.old ≠ device.address := by simpa using hmoved
    rw [relocated_of_stays hstays,
      relocated_of_stays fun move hmem ↦ hstays move (hperm.mem_iff.1 hmem)]

/-- One more move, of a target that has not been moved yet. -/
theorem relocated_concat (hstart : ∀ earlier ∈ moves, earlier.new ≠ move.old) :
    (device.relocated moves).relocated [move] = device.relocated (moves ++ [move]) := by
  unfold relocated
  rw [List.find?_append]
  cases hfind : moves.find? (·.old == device.address) with
  | none => simp
  | some earlier =>
      have hne : (move.old == earlier.new) = false :=
        beq_false_of_ne (hstart earlier (List.mem_of_find?_eq_some hfind)).symm
      simp [hne]

end TargetDevice

namespace TargetTable

variable {table : TargetTable} {done moves : List AddressChangeOutcome}
  {move : AddressChangeOutcome}

/-- Without moves the table stays as it is. -/
theorem relocated_nil : table.relocated [] = table := by
  simp [relocated]

/-- One more move can be made with the others if none of them goes to where it starts. -/
theorem relocated_concat (hstart : ∀ earlier ∈ done, earlier.new ≠ move.old) :
    (table.relocated done).relocated [move] = table.relocated (done ++ [move]) := by
  have hdevices := List.map_congr_left (l := table.devices) fun device _ ↦
    device.relocated_concat hstart
  simp only [relocated, List.map_map, ← hdevices]
  rfl

/-- Where targets are after all moves does not depend on their order. -/
theorem relocated_perm {others : List AddressChangeOutcome} (hperm : others.Perm moves)
    (hdistinct : moves.Pairwise fun first second ↦ first.old ≠ second.old) :
    table.relocated others = table.relocated moves := by
  have hdevices := List.map_congr_left (l := table.devices) fun device _ ↦
    device.relocated_perm hperm hdistinct
  simp only [relocated, hdevices]

/-- After moves that are made all at once the addresses in use are those that were not left, and
those that were moved to. -/
theorem mem_addresses_relocated (address : UInt8)
    (hknown : ∀ move ∈ done, move.old ∈ table.addresses)
    (hdistinct : done.Pairwise fun first second ↦ first.old ≠ second.old)
    (hrange : ∀ move ∈ done, move.new ≠ 0) :
    address ∈ (table.relocated done).addresses ↔
      (address ∈ table.addresses ∧ ∀ move ∈ done, move.old ≠ address) ∨
        ∃ move ∈ done, move.new = address := by
  have hmoved {device : TargetDevice} {move : AddressChangeOutcome} (hmove : move ∈ done)
      (hold : move.old = device.address) : (device.relocated done).address = move.new :=
    congrArg TargetDevice.address (TargetDevice.relocated_of_mem hdistinct hmove hold)
  constructor
  · intro hmem
    obtain ⟨hzero, after, hafter, rfl⟩ := mem_addresses_iff.1 hmem
    obtain ⟨device, hdevice, rfl⟩ := List.mem_map.1 hafter
    by_cases hstays : ∀ move ∈ done, move.old ≠ device.address
    · rw [TargetDevice.relocated_of_stays hstays] at hzero ⊢
      exact .inl ⟨mem_addresses_iff.2 ⟨hzero, device, hdevice, rfl⟩, hstays⟩
    · obtain ⟨move, hmove, hold⟩ : ∃ move ∈ done, move.old = device.address := by
        simpa using hstays
      exact .inr ⟨move, hmove, (hmoved hmove hold).symm⟩
  · rintro (⟨hmem, hstays⟩ | ⟨move, hmove, rfl⟩)
    · obtain ⟨hzero, device, hdevice, rfl⟩ := mem_addresses_iff.1 hmem
      exact mem_addresses_iff.2 ⟨hzero, _, List.mem_map_of_mem hdevice,
        congrArg TargetDevice.address (TargetDevice.relocated_of_stays hstays)⟩
    · obtain ⟨-, device, hdevice, hold⟩ := mem_addresses_iff.1 (hknown move hmove)
      exact mem_addresses_iff.2 ⟨hrange move hmove, _, List.mem_map_of_mem hdevice,
        hmoved hmove hold.symm⟩

/-- A target moves to an address that is in range and not in use. -/
theorem changeAddress_of_free (h : Integrity table.devices) (hold : move.old ∈ table.addresses)
    (hrange : move.new ≠ 0 ∧ move.new ≤ maxTargetAddress) (hfree : move.new ∉ table.addresses) :
    table.changeAddress move.old move.new = .ok (table.relocated [move]) := by
  have hmoved (device : TargetDevice) : device.relocated [move] =
      if device.address = move.old then { device with address := move.new } else device := by
    split
    next heq =>
      exact TargetDevice.relocated_of_mem (List.pairwise_singleton _ _) List.mem_cons_self heq.symm
    next hne => exact TargetDevice.relocated_of_stays (by simpa using Ne.symm hne)
  unfold changeAddress
  rw [if_neg (by simpa [UInt8.not_lt] using hrange)]
  cases hposition : table.position move.old with
  | none => exact absurd hold (position_eq_none_iff.1 hposition)
  | some place =>
      simp only [position_eq_none_iff.2 hfree, Option.any_none, Bool.false_eq_true, if_false,
        modify, h.modify_eq_map hposition, relocated, hmoved]

/-- A target does not move to an address that is in use. -/
theorem changeAddress_of_used (hne : move.old ≠ move.new) (hused : move.new ∈ table.addresses) :
    ∃ error, table.changeAddress move.old move.new = .error error := by
  cases hmove : table.changeAddress move.old move.new with
  | error error => exact ⟨error, rfl⟩
  | ok next =>
      obtain ⟨index, hold, -, -, hfree, -⟩ := changeAddress_eq_ok hmove
      obtain ⟨-, _, hfound⟩ := position_eq_some hold
      cases hnew : table.position move.new with
      | none => exact absurd hused (position_eq_none_iff.1 hnew)
      | some other =>
          obtain rfl := hfree other hnew
          obtain ⟨-, _, hthere⟩ := position_eq_some hnew
          exact absurd (hfound.symm.trans hthere) hne

/-- What reports no move is skipped. -/
theorem relocateAll_filter (outcomes : List AddressChangeOutcome) (moved : Nat) :
    table.relocateAll moved outcomes = table.relocateAll moved (outcomes.filter (·.isMove)) := by
  induction outcomes generalizing table moved with
  | nil => rfl
  | cons outcome outcomes ih =>
      by_cases hmove : outcome.isMove = true
      · rw [List.filter_cons_of_pos hmove, relocateAll, relocateAll]
        exact ih _
      · have hskipped : table.relocate outcome = (0, table) := by
          refine if_neg fun ⟨hsucceeded, hne⟩ ↦ hmove ?_
          simp [AddressChangeOutcome.isMove, hsucceeded, hne]
        rw [List.filter_cons_of_neg hmove, relocateAll, hskipped]
        exact ih _

/-- Moves that have been carried out, before others that have not been looked at. -/
structure Halfway (table : TargetTable) (done moves : List AddressChangeOutcome) : Prop where
  movable : ∀ move ∈ done ++ moves, move.isMove = true ∧ move.old ∈ table.addresses ∧
    move.new ≠ 0 ∧ move.new ≤ maxTargetAddress
  departures : (done ++ moves).Pairwise fun first second ↦ first.old ≠ second.old
  destinations : (done ++ moves).Pairwise fun first second ↦ first.new ≠ second.new
  /-- No target was moved to where another one still is. -/
  settled : ∀ earlier ∈ done, ∀ move ∈ moves, earlier.new ≠ move.old

/-- A move that is not carried out is passed over. -/
theorem Halfway.skip (h : table.Halfway done (move :: moves)) : table.Halfway done moves := by
  have hsublist : (done ++ moves).Sublist (done ++ move :: moves) :=
    (List.Sublist.refl done).append (List.sublist_cons_self move moves)
  exact ⟨fun other hother ↦ h.movable other (hsublist.subset hother),
    h.departures.sublist hsublist, h.destinations.sublist hsublist,
    fun earlier hearlier other hother ↦
      h.settled earlier hearlier other (List.mem_cons_of_mem move hother)⟩

/-- Nothing moves on from where a target is moved to. -/
theorem Halfway.carry (h : table.Halfway done (move :: moves))
    (hfree : ¬ (move.new ∈ table.addresses ∧ ∀ earlier ∈ done, earlier.old ≠ move.new)) :
    table.Halfway (done ++ [move]) moves := by
  have hsplit : done ++ move :: moves = (done ++ [move]) ++ moves := by simp
  refine ⟨hsplit ▸ h.movable, hsplit ▸ h.departures, hsplit ▸ h.destinations, ?_⟩
  intro earlier hearlier other hother heq
  rcases List.mem_append.1 hearlier with hearlier | hlast
  · exact h.settled earlier hearlier other (List.mem_cons_of_mem move hother) heq
  · obtain rfl := List.mem_singleton.1 hlast
    -- The target at the destination would have been moved before, and not once more.
    have hused := (h.movable other (by simp [hother])).2.1
    refine hfree ⟨heq ▸ hused, fun first hfirst hsame ↦ ?_⟩
    have hne := (List.pairwise_append.1 h.departures).2.2 first hfirst other
      (List.mem_cons_of_mem earlier hother)
    exact hne (hsame.trans heq)

/-- A move is carried out if its destination is free by then. -/
theorem Halfway.relocate (h : table.Halfway done (move :: moves))
    (hintegrity : Integrity (table.relocated done).devices) :
    (table.relocated done).relocate move =
      if move.new ∈ table.addresses ∧ ∀ earlier ∈ done, earlier.old ≠ move.new then
        (0, table.relocated done)
      else
        (1, table.relocated (done ++ [move])) := by
  obtain ⟨hmove, hold, hrange⟩ := h.movable move (by simp)
  have hdone (earlier) (hearlier : earlier ∈ done) := h.movable earlier (by simp [hearlier])
  have haddresses (address : UInt8) := mem_addresses_relocated address
    (fun earlier hearlier ↦ (hdone earlier hearlier).2.1) (List.pairwise_append.1 h.departures).1
    (fun earlier hearlier ↦ (hdone earlier hearlier).2.2.1)
  simp only [AddressChangeOutcome.isMove, Bool.and_eq_true, bne_iff_ne] at hmove
  unfold TargetTable.relocate
  rw [if_pos hmove]
  have hdestination : ∀ earlier ∈ done, earlier.new ≠ move.new := fun earlier hearlier ↦
    (List.pairwise_append.1 h.destinations).2.2 earlier hearlier move List.mem_cons_self
  by_cases hused : move.new ∈ table.addresses ∧ ∀ earlier ∈ done, earlier.old ≠ move.new
  · obtain ⟨error, herror⟩ := changeAddress_of_used hmove.2 ((haddresses _).2 (.inl hused))
    rw [if_pos hused, herror]
  · have hstarts : move.old ∈ (table.relocated done).addresses :=
      (haddresses _).2 (.inl ⟨hold, fun earlier hearlier ↦
        (List.pairwise_append.1 h.departures).2.2 earlier hearlier move List.mem_cons_self⟩)
    have hfree : move.new ∉ (table.relocated done).addresses := by
      rw [haddresses]
      rintro (hthere | ⟨earlier, hearlier, heq⟩)
      · exact hused hthere
      · exact hdestination earlier hearlier heq
    rw [if_neg hused, changeAddress_of_free hintegrity hstarts hrange hfree,
      relocated_concat fun earlier hearlier ↦ h.settled earlier hearlier move List.mem_cons_self]

/-- What is carried out of moves is what `carriedOut` says. -/
theorem Halfway.relocateAll (h : table.Halfway done moves)
    (hintegrity : Integrity (table.relocated done).devices) :
    (table.relocated done).relocateAll done.length moves =
      ((table.carriedOut done moves).length, table.relocated (table.carriedOut done moves)) := by
  induction moves generalizing done with
  | nil => rfl
  | cons move moves ih =>
      have hstep := h.relocate hintegrity
      rw [TargetTable.relocateAll, carriedOut]
      split at hstep
      next hused =>
        rw [hstep, if_pos hused]
        exact ih h.skip hintegrity
      next hfree =>
        have hnext : Integrity (table.relocated (done ++ [move])).devices := by
          have hkept := relocateAll_preserves (fun table ↦ Integrity table.devices)
            (fun _ _ _ _ hkept hstep ↦ hkept.changeAddress hstep) [move] 0 hintegrity
          rwa [TargetTable.relocateAll, hstep] at hkept
        have hrest := ih (h.carry hfree) hnext
        rw [List.length_append] at hrest
        rw [hstep, if_neg hfree]
        exact hrest

/-- Only what is listed is carried out. -/
theorem mem_carriedOut (hmem : move ∈ table.carriedOut done moves) :
    move ∈ done ∨ move ∈ moves := by
  induction moves generalizing done with
  | nil => exact .inl hmem
  | cons other moves ih =>
      unfold carriedOut at hmem
      split at hmem
      · exact (ih hmem).imp_right (List.mem_cons_of_mem other)
      · rcases ih hmem with hdone | hmoves
        · rcases List.mem_append.1 hdone with hdone | hlast
          · exact .inl hdone
          · exact .inr (List.mem_singleton.1 hlast ▸ List.mem_cons_self)
        · exact .inr (List.mem_cons_of_mem other hmoves)

/-- Moves are all carried out if none goes to an address that a later one leaves. -/
theorem carriedOut_of_inOrder (horder : InOrder moves)
    (hmoves : ∀ move ∈ moves, move.old ≠ move.new)
    (hvacated : ∀ move ∈ moves, move.new ∈ table.addresses →
      ∃ other ∈ done ++ moves, other.old = move.new) :
    table.carriedOut done moves = done ++ moves := by
  induction moves generalizing done with
  | nil => simp [carriedOut]
  | cons move moves ih =>
      obtain ⟨hlater, horder⟩ := List.pairwise_cons.1 horder
      obtain ⟨hmove, hmoves⟩ := List.forall_mem_cons.1 hmoves
      have hfree : ¬ (move.new ∈ table.addresses ∧ ∀ earlier ∈ done, earlier.old ≠ move.new) := by
        rintro ⟨hused, hstays⟩
        obtain ⟨other, hother, heq⟩ := hvacated move List.mem_cons_self hused
        rcases List.mem_append.1 hother with hdone | hother
        · exact hstays other hdone heq
        rcases List.mem_cons.1 hother with rfl | hother
        · exact hmove heq
        · exact hlater other hother heq.symm
      rw [carriedOut, if_neg hfree, ih horder hmoves]
      · simp
      · intro other hother hused
        simpa using hvacated other (List.mem_cons_of_mem move hother) hused

/-- If every target that is to be moved is moved, no move goes to an address that a later one
leaves. -/
theorem inOrder_of_carriedOut (h : table.Halfway done moves)
    (hall : ∀ move ∈ moves, ∃ other ∈ table.carriedOut done moves, other.old = move.old) :
    InOrder moves := by
  induction moves generalizing done with
  | nil => exact .nil
  | cons move moves ih =>
      obtain ⟨⟨other, hother, hsame⟩, hall⟩ := List.forall_mem_cons.1 hall
      have hdepartures := List.pairwise_append.1 h.departures
      rw [carriedOut] at hother hall
      split at hother
      · -- No other move starts where the one starts that was passed over.
        rcases mem_carriedOut hother with hdone | hlater
        · exact absurd hsame (hdepartures.2.2 other hdone move List.mem_cons_self)
        · exact absurd hsame.symm ((List.pairwise_cons.1 hdepartures.2.1).1 other hlater)
      next hfree =>
        rw [if_neg hfree] at hall
        refine List.pairwise_cons.2 ⟨fun later hlater heq ↦ hfree ⟨?_, fun earlier hearlier ↦ ?_⟩,
          ih (h.carry hfree) hall⟩
        · exact heq ▸ (h.movable later (by simp [hlater])).2.1
        · rw [heq]
          exact hdepartures.2.2 earlier hearlier later (List.mem_cons_of_mem move hlater)

variable {buffer : Bytes} {report : AddressChangeReport}

/-- At the start none of the moves has been carried out. -/
theorem Movable.halfway (h : table.Movable report.moves) : table.Halfway [] report.moves where
  movable move hmove :=
    ⟨(List.mem_filter.1 hmove).2, h.known move hmove, h.inRange move hmove⟩
  departures := h.departures
  destinations := h.destinations
  settled := List.forall_mem_nil _

/-- Of the moves of an answer those are carried out that `carriedOut` says. -/
theorem Movable.applyAddressChanges (h : table.Movable report.moves)
    (hintegrity : Integrity table.devices)
    (hdecode : AddressChangeReport.decode buffer = .ok report) :
    table.applyAddressChanges buffer =
      (.ok (table.carriedOut [] report.moves).length,
        table.relocated (table.carriedOut [] report.moves)) := by
  have hstart : table.relocated [] = table := relocated_nil
  have hall := h.halfway.relocateAll (hstart.symm ▸ hintegrity)
  rw [hstart, List.length_nil] at hall
  rw [TargetTable.applyAddressChanges, hdecode]
  dsimp only
  rw [relocateAll_filter, ← AddressChangeReport.moves, hall]

/-- Moves that are in order are all carried out. -/
theorem Movable.carriedOut_eq (h : table.Movable report.moves) (horder : InOrder report.moves) :
    table.carriedOut [] report.moves = report.moves := by
  refine carriedOut_of_inOrder horder (fun move hmove ↦ ?_) fun move hmove hused ↦ ?_
  · have hmove := (List.mem_filter.1 hmove).2
    simp only [AddressChangeOutcome.isMove, Bool.and_eq_true, bne_iff_ne] at hmove
    exact hmove.2
  · simpa using h.vacated move hmove hused

/-- Whether moves can be made all at once does not depend on their order. -/
theorem Movable.perm {others : List AddressChangeOutcome} (h : table.Movable moves)
    (hperm : others.Perm moves) : table.Movable others where
  known move hmove := h.known move (hperm.mem_iff.1 hmove)
  departures := (hperm.pairwise_iff fun hne ↦ Ne.symm hne).2 h.departures
  destinations := (hperm.pairwise_iff fun hne ↦ Ne.symm hne).2 h.destinations
  inRange move hmove := h.inRange move (hperm.mem_iff.1 hmove)
  vacated move hmove hused := by
    obtain ⟨other, hother, heq⟩ := h.vacated move (hperm.mem_iff.1 hmove) hused
    exact ⟨other, hperm.mem_iff.2 hother, heq⟩

/-- The targets are where the moves say exactly if no move goes to an address that a later one
leaves. -/
theorem Movable.relocated_carriedOut_iff (h : table.Movable report.moves) :
    table.relocated (table.carriedOut [] report.moves) = table.relocated report.moves ↔
      InOrder report.moves := by
  refine ⟨fun hsame ↦ inOrder_of_carriedOut h.halfway fun move hmove ↦ ?_,
    fun horder ↦ congrArg (table.relocated ·) (h.carriedOut_eq horder)⟩
  obtain ⟨-, device, hdevice, hold⟩ := mem_addresses_iff.1 (h.known move hmove)
  by_contra hstays
  -- A target that is not moved stays, but it should be at its new address.
  have hstays : device.relocated (table.carriedOut [] report.moves) = device :=
    TargetDevice.relocated_of_stays fun other hother heq ↦ hstays ⟨other, hother, heq.trans hold⟩
  have hthere := List.map_inj_left.1 (congrArg TargetTable.devices hsame) device hdevice
  rw [hstays, TargetDevice.relocated_of_mem h.departures hmove hold.symm] at hthere
  have hmoved := (List.mem_filter.1 hmove).2
  simp only [AddressChangeOutcome.isMove, Bool.and_eq_true, bne_iff_ne] at hmoved
  exact hmoved.2 (hold.symm.trans (congrArg TargetDevice.address hthere))

/-- In every table that operations lead to, let an answer report moves that can be made all at once.
Those are carried out whose destination was free from the start or has been left by a move that was
carried out before; their targets are moved, and all others stay. So all targets are where the
answer says exactly if no move goes to an address that a later one leaves, and answers that list the
same moves in two such orders do the same. -/
theorem applyAddressChanges_moves {history : List TableOperation}
    (hdecode : AddressChangeReport.decode buffer = .ok report)
    (hmoves : (TableOperation.run history).Movable report.moves) :
    let table := TableOperation.run history
    let done := table.carriedOut [] report.moves
    table.applyAddressChanges buffer = (.ok done.length, table.relocated done) ∧
    ((table.applyAddressChanges buffer).2 = table.relocated report.moves ↔
      InOrder report.moves) ∧
    ∀ other otherReport, AddressChangeReport.decode other = .ok otherReport →
      otherReport.moves.Perm report.moves → InOrder report.moves → InOrder otherReport.moves →
        table.applyAddressChanges other = table.applyAddressChanges buffer := by
  intro table done
  have hintegrity : Integrity table.devices := Integrity.nil.applyAll history
  have hall := hmoves.applyAddressChanges hintegrity hdecode
  refine ⟨hall, by rw [hall]; exact hmoves.relocated_carriedOut_iff, ?_⟩
  intro other otherReport hother hperm horder hotherOrder
  have hothers := hmoves.perm hperm
  rw [hall, hothers.applyAddressChanges hintegrity hother, hothers.carriedOut_eq hotherOrder,
    hmoves.carriedOut_eq horder, hperm.length_eq, relocated_perm hperm hmoves.departures]

/-- Three targets at the addresses 8, 9 and 10. -/
def threeTargets : List TableOperation :=
  [.insert (.ofPid 8 1), .insert (.ofPid 9 2), .insert (.ofPid 10 3)]

/-- The target at 9 is at 16 now and the one at 8 is at 9; the one at 10 could not be moved. -/
def roomFirst : AddressChangeReport :=
  ⟨[{ old := 9, new := 16 }, { old := 8, new := 9 }, { old := 10, new := 8, status := 1 }]⟩

/-- The same, but the target that makes room is listed last. -/
def roomLast : AddressChangeReport :=
  ⟨[{ old := 8, new := 9 }, { old := 9, new := 16 }, { old := 10, new := 8, status := 1 }]⟩

/-- Both targets are moved if the one that makes room is listed first. -/
theorem relocated_roomFirst :
    AddressChangeReport.decode [3, 0, 0, 0, 9, 16, 0, 0, 8, 9, 0, 0, 10, 8, 1, 0] =
      .ok roomFirst ∧
    (TableOperation.run threeTargets).Movable roomFirst.moves ∧ InOrder roomFirst.moves ∧
    ((TableOperation.run threeTargets).applyAddressChanges
      [3, 0, 0, 0, 9, 16, 0, 0, 8, 9, 0, 0, 10, 8, 1, 0]).2 =
        (TableOperation.run threeTargets).relocated roomFirst.moves ∧
    ((TableOperation.run threeTargets).relocated roomFirst.moves).addresses = [9, 16, 10] := by
  have hdecode : AddressChangeReport.decode [3, 0, 0, 0, 9, 16, 0, 0, 8, 9, 0, 0, 10, 8, 1, 0] =
      .ok roomFirst := by rfl
  have hmovable : (TableOperation.run threeTargets).Movable roomFirst.moves := by decide
  have horder : InOrder roomFirst.moves := by decide
  obtain ⟨-, hthere, -⟩ := applyAddressChanges_moves hdecode hmovable
  exact ⟨hdecode, hmovable, horder, hthere.2 horder, by decide⟩

/-- If it is listed last the other one stays where it is, although the answer says that it has
moved. So what becomes of the table depends on the order of the entries. -/
theorem not_relocated_roomLast :
    AddressChangeReport.decode [3, 0, 0, 0, 8, 9, 0, 0, 9, 16, 0, 0, 10, 8, 1, 0] = .ok roomLast ∧
    roomLast.outcomes.Perm roomFirst.outcomes ∧
    (TableOperation.run threeTargets).Movable roomLast.moves ∧
    ((TableOperation.run threeTargets).applyAddressChanges
      [3, 0, 0, 0, 8, 9, 0, 0, 9, 16, 0, 0, 10, 8, 1, 0]).2.addresses = [8, 16, 10] ∧
    ((TableOperation.run threeTargets).relocated roomLast.moves).addresses = [9, 16, 10] ∧
    ((TableOperation.run threeTargets).applyAddressChanges
      [3, 0, 0, 0, 9, 16, 0, 0, 8, 9, 0, 0, 10, 8, 1, 0]).2.addresses = [9, 16, 10] := by
  refine ⟨by rfl, by decide, by decide, by decide, by decide, by decide⟩

end TargetTable

end I3cHost
