import I3cHost.Target.AddressChange
import I3cHost.Target.Table

/-!
# Moving targets to new addresses

The answer to an address change moves the targets it names, in order. Outcomes that report a
failure or no change are skipped, and a move that the table refuses leaves the target where it is.
-/

namespace I3cHost.TargetTable

/-- Carries out one reported move. Also returns how many targets it moved. -/
def relocate (table : TargetTable) (outcome : AddressChangeOutcome) : Nat × TargetTable :=
  if outcome.succeeded ∧ outcome.old ≠ outcome.new then
    match table.changeAddress outcome.old outcome.new with
    | .ok table => (1, table)
    | .error _ => (0, table)
  else
    (0, table)

/-- Carries out reported moves one after the other. -/
def relocateAll (table : TargetTable) (moved : Nat) : List AddressChangeOutcome → Nat × TargetTable
  | [] => (moved, table)
  | outcome :: outcomes =>
      let (count, table) := table.relocate outcome
      table.relocateAll (moved + count) outcomes

/-- Carries out the moves of an answer and returns their number. -/
def applyAddressChanges (table : TargetTable) (buffer : Bytes) : HostResult Nat × TargetTable :=
  match AddressChangeReport.decode buffer with
  | .error error => (.error (.ofCodec error), table)
  | .ok report =>
      let (moved, table) := table.relocateAll 0 report.outcomes
      (.ok moved, table)

end I3cHost.TargetTable
