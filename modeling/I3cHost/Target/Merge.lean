import I3cHost.Capability.Report
import I3cHost.Target.Table

/-!
# Merging reports into the table of targets

A report is checked as a whole before any of it is merged. Then its entries are merged in order:
an entry that matches a known target updates it, any other inserts a new target. A merge returns
the number of targets inserted together with the table it leaves behind.
-/

namespace I3cHost.TargetTable

/-- The index of the target that an entry of a capability report is about: the one with the same
static address, else the one with the same identifier. -/
def positionOfEntry (table : TargetTable) (entry : CapabilityEntry) : Option Nat :=
  (table.devices.findIdx? fun device ↦
      entry.staticAddress != 0 && device.capability.staticAddress == entry.staticAddress).or
    (table.positionOfPid entry.pid)

/-- Merges one entry of a capability report. Also returns how many targets it added. -/
def mergeEntry (table : TargetTable) (entry : CapabilityEntry) : HostResult (Nat × TargetTable) :=
  match table.positionOfEntry entry with
  | some index => .ok (0, table.modify index (·.applyCapabilityEntry entry))
  | none => do return (1, ← table.insert (.ofCapabilityEntry entry))

/-- Merges entries of a capability report one after the other, until one is refused. -/
def mergeEntries (table : TargetTable) (added : Nat) :
    List CapabilityEntry → HostResult Nat × TargetTable
  | [] => (.ok added, table)
  | entry :: entries =>
      match table.mergeEntry entry with
      | .ok (count, table) => table.mergeEntries (added + count) entries
      | .error error => (.error error, table)

/-- Merges the targets of a capability report. A report that lists an unreachable target is
refused as a whole. -/
def mergeCapability (table : TargetTable) (buffer : Bytes) : HostResult Nat × TargetTable :=
  match CapabilityReport.decode buffer with
  | .error error => (.error (.ofCodec error), table)
  | .ok report =>
      if report.targets.any fun entry ↦ (TargetDevice.ofCapabilityEntry entry).isUnreachable then
        (.error (.validation .unidentifiableDevice), table)
      else
        table.mergeEntries 0 report.targets

/-- The index of the target that a row of a listing is about: the one at the same address, else
the one with the same identifier. -/
def positionOfRow (table : TargetTable) (row : TargetRow) : Option Nat :=
  (table.position row.address).or (table.positionOfPid row.pid)

/-- Merges one row of a listing. Also returns how many targets it added. -/
def mergeRow (table : TargetTable) (row : TargetRow) : HostResult (Nat × TargetTable) :=
  match table.positionOfRow row with
  | some index => do
      let known := (table.devices[index]?).getD {}
      let device ← HostResult.ofCodec (known.applyRow row)
      return (0, table.modify index fun _ ↦ device)
  | none => do
      let device ← HostResult.ofCodec (TargetDevice.applyRow {} row)
      return (1, ← table.insert device)

/-- Merges rows of a listing one after the other, until one is refused. -/
def mergeRows (table : TargetTable) (added : Nat) :
    List TargetRow → HostResult Nat × TargetTable
  | [] => (.ok added, table)
  | row :: rows =>
      match table.mergeRow row with
      | .ok (count, table) => table.mergeRows (added + count) rows
      | .error error => (.error error, table)

/-- Whether the target of a row could not be told from others: its address is out of range, or it
has neither an address nor an identifier. -/
def isUnaddressable (row : TargetRow) : Bool :=
  row.address > maxTargetAddress || (row.address == 0 && row.pid.isZero)

/-- Merges the rows of a listing. A listing with an unaddressable row is refused as a whole. -/
def mergeListing (table : TargetTable) (buffer : Bytes) : HostResult Nat × TargetTable :=
  match TargetListing.decode buffer with
  | .error error => (.error (.ofCodec error), table)
  | .ok listing =>
      match listing.rows.find? isUnaddressable with
      | some row =>
          (.error (.ofCodec (.invalidField "target address" row.address.toUInt32)), table)
      | none => table.mergeRows 0 listing.rows

end I3cHost.TargetTable
