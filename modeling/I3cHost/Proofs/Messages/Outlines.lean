import I3cHost.Capability.Report
import I3cHost.Proofs.Bulk.Request
import I3cHost.Proofs.Bulk.Response
import I3cHost.Proofs.Codec.Outline
import I3cHost.Target.AddressChange
import I3cHost.Target.Listing

/-!
# The outlines of all messages

A list of records is its header and one piece for every entry, and has a fault and no pieces if the
header cannot count the entries. A capability report is its header and the targets, or the preamble
alone. A regular bulk transfer is its header and the pieces of its blocks one after the other, up to
the first write that declares another length than its payload has.
-/

namespace I3cHost

/-- Only an empty payload takes no bytes together with its padding. -/
theorem Bytes.paddedLength_eq_zero_iff {length : Nat} : paddedLength length = 0 ↔ length = 0 := by
  unfold paddedLength
  omega

namespace EntryList

variable {α : Type} [Record α]

/-- The outline of a list that is counted with two bytes. -/
def outline (entries : List α) : Outline :=
  .checked (entries.length ≤ 65535)
    (.invalidField "entry count" (UInt32.ofNat entries.length))
    (.records ({ count := UInt16.ofNat entries.length } : EntryCount) entries)

/-- A list is written as its outline. -/
theorem encode_eq_outline (entries : List α) (writer : Writer) :
    encode entries writer = (outline entries).write writer := by
  rw [outline, Outline.write_checked, Outline.write_records]
  rfl

/-- The outline of a list takes no more than its size. -/
theorem length_bytes_outline_le (entries : List α) :
    (outline entries).bytes.length ≤ size α entries.length :=
  Outline.length_bytes_checked_le (Nat.le_of_eq (Outline.length_bytes_records _ entries))

/-- A list that can be counted takes as many bytes as are set aside for it. -/
theorem length_bytes_outline {entries : List α} (h : (outline entries).fault? = none) :
    (outline entries).bytes.length = size α entries.length := by
  rw [outline, Outline.checked_of_fault? h, Outline.length_bytes_records]
  rfl

end EntryList

instance : Outlined TargetListing where
  outline listing := EntryList.outline listing.rows
  encode_eq listing := EntryList.encode_eq_outline listing.rows
  length_bytes_le listing := EntryList.length_bytes_outline_le listing.rows

instance : Outlined AddressChangeRequest where
  outline request := EntryList.outline request.entries
  encode_eq request := EntryList.encode_eq_outline request.entries
  length_bytes_le request := EntryList.length_bytes_outline_le request.entries

instance : Outlined AddressChangeReport where
  outline report := EntryList.outline report.outcomes
  encode_eq report := EntryList.encode_eq_outline report.outcomes
  length_bytes_le report := EntryList.length_bytes_outline_le report.outcomes

namespace ConfigChange

/-- The outline of new configurations, which are counted with one byte. -/
def outline (change : ConfigChange) : Outline :=
  .checked (change.entries.length ≤ 255)
    (.invalidField "target config entry count" (UInt32.ofNat change.entries.length))
    (.records ({ commandType, count := UInt8.ofNat change.entries.length } : ConfigChangeHeader)
      change.entries)

instance : Outlined ConfigChange where
  outline := outline
  encode_eq change writer := by
    rw [outline, Outline.write_checked, Outline.write_records]
    rfl
  length_bytes_le change :=
    Outline.length_bytes_checked_le (Nat.le_of_eq (Outline.length_bytes_records _ change.entries))

/-- New configurations that can be counted take as many bytes as are set aside for them. -/
theorem length_bytes_outline {change : ConfigChange} (h : change.outline.fault? = none) :
    change.outline.bytes.length = Message.encodedSize change := by
  rw [outline, Outline.checked_of_fault? h, Outline.length_bytes_records]
  rfl

end ConfigChange

namespace CapabilityReport

/-- The outline of a report: the header and the targets, or the preamble alone. -/
def outline (report : CapabilityReport) : Outline :=
  if report.hasData then .records report.writtenHeader report.targets
  else .record report.writtenPreamble

/-- A report takes as many bytes as are set aside for it. -/
theorem length_bytes_outline (report : CapabilityReport) :
    report.outline.bytes.length = report.encodedSize := by
  rw [outline, encodedSize]
  split
  next => exact Outline.length_bytes_records _ report.targets
  next => exact Outline.length_bytes_record report.writtenPreamble

instance : Outlined CapabilityReport where
  outline := outline
  encode_eq report writer := by
    show report.encode writer = report.outline.write writer
    rw [encode, outline]
    split
    next => exact (Outline.write_records _ report.targets).symm
    next => exact (Outline.write_record report.writtenPreamble).symm
  length_bytes_le report := Nat.le_of_eq report.length_bytes_outline

end CapabilityReport

namespace CommandBlock

/-- What a block is written as: the payload of a write stands behind the descriptor. -/
def pieces (block : CommandBlock) : List Bytes :=
  [Record.toBytes block.header, Record.toBytes block.descriptor] ++
    if block.descriptor.isRead then [] else [Bytes.padded block.data]

/-- The outline of a block. A write has to declare the length that its payload has. -/
def outline (block : CommandBlock) : Outline :=
  let declared := block.descriptor.dataLength.toNat
  .checked (block.descriptor.isRead = false → declared = block.data.length)
    (.lengthMismatch declared block.data.length) ⟨block.pieces, none⟩

/-- A block is written as its outline. -/
theorem encode_eq_outline (block : CommandBlock) (writer : Writer) :
    block.encode writer = block.outline.write writer := by
  rw [outline, Outline.write_checked, Outline.write_pieces, encode]
  dsimp only
  by_cases hdeclared : block.descriptor.isRead = false →
      block.descriptor.dataLength.toNat = block.data.length
  · rw [if_pos hdeclared, if_neg (by simpa using hdeclared), pieces, List.cons_append,
      Writer.putAll_cons]
    congr 1
    funext behindHeader
    rw [List.cons_append, Writer.putAll_cons]
    congr 1
    funext behindDescriptor
    split
    next => rfl
    next => exact (bind_pure _).symm
  · rw [if_neg hdeclared, if_pos (by simpa using hdeclared)]
    rfl

variable {block : CommandBlock}

/-- The data of a read is not written, but bytes are set aside for it. -/
theorem encodedSize_eq_length_pieces (block : CommandBlock) :
    block.encodedSize = block.pieces.flatten.length +
      if block.descriptor.isRead then Bytes.paddedLength block.data.length else 0 := by
  rw [encodedSize, pieces]
  cases block.descriptor.isRead with
  | true => simp
  | false => simp [Nat.add_assoc]

/-- A block takes no more bytes than are set aside for it. -/
theorem length_bytes_outline_le (block : CommandBlock) :
    block.outline.bytes.length ≤ block.encodedSize := by
  refine Outline.length_bytes_checked_le ?_
  rw [encodedSize_eq_length_pieces]
  exact Nat.le_add_right _ _

/-- A block without a fault takes as many bytes as are set aside for it, unless it is a read that
carries data. -/
theorem length_bytes_outline_iff (h : block.outline.fault? = none) :
    block.outline.bytes.length = block.encodedSize ↔
      (block.descriptor.isRead = true → block.data = []) := by
  rw [outline, Outline.checked_of_fault? h, Outline.bytes, encodedSize_eq_length_pieces,
    Nat.left_eq_add]
  cases block.descriptor.isRead with
  | true => simp [Bytes.paddedLength_eq_zero_iff]
  | false => simp

end CommandBlock

namespace BulkRequest

/-- The outline of a request. -/
def outline : BulkRequest → Outline
  | .regular blocks => .headed BulkRequestTag.regularCommand.header CommandBlock.outline blocks
  | .vendorSpecific payload => .payload BulkRequestTag.vendorSpecific.header payload

instance : Outlined BulkRequest where
  outline := outline
  encode_eq request writer := by
    cases request with
    | regular blocks => exact (Outline.write_headed CommandBlock.encode_eq_outline).symm
    | vendorSpecific payload => exact (Outline.write_payload _ payload).symm
  length_bytes_le request := by
    cases request with
    | regular blocks => exact Outline.length_bytes_headed_le CommandBlock.length_bytes_outline_le
    | vendorSpecific payload => exact Nat.le_of_eq (Outline.length_bytes_payload _ payload)

/-- None of the reads of a request carries data. -/
def ReadsBare : BulkRequest → Prop
  | .regular blocks => ∀ block ∈ blocks, block.descriptor.isRead = true → block.data = []
  | .vendorSpecific _ => True

/-- A request without a fault takes as many bytes as are set aside for it, unless a read carries
data. -/
theorem length_bytes_outline_iff {request : BulkRequest} (h : request.outline.fault? = none) :
    request.outline.bytes.length = request.encodedSize ↔ request.ReadsBare := by
  cases request with
  | regular blocks =>
      refine (Outline.length_bytes_headed_iff CommandBlock.length_bytes_outline_le h).trans ?_
      refine forall₂_congr fun block hmem ↦ ?_
      exact CommandBlock.length_bytes_outline_iff (Outline.fault?_of_headed h block hmem)
  | vendorSpecific payload => exact iff_of_true (Outline.length_bytes_payload _ payload) trivial

end BulkRequest

namespace CommandResponse

/-- The outline of an answer. -/
def outline (response : CommandResponse) : Outline :=
  .payload response.descriptor response.data

/-- An answer is written as its outline. -/
theorem encode_eq_outline (response : CommandResponse) (writer : Writer) :
    response.encode writer = response.outline.write writer :=
  (Outline.write_payload response.descriptor response.data).symm

/-- An answer takes as many bytes as are set aside for it. -/
theorem length_bytes_outline (response : CommandResponse) :
    response.outline.bytes.length = response.encodedSize :=
  Outline.length_bytes_payload response.descriptor response.data

end CommandResponse

namespace BulkResponse

/-- The outline of a transfer. -/
def outline : BulkResponse → Outline
  | .regular responses =>
      .headed BulkResponseTag.regularCommand.header CommandResponse.outline responses
  | .ibi payload => .payload BulkResponseTag.ibi.header payload
  | .vendorSpecific payload => .payload BulkResponseTag.vendorSpecific.header payload

instance : Outlined BulkResponse where
  outline := outline
  encode_eq response writer := by
    cases response with
    | regular responses => exact (Outline.write_headed CommandResponse.encode_eq_outline).symm
    | ibi payload => exact (Outline.write_payload _ payload).symm
    | vendorSpecific payload => exact (Outline.write_payload _ payload).symm
  length_bytes_le response := by
    cases response with
    | regular responses =>
        exact Outline.length_bytes_headed_le fun response ↦
          Nat.le_of_eq response.length_bytes_outline
    | ibi payload => exact Nat.le_of_eq (Outline.length_bytes_payload _ payload)
    | vendorSpecific payload => exact Nat.le_of_eq (Outline.length_bytes_payload _ payload)

/-- A transfer takes as many bytes as are set aside for it. -/
theorem length_bytes_outline {response : BulkResponse} (h : response.outline.fault? = none) :
    response.outline.bytes.length = response.encodedSize := by
  cases response with
  | regular responses =>
      refine (Outline.length_bytes_headed_iff
        (fun response ↦ Nat.le_of_eq response.length_bytes_outline) h).2 fun response _ ↦ ?_
      exact response.length_bytes_outline
  | ibi payload => exact Outline.length_bytes_payload _ payload
  | vendorSpecific payload => exact Outline.length_bytes_payload _ payload

end BulkResponse

end I3cHost
