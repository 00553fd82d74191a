import I3cHost.Bulk.Response
import I3cHost.Proofs.Codec.Reading

/-!
# The layout of answers and its inverse

Every answer can be written, and an answer that a device can give is read back from what is
written: its data is short enough for its descriptor to declare, and its status is one that is
reported with a byte. Both go through the layout of a transfer as a function of its answers.
-/

namespace I3cHost

namespace CommandStatus

/-- A status that was reported with a byte is written as this byte. -/
theorem byte_of_ofByte {code : UInt8} {status : CommandStatus} (h : ofByte code = .ok status) :
    status.byte = code := by
  unfold ofByte at h
  split at h
  case h_10 => cases h
  case h_11 => cases h; rfl
  all_goals
    cases h
    exact UInt8.toNat_inj.1 (Eq.symm ‹_›)

/-- Only the code that is reserved for the host is refused. -/
theorem exists_ofByte_iff {code : UInt8} :
    (∃ status, ofByte code = .ok status) ↔ code ≠ 0xFF := by
  constructor
  · rintro ⟨status, hstatus⟩ rfl
    cases hstatus
  · intro hcode
    unfold ofByte
    split
    case h_10 hreserved => exact absurd (UInt8.toNat_inj.1 hreserved) hcode
    all_goals exact ⟨_, rfl⟩

end CommandStatus

namespace ResponseFlags

/-- The flag for data does not touch whether the command was attempted. -/
@[simp] theorem attempted_setHasData (attempted hasData : Bool) :
    ((setAttempted {} attempted).setHasData hasData).attempted = attempted := by
  cases attempted <;> cases hasData <;> decide

/-- The flag for data is read back as it was set. -/
@[simp] theorem hasData_setHasData (attempted hasData : Bool) :
    ((setAttempted {} attempted).setHasData hasData).hasData = hasData := by
  cases attempted <;> cases hasData <;> decide

end ResponseFlags

namespace CommandResponse

/-- An answer says what a descriptor says. How much data comes with it is left open. -/
structure Conveys (response : CommandResponse) (descriptor : ResponseDescriptor) : Prop where
  id : response.id = descriptor.id
  attempted : response.attempted = descriptor.flags.attempted
  hasData : response.hasData = descriptor.flags.hasData
  status : CommandStatus.ofByte descriptor.status = .ok response.status

/-- A device can give the answer: its descriptor can declare the length of the data, and some byte
reports the status. -/
structure Reportable (response : CommandResponse) : Prop where
  length_lt : response.data.length < UInt32.size
  status : ∃ code, CommandStatus.ofByte code = .ok response.status

/-- The bytes of an answer: descriptor and data. -/
def layout (response : CommandResponse) : Bytes :=
  Record.toBytes response.descriptor ++ Bytes.padded response.data

variable {response : CommandResponse} {descriptor : ResponseDescriptor} {padding : Bytes}

/-- As many bytes are set aside for an answer as it takes. -/
theorem length_layout (response : CommandResponse) :
    response.layout.length = response.encodedSize := by
  simp [layout, encodedSize]

/-- Every answer takes at least the bytes of its descriptor. -/
theorem length_layout_pos (response : CommandResponse) : 0 < response.layout.length := by
  simp only [layout, List.length_append, Record.length_toBytes, Record.size]
  omega

/-- An answer that fits is appended to what has been written. -/
theorem encode_of_fits {writer : Writer} (h : writer.Fits response.layout) :
    response.encode writer = .ok (writer.extend response.layout) :=
  Writer.headed_payload_of_fits h

/-- The descriptor of an answer that a device can give declares the length of the data. -/
theorem Reportable.declared (h : response.Reportable) :
    response.data.length = response.descriptor.dataLength.toNat := by
  rw [CommandResponse.descriptor, UInt32.toNat_ofNat', Nat.mod_eq_of_lt h.length_lt]

/-- An answer that a device can give says what its descriptor says. -/
theorem Reportable.conveys (h : response.Reportable) : response.Conveys response.descriptor where
  id := rfl
  attempted := by simp [CommandResponse.descriptor]
  hasData := by simp [CommandResponse.descriptor]
  status := by
    obtain ⟨code, hcode⟩ := h.status
    rw [CommandResponse.descriptor, CommandStatus.byte_of_ofByte hcode, hcode]

/-- As much data as the descriptor declares is read behind it, whether or not it says that there is
any. -/
theorem Conveys.read (h : response.Conveys descriptor)
    (hlength : response.data.length = descriptor.dataLength.toNat)
    (hpadding : padding.length = Bytes.paddedLength response.data.length - response.data.length)
    (rest : Bytes) (offset total : Nat) :
    CommandResponse.read
      ⟨Record.toBytes descriptor ++ (response.data ++ padding ++ rest), offset, total⟩ =
      .ok (response, ⟨rest, offset + response.encodedSize, total⟩) := by
  obtain ⟨id, attempted, status, hasData, data⟩ := response
  obtain ⟨rfl, rfl, rfl, hstatus⟩ := h
  dsimp only at hlength hpadding hstatus
  simp only [CommandResponse.read, Reader.record_append, ← hlength,
    Reader.payload_append hpadding, bind, Except.bind, pure, Except.pure, hstatus]
  simp [encodedSize, Nat.add_assoc]

/-- An answer that was read says what its descriptor says, and its data is as long as the
descriptor declares. -/
theorem read_eq_ok {reader next : Reader} (h : read reader = .ok (response, next)) :
    ∃ (descriptor : ResponseDescriptor) (padding : Bytes), response.Conveys descriptor ∧
      response.data.length = descriptor.dataLength.toNat ∧
      padding.length = Bytes.paddedLength response.data.length - response.data.length ∧
      reader.rest = Record.toBytes descriptor ++ (response.data ++ padding ++ next.rest) := by
  unfold read at h
  simp only [bind_eq_ok_iff, Prod.exists] at h
  obtain ⟨descriptor, behindDescriptor, hdescriptor, data, behindData, hdata, status, hstatus, h⟩ :=
    h
  cases h
  obtain ⟨hlength, padding, hpadding, hrest⟩ := Reader.eq_append_of_payload hdata
  refine ⟨descriptor, padding, ⟨rfl, rfl, rfl, hstatus⟩, hlength, hlength ▸ hpadding, ?_⟩
  rw [Reader.eq_append_of_record hdescriptor, hrest]

/-- Every answer takes at least the bytes of its descriptor when it is read. -/
theorem advances_read : Reader.Advances read := by
  intro reader response next h
  obtain ⟨descriptor, padding, -, -, -, hrest⟩ := read_eq_ok h
  rw [hrest, List.length_append, List.length_append, Record.length_toBytes]
  simp only [Record.size]
  omega

/-- An answer that a device can give is read back from its layout, whatever follows. -/
theorem Reportable.read_layout (h : response.Reportable) (rest : Bytes) (offset total : Nat) :
    CommandResponse.read ⟨response.layout ++ rest, offset, total⟩ =
      .ok (response, ⟨rest, offset + response.layout.length, total⟩) := by
  rw [length_layout, layout, Bytes.padded, List.append_assoc]
  exact h.conveys.read h.declared (by simp) rest offset total

end CommandResponse

namespace BulkResponse

/-- The bytes of a transfer that consists of answers. -/
def layout (responses : List CommandResponse) : Bytes :=
  Record.toBytes BulkResponseTag.regularCommand.header ++
    responses.flatMap CommandResponse.layout

variable {responses : List CommandResponse}

/-- Answers are written as their layout. -/
theorem toBytes_regular (responses : List CommandResponse) :
    Message.toBytes (.regular responses : BulkResponse) = .ok (layout responses) := by
  apply Message.toBytes_of_fits
  · rw [layout, List.length_append, Record.length_toBytes,
      Bytes.length_flatMap fun response _ ↦ response.length_layout]
    rfl
  · intro writer hfits
    exact Writer.headed_of_fits CommandResponse.encode
      (fun response _ _ ↦ CommandResponse.encode_of_fits) hfits

/-- Behind the header of a transfer of answers there is at least one answer, and nothing else. -/
theorem decode_regular (reserved : UInt8 × UInt8 × UInt8) {rest : Bytes} (hrest : rest ≠ []) :
    decode (Record.toBytes { BulkResponseTag.regularCommand.header with reserved } ++ rest) =
      (Reader.items CommandResponse.read ⟨rest, 4, 4 + rest.length⟩).map .regular := by
  have htag : (Coded.ofByte BulkResponseTag.regularCommand.header.tag :
      CodecResult BulkResponseTag) = .ok .regularCommand := rfl
  have hnonempty : rest.isEmpty = false := by simpa using hrest
  simp only [decode, Reader.ofBytes, Reader.record_append, List.length_append,
    Record.length_toBytes, bind, Except.bind, htag, hnonempty, pure, Except.pure,
    Bool.false_eq_true, if_false]
  rfl

/-- Answers that a device can give are read back from their layout. -/
theorem decode_layout (hsome : responses ≠ []) (h : ∀ response ∈ responses, response.Reportable) :
    decode (layout responses) = .ok (.regular responses) := by
  have hrest : responses.flatMap CommandResponse.layout ≠ [] := by
    obtain ⟨first, others, rfl⟩ := List.exists_cons_of_ne_nil hsome
    intro hempty
    have := first.length_layout_pos
    simp [(List.append_eq_nil_iff.1 hempty).1] at this
  refine (decode_regular (0, 0, 0) hrest).trans ?_
  rw [Reader.items_flatMap
    (fun response hresponse rest offset ↦ (h response hresponse).read_layout rest offset _)
    fun response _ ↦ response.length_layout_pos]
  rfl

/-- An opaque transfer is written as its padded payload behind a header. -/
theorem encodeOpaque_of_fits {tag : BulkResponseTag} {payload : Bytes} {writer : Writer}
    (h : writer.Fits (Record.toBytes tag.header ++ Bytes.padded payload)) :
    encodeOpaque tag payload writer =
      .ok (writer.extend (Record.toBytes tag.header ++ Bytes.padded payload)) :=
  Writer.headed_payload_of_fits h

/-- An interrupt is written as its header and its padded payload. -/
theorem toBytes_ibi (payload : Bytes) :
    Message.toBytes (.ibi payload : BulkResponse) =
      .ok (Record.toBytes BulkResponseTag.ibi.header ++ Bytes.padded payload) :=
  Message.toBytes_of_fits (by simp [Message.encodedSize, encodedSize])
    fun _ ↦ encodeOpaque_of_fits

/-- A vendor-specific transfer is written as its header and its padded payload. -/
theorem toBytes_vendorSpecific (payload : Bytes) :
    Message.toBytes (.vendorSpecific payload : BulkResponse) =
      .ok (Record.toBytes BulkResponseTag.vendorSpecific.header ++ Bytes.padded payload) :=
  Message.toBytes_of_fits (by simp [Message.encodedSize, encodedSize])
    fun _ ↦ encodeOpaque_of_fits

/-- Everything behind the header of an opaque transfer is its payload. -/
theorem decode_payloadOnly (payload : Bytes) :
    decode (Record.toBytes BulkResponseTag.ibi.header ++ payload) = .ok (.ibi payload) ∧
    decode (Record.toBytes BulkResponseTag.vendorSpecific.header ++ payload) =
      .ok (.vendorSpecific payload) := by
  have hibi : (Coded.ofByte BulkResponseTag.ibi.header.tag : CodecResult BulkResponseTag) =
      .ok .ibi := rfl
  have hvendor : (Coded.ofByte BulkResponseTag.vendorSpecific.header.tag :
      CodecResult BulkResponseTag) = .ok .vendorSpecific := rfl
  simp only [decode, Reader.ofBytes, Reader.record_append, bind, Except.bind, hibi, hvendor, pure,
    Except.pure, and_self]

end BulkResponse

end I3cHost
