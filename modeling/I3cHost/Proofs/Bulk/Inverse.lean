import I3cHost.Proofs.Bulk.Request
import I3cHost.Proofs.Bulk.Response
import I3cHost.Proofs.Codec.Agreement

/-!
# Reading and writing of transfers are inverse to each other

What is written for a message is read back as the same message, and what is written for a message
that was read is what it was read from, up to bits without a meaning: the reserved bytes of the
headers, the undefined flags and the padding. `BulkRequest.inverse_requests` and
`BulkResponse.inverse_responses` say so in both directions, with the masks of the transfers as the
account of what is ignored. Opaque payloads come back with their padding, as nothing declares their
length.
-/

namespace I3cHost

/-- The bits of the header of a transfer that have a meaning. -/
def BulkHeader.mask : Bytes :=
  [0xFF, 0x00, 0x00, 0x00]

/-- Headers with the same tag agree. -/
theorem BulkHeader.agree {first second : BulkHeader} (htag : first.tag = second.tag) :
    Bytes.Agree mask (Record.toBytes first) (Record.toBytes second) := by
  have hreserved : ∀ left right : UInt8, left &&& 0x00 = right &&& 0x00 := by
    intro left right
    rw [UInt8.and_zero, UInt8.and_zero]
  simp only [Record.toBytes, mask, htag]
  exact .cons rfl (.cons (hreserved _ _) (.cons (hreserved _ _) (.cons (hreserved _ _) .nil)))

namespace CommandBlockFlags

/-- The defined flag of a byte is written back as it was read. -/
theorem setDependent_dependent (flags : CommandBlockFlags) :
    flags.raw &&& 0x01 = (setDependent {} flags.dependent).raw &&& 0x01 := by
  obtain ⟨⟨raw⟩⟩ := flags
  revert raw
  decide

end CommandBlockFlags

/-- The bits of the header of a block that have a meaning: all but the undefined flags and the
reserved byte. -/
def CommandBlockHeader.mask : Bytes :=
  [0xFF, 0xFF, 0x01, 0x00]

namespace CommandBlock

/-- The bits of a block that have a meaning. -/
def mask (block : CommandBlock) : Bytes :=
  CommandBlockHeader.mask ++ (Bytes.whole (Record.size CommandDescriptor) ++
    if block.descriptor.isRead then [] else Bytes.payloadMask block.data.length)

/-- Some bits of a block have a meaning. -/
theorem length_mask_pos (block : CommandBlock) : 0 < block.mask.length := by
  simp [mask, CommandBlockHeader.mask]

/-- A header agrees with the one that is written for the block that it belongs to. -/
theorem agree_header {block : CommandBlock} {header : CommandBlockHeader}
    (hid : block.id = header.id) (hdependent : block.dependent = header.flags.dependent) :
    Bytes.Agree CommandBlockHeader.mask (Record.toBytes header)
      (Record.toBytes block.header) := by
  have hflags := header.flags.setDependent_dependent
  rw [← hdependent] at hflags
  have hreserved : header.reserved &&& 0x00 = block.header.reserved &&& 0x00 := by
    rw [UInt8.and_zero, UInt8.and_zero]
  simp only [Record.toBytes, Bytes.ofWord16, CommandBlock.header, hid]
  exact .cons rfl (.cons rfl (.cons hflags (.cons hreserved .nil)))

/-- A block that was read is coherent, and what it was read from agrees with its layout. -/
theorem readsAgreeing_read : Reader.ReadsAgreeing read Coherent mask layout := by
  intro reader block next h
  unfold read at h
  simp only [bind_eq_ok_iff, Prod.exists] at h
  obtain ⟨header, behindHeader, hheader, descriptor, behindDescriptor, hdescriptor, h⟩ := h
  rw [Reader.eq_append_of_record hheader, Reader.eq_append_of_record hdescriptor]
  split at h
  next hread =>
    cases h
    refine ⟨⟨fun hwrite ↦ ?_, fun _ ↦ rfl⟩, Record.toBytes header ++ Record.toBytes descriptor,
      ?_, ?_⟩
    · exact absurd (hread.symm.trans hwrite) Bool.noConfusion
    · rw [List.append_assoc]
    · rw [mask, layout, payload, if_pos hread, if_pos hread, List.append_nil, List.append_nil]
      exact (agree_header rfl rfl).append (.refl (by simp))
  next hwrite =>
    simp only [bind_eq_ok_iff, Prod.exists] at h
    obtain ⟨data, behindData, hdata, h⟩ := h
    cases h
    obtain ⟨hlength, padding, hpadding, hrest⟩ := Reader.eq_append_of_payload hdata
    refine ⟨⟨fun _ ↦ hlength.symm, fun hread ↦ absurd hread hwrite⟩,
      Record.toBytes header ++ (Record.toBytes descriptor ++ (data ++ padding)), ?_, ?_⟩
    · simp only [hrest, List.append_assoc]
    · rw [mask, layout, payload, if_neg hwrite, if_neg hwrite]
      refine (agree_header rfl rfl).append (.append (.refl (by simp)) (.payload ?_))
      rw [hpadding, hlength]

end CommandBlock

namespace BulkRequest

/-- The bits of a request that have a meaning. -/
def mask (blocks : List CommandBlock) : Bytes :=
  BulkHeader.mask ++ blocks.flatMap CommandBlock.mask

/-- The blocks of a request that was read are coherent, and the buffer agrees with their layout. -/
theorem decode_eq_ok_regular {buffer : Bytes} {blocks : List CommandBlock}
    (h : decode buffer = .ok (.regular blocks)) :
    (∀ block ∈ blocks, block.Coherent) ∧ Bytes.Agree (mask blocks) buffer (layout blocks) := by
  unfold decode at h
  simp only [bind_eq_ok_iff, Prod.exists] at h
  obtain ⟨header, reader, hheader, tag, htag, h⟩ := h
  cases tag with
  | regularCommand =>
      simp only [bind_eq_ok_iff, pure, Except.pure, Except.ok.injEq, regular.injEq] at h
      obtain ⟨_, hitems, rfl⟩ := h
      have hbuffer := Reader.eq_append_of_record hheader
      obtain ⟨hcoherent, hagree⟩ :=
        CommandBlock.readsAgreeing_read.items CommandBlock.length_mask_pos hitems
      refine ⟨hcoherent, ?_⟩
      rw [show buffer = _ from hbuffer, mask, layout]
      exact (BulkHeader.agree (Coded.byte_of_ofByte htag).symm).append hagree
  | vendorSpecific => cases h

/-- Reading undoes writing for every coherent list of blocks, and for every vendor-specific payload
up to its padding. Writing undoes reading for every buffer of blocks: it succeeds, takes as many
bytes, is read as the same blocks, and differs from the buffer in ignored bits only. -/
theorem inverse_requests :
    (∀ blocks : List CommandBlock, (∀ block ∈ blocks, block.Coherent) →
      ∃ bytes, Message.toBytes (.regular blocks : BulkRequest) = .ok bytes ∧
        decode bytes = .ok (.regular blocks)) ∧
    (∀ payload : Bytes,
      ∃ bytes, Message.toBytes (.vendorSpecific payload : BulkRequest) = .ok bytes ∧
        decode bytes = .ok (.vendorSpecific (Bytes.padded payload))) ∧
    ∀ (buffer : Bytes) (blocks : List CommandBlock), decode buffer = .ok (.regular blocks) →
      ∃ bytes, Message.toBytes (.regular blocks : BulkRequest) = .ok bytes ∧
        bytes.length = buffer.length ∧ decode bytes = .ok (.regular blocks) ∧
        Bytes.Agree (mask blocks) buffer bytes := by
  refine ⟨fun blocks h ↦ ?_, fun payload ↦ ?_, fun buffer blocks h ↦ ?_⟩
  · exact ⟨layout blocks, toBytes_regular h, decode_layout h⟩
  · exact ⟨_, toBytes_vendorSpecific payload, decode_vendorSpecific _⟩
  · obtain ⟨hcoherent, hagree⟩ := decode_eq_ok_regular h
    exact ⟨layout blocks, toBytes_regular hcoherent,
      hagree.length_right.trans hagree.length_left.symm, decode_layout hcoherent, hagree⟩

/-- A write of three bytes followed by a read, with every ignored bit set. -/
def strayBits : Bytes :=
  [0, 0xFF, 0xFF, 0xFF] ++
    ([1, 0, 0xFF, 0xFF] ++ [0, 0, 8, 0, 0, 0, 0, 0, 3, 0, 0, 0, 0, 0, 0, 0] ++ [1, 2, 3, 0xFF]) ++
    ([2, 0, 0xFE, 0xFF] ++ [0, 1, 8, 0, 0, 0, 0, 0, 4, 0, 0, 0, 0, 0, 0, 0])

/-- The blocks that are read from the buffer with the ignored bits set. -/
def strayBlocks : List CommandBlock :=
  [⟨1, true, { target := 8, dataLength := 3 }, [1, 2, 3]⟩,
    ⟨2, false, { attributes := ⟨1⟩, target := 8, dataLength := 4 }, []⟩]

/-- Blocks are read from a buffer with all ignored bits set, and written without them. -/
theorem inverse_strayBits :
    ((∀ block ∈ strayBlocks, block.Coherent) ∧
      ∃ bytes, Message.toBytes (.regular strayBlocks : BulkRequest) = .ok bytes ∧
        decode bytes = .ok (.regular strayBlocks)) ∧
    decode strayBits = .ok (.regular strayBlocks) ∧
      ∃ bytes, Message.toBytes (.regular strayBlocks : BulkRequest) = .ok bytes ∧
        bytes.length = strayBits.length ∧ decode bytes = .ok (.regular strayBlocks) ∧
        Bytes.Agree (mask strayBlocks) strayBits bytes := by
  have hcoherent : ∀ block ∈ strayBlocks, block.Coherent := by
    rw [strayBlocks, List.forall_mem_cons, List.forall_mem_cons]
    refine ⟨⟨fun _ ↦ rfl, ?_⟩, ⟨?_, fun _ ↦ rfl⟩, by simp⟩
    · intro hread
      exact absurd hread (by decide)
    · intro hwrite
      exact absurd hwrite (by decide)
  have hdecode : decode strayBits = .ok (.regular strayBlocks) := rfl
  exact ⟨⟨hcoherent, inverse_requests.1 _ hcoherent⟩, hdecode, inverse_requests.2.2 _ _ hdecode⟩

end BulkRequest

namespace ResponseFlags

/-- The defined flags of a byte are written back as they were read. -/
theorem setHasData_hasData (flags : ResponseFlags) :
    flags.raw &&& 0x03 =
      ((setAttempted {} flags.attempted).setHasData flags.hasData).raw &&& 0x03 := by
  obtain ⟨⟨raw⟩⟩ := flags
  revert raw
  decide

end ResponseFlags

/-- The bits of the descriptor of an answer that have a meaning: all but the undefined flags. -/
def ResponseDescriptor.mask : Bytes :=
  [0xFF, 0xFF, 0x03] ++ Bytes.whole 5

namespace CommandResponse

/-- The bits of an answer that have a meaning. -/
def mask (response : CommandResponse) : Bytes :=
  ResponseDescriptor.mask ++ Bytes.payloadMask response.data.length

/-- Some bits of an answer have a meaning. -/
theorem length_mask_pos (response : CommandResponse) : 0 < response.mask.length := by
  simp [mask, ResponseDescriptor.mask]

/-- A descriptor agrees with the one that is written for an answer that says the same. -/
theorem Conveys.agree_descriptor {response : CommandResponse} {descriptor : ResponseDescriptor}
    (h : response.Conveys descriptor)
    (hlength : response.data.length = descriptor.dataLength.toNat) :
    Bytes.Agree ResponseDescriptor.mask (Record.toBytes descriptor)
      (Record.toBytes response.descriptor) := by
  have hflags := descriptor.flags.setHasData_hasData
  rw [← h.attempted, ← h.hasData] at hflags
  simp only [Record.toBytes, Bytes.ofWord16, CommandResponse.descriptor, h.id,
    CommandStatus.byte_of_ofByte h.status, hlength, UInt32.ofNat_toNat]
  exact .cons rfl (.cons rfl (.cons hflags (.refl rfl)))

/-- An answer that was read can be given by a device, and what it was read from agrees with its
layout. -/
theorem readsAgreeing_read : Reader.ReadsAgreeing read Reportable mask layout := by
  intro reader response next h
  obtain ⟨descriptor, padding, hconveys, hlength, hpadding, hrest⟩ := read_eq_ok h
  refine ⟨⟨?_, descriptor.status, hconveys.status⟩,
    Record.toBytes descriptor ++ (response.data ++ padding), ?_, ?_⟩
  · rw [hlength]
    exact descriptor.dataLength.toNat_lt
  · simp only [hrest, List.append_assoc]
  · exact (hconveys.agree_descriptor hlength).append (.payload hpadding)

end CommandResponse

namespace BulkResponse

/-- The bits of a transfer of answers that have a meaning. -/
def mask (responses : List CommandResponse) : Bytes :=
  BulkHeader.mask ++ responses.flatMap CommandResponse.mask

/-- A transfer of answers that was read has at least one answer, a device can give each of them, and
the buffer agrees with their layout. -/
theorem decode_eq_ok_regular {buffer : Bytes} {responses : List CommandResponse}
    (h : decode buffer = .ok (.regular responses)) :
    responses ≠ [] ∧ (∀ response ∈ responses, response.Reportable) ∧
      Bytes.Agree (mask responses) buffer (layout responses) := by
  unfold decode at h
  simp only [bind_eq_ok_iff, Prod.exists] at h
  obtain ⟨header, reader, hheader, tag, htag, h⟩ := h
  cases tag with
  | regularCommand =>
      dsimp only at h
      split at h
      next => cases h
      next hrest =>
        simp only [bind_eq_ok_iff, pure, Except.pure, Except.ok.injEq, regular.injEq] at h
        obtain ⟨_, hitems, rfl⟩ := h
        have hbuffer := Reader.eq_append_of_record hheader
        obtain ⟨hreportable, hagree⟩ :=
          CommandResponse.readsAgreeing_read.items CommandResponse.length_mask_pos hitems
        refine ⟨?_, hreportable, ?_⟩
        · -- Without an answer nothing would be left behind the header.
          rintro rfl
          have hlength := hagree.length_left
          exact hrest (List.isEmpty_iff_length_eq_zero.2 hlength)
        · rw [show buffer = _ from hbuffer, mask, layout]
          exact (BulkHeader.agree (Coded.byte_of_ofByte htag).symm).append hagree
  | ibi => cases h
  | vendorSpecific => cases h

/-- Reading undoes writing for every list of answers that a device can give, and for every opaque
payload up to its padding. Writing undoes reading for every buffer of answers: it takes as many
bytes, is read as the same answers, and differs from the buffer in ignored bits only. -/
theorem inverse_responses :
    (∀ responses : List CommandResponse, responses ≠ [] →
      (∀ response ∈ responses, response.Reportable) →
      ∃ bytes, Message.toBytes (.regular responses : BulkResponse) = .ok bytes ∧
        decode bytes = .ok (.regular responses)) ∧
    (∀ payload : Bytes,
      ∃ bytes, Message.toBytes (.ibi payload : BulkResponse) = .ok bytes ∧
        decode bytes = .ok (.ibi (Bytes.padded payload))) ∧
    (∀ payload : Bytes,
      ∃ bytes, Message.toBytes (.vendorSpecific payload : BulkResponse) = .ok bytes ∧
        decode bytes = .ok (.vendorSpecific (Bytes.padded payload))) ∧
    ∀ (buffer : Bytes) (responses : List CommandResponse),
      decode buffer = .ok (.regular responses) →
      ∃ bytes, Message.toBytes (.regular responses : BulkResponse) = .ok bytes ∧
        bytes.length = buffer.length ∧ decode bytes = .ok (.regular responses) ∧
        Bytes.Agree (mask responses) buffer bytes := by
  refine ⟨fun responses hsome h ↦ ?_, fun payload ↦ ?_, fun payload ↦ ?_,
    fun buffer responses h ↦ ?_⟩
  · exact ⟨layout responses, toBytes_regular responses, decode_layout hsome h⟩
  · exact ⟨_, toBytes_ibi payload, (decode_payloadOnly _).1⟩
  · exact ⟨_, toBytes_vendorSpecific payload, (decode_payloadOnly _).2⟩
  · obtain ⟨hsome, hreportable, hagree⟩ := decode_eq_ok_regular h
    exact ⟨layout responses, toBytes_regular responses,
      hagree.length_right.trans hagree.length_left.symm, decode_layout hsome hreportable, hagree⟩

/-- A read of five bytes with an undefined status followed by a write, with every ignored bit
set. -/
def undefinedBits : Bytes :=
  [0, 0xFF, 0xFF, 0xFF] ++
    ([1, 0, 0xFF, 9, 5, 0, 0, 0] ++ [1, 2, 3, 4, 5, 0xFF, 0xFF, 0xFF]) ++
    [2, 0, 0xFC, 5, 0, 0, 0, 0]

/-- The answers that are read from the buffer with the ignored bits set. -/
def undefinedAnswers : List CommandResponse :=
  [⟨1, true, .unknown 9, true, [1, 2, 3, 4, 5]⟩, ⟨2, false, .nack, false, []⟩]

/-- Answers are read from a buffer with all ignored bits set, and written without them. -/
theorem inverse_undefinedBits :
    (undefinedAnswers ≠ [] ∧ (∀ response ∈ undefinedAnswers, response.Reportable) ∧
      ∃ bytes, Message.toBytes (.regular undefinedAnswers : BulkResponse) = .ok bytes ∧
        decode bytes = .ok (.regular undefinedAnswers)) ∧
    decode undefinedBits = .ok (.regular undefinedAnswers) ∧
      ∃ bytes, Message.toBytes (.regular undefinedAnswers : BulkResponse) = .ok bytes ∧
        bytes.length = undefinedBits.length ∧ decode bytes = .ok (.regular undefinedAnswers) ∧
        Bytes.Agree (mask undefinedAnswers) undefinedBits bytes := by
  have hsome : undefinedAnswers ≠ [] := List.cons_ne_nil _ _
  have hreportable : ∀ response ∈ undefinedAnswers, response.Reportable := by
    rw [undefinedAnswers, List.forall_mem_cons, List.forall_mem_cons]
    exact ⟨⟨by decide, 9, rfl⟩, ⟨by decide, 5, rfl⟩, by simp⟩
  have hdecode : decode undefinedBits = .ok (.regular undefinedAnswers) := rfl
  exact ⟨⟨hsome, hreportable, inverse_responses.1 _ hsome hreportable⟩, hdecode,
    inverse_responses.2.2.2 _ _ hdecode⟩

end BulkResponse

end I3cHost
