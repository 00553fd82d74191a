import I3cHost.Proofs.Bulk.Inverse
import I3cHost.Proofs.Codec.Truncation

/-!
# Transfers that are cut off

A transfer says nowhere how long it is, so a part of one can only be told from a whole one while its
blocks are read. `transfers_cut_off` says that this is enough: wherever a transfer is cut off, in a
header, a descriptor, a payload or its padding, it is refused, and between two blocks it is read as
the blocks before the cut. No block is read from a part of its bytes.
-/

namespace I3cHost

/-- A buffer is refused because it ends early, or the first blocks of a message are read from it,
but not all of them, and the buffer is what these blocks are written as. -/
def ReadsWholeBlocks {α μ : Type} [Message μ] (regular : List α → μ) (blocks : List α)
    (buffer : Bytes) : Prop :=
  EndsEarly buffer.length (Message.decode buffer : CodecResult μ) ∨
    ∃ front, Message.decode buffer = .ok (regular front) ∧ front <+: blocks ∧
      front.length < blocks.length ∧ Message.toBytes (regular front) = .ok buffer

/-- No coherent block is read from a part of its layout. -/
theorem CommandBlock.Coherent.endsEarlyWithin {block : CommandBlock} (h : block.Coherent) :
    Reader.EndsEarlyWithin CommandBlock.read CommandBlock.layout block := by
  intro count hcount offset total htotal
  refine Reader.record_take_bind htotal hcount fun count hcount htotal ↦ ?_
  refine Reader.record_take_bind htotal hcount fun count hcount htotal ↦ ?_
  dsimp only
  -- Only the payload can be cut off now, which a read does not have.
  rw [payload] at hcount ⊢
  split at hcount
  next => exact absurd hcount (Nat.not_lt_zero _)
  next hwrite =>
    rw [if_neg hwrite, if_neg hwrite, h.declared (by simpa using hwrite)]
    exact (Reader.payload_take htotal hcount).bind _

/-- No answer that a device can give is read from a part of its layout. -/
theorem CommandResponse.Reportable.endsEarlyWithin {response : CommandResponse}
    (h : response.Reportable) :
    Reader.EndsEarlyWithin CommandResponse.read CommandResponse.layout response := by
  intro count hcount offset total htotal
  refine Reader.record_take_bind htotal hcount fun count hcount htotal ↦ ?_
  dsimp only
  rw [← h.declared]
  exact (Reader.payload_take htotal hcount).bind _

namespace BulkRequest

/-- A coherent request that is cut off is refused or read as its first blocks. -/
theorem readsWholeBlocks_take {blocks : List CommandBlock}
    (h : ∀ block ∈ blocks, block.Coherent) {count : Nat} (hcount : count < (layout blocks).length) :
    ReadsWholeBlocks regular blocks ((layout blocks).take count) := by
  have htag : (Coded.ofByte BulkRequestTag.regularCommand.header.tag : CodecResult BulkRequestTag) =
      .ok .regularCommand := rfl
  have hlength : ((layout blocks).take count).length = count := by
    rw [List.length_take]
    omega
  rw [ReadsWholeBlocks, hlength]
  simp only [Message.decode, decode, Reader.ofBytes, hlength]
  rcases Reader.record_take (Nat.zero_add count).symm hcount with
    hearly | ⟨fewer, hfewer, hrest, hheader⟩
  · exact .inl (hearly.bind _)
  have hitems := Reader.items_take
    (CommandBlock.readsAgreeing_read.advances CommandBlock.length_mask_pos)
    (fun block hblock ↦ (h block hblock).read_layout)
    (fun block hblock ↦ (h block hblock).endsEarlyWithin) hfewer hrest
  rw [layout, hheader]
  simp only [bind, Except.bind, htag]
  rcases hitems with hearly | ⟨front, hfront, hbegins, hshorter, hbytes⟩
  · exact .inl (hearly.bind _)
  · rw [hfront]
    refine .inr ⟨front, rfl, hbegins, hshorter, ?_⟩
    rw [toBytes_regular fun block hblock ↦ h block (hbegins.subset hblock), layout, hbytes,
      Record.toBytes_append_take (by omega)]

end BulkRequest

namespace BulkResponse

/-- Answers that a device can give, cut off, are refused or read as the first of them. -/
theorem readsWholeBlocks_take {responses : List CommandResponse}
    (h : ∀ response ∈ responses, response.Reportable) {count : Nat}
    (hcount : count < (layout responses).length) :
    ReadsWholeBlocks regular responses ((layout responses).take count) := by
  have htag : (Coded.ofByte BulkResponseTag.regularCommand.header.tag :
      CodecResult BulkResponseTag) = .ok .regularCommand := rfl
  have hlength : ((layout responses).take count).length = count := by
    rw [List.length_take]
    omega
  rw [ReadsWholeBlocks, hlength]
  simp only [Message.decode, decode, Reader.ofBytes, hlength]
  rcases Reader.record_take (Nat.zero_add count).symm hcount with
    hearly | ⟨fewer, hfewer, hrest, hheader⟩
  · exact .inl (hearly.bind _)
  have hitems := Reader.items_take CommandResponse.advances_read
    (fun response hresponse ↦ (h response hresponse).read_layout)
    (fun response hresponse ↦ (h response hresponse).endsEarlyWithin) hfewer hrest
  rw [layout, hheader]
  simp only [bind, Except.bind, htag]
  split
  next hempty =>
    -- A header alone is not a transfer of answers.
    have hnone := List.isEmpty_iff_length_eq_zero.1 hempty
    rw [List.length_take] at hnone
    refine .inl ⟨_, ?_, rfl⟩
    have hdescriptor : 0 < Record.size ResponseDescriptor := by decide
    omega
  next =>
    rcases hitems with hearly | ⟨front, hfront, hbegins, hshorter, hbytes⟩
    · exact .inl (hearly.bind _)
    · rw [hfront]
      refine .inr ⟨front, rfl, hbegins, hshorter, ?_⟩
      rw [toBytes_regular, layout, hbytes, Record.toBytes_append_take (by omega)]

end BulkResponse

/-- A transfer whose bytes are read as it is, cut off anywhere before its end, is refused because it
ends early, or read as a transfer of its first blocks, whose bytes are the bytes that are left. -/
theorem transfers_cut_off :
    (∀ (blocks : List CommandBlock) (bytes : Bytes),
      Message.toBytes (.regular blocks : BulkRequest) = .ok bytes →
      BulkRequest.decode bytes = .ok (.regular blocks) →
      ∀ count < bytes.length, ReadsWholeBlocks BulkRequest.regular blocks (bytes.take count)) ∧
    ∀ (responses : List CommandResponse) (bytes : Bytes),
      Message.toBytes (.regular responses : BulkResponse) = .ok bytes →
      BulkResponse.decode bytes = .ok (.regular responses) →
      ∀ count < bytes.length,
        ReadsWholeBlocks BulkResponse.regular responses (bytes.take count) := by
  refine ⟨fun blocks bytes hbytes hdecode count hcount ↦ ?_,
    fun responses bytes hbytes hdecode count hcount ↦ ?_⟩
  · obtain ⟨hcoherent, -⟩ := BulkRequest.decode_eq_ok_regular hdecode
    rw [BulkRequest.toBytes_regular hcoherent] at hbytes
    cases hbytes
    exact BulkRequest.readsWholeBlocks_take hcoherent hcount
  · obtain ⟨-, hreportable, -⟩ := BulkResponse.decode_eq_ok_regular hdecode
    rw [BulkResponse.toBytes_regular] at hbytes
    cases hbytes
    exact BulkResponse.readsWholeBlocks_take hreportable hcount

/-- The write of three bytes and the read behind it, and the two answers, with a byte missing at the
end. -/
theorem transfers_cut_off_last_byte :
    (Message.toBytes (.regular BulkRequest.strayBlocks : BulkRequest) =
        .ok (BulkRequest.layout BulkRequest.strayBlocks) ∧
      BulkRequest.decode (BulkRequest.layout BulkRequest.strayBlocks) =
        .ok (.regular BulkRequest.strayBlocks) ∧
      47 < (BulkRequest.layout BulkRequest.strayBlocks).length ∧
      ReadsWholeBlocks BulkRequest.regular BulkRequest.strayBlocks
        ((BulkRequest.layout BulkRequest.strayBlocks).take 47)) ∧
    (Message.toBytes (.regular BulkResponse.undefinedAnswers : BulkResponse) =
        .ok (BulkResponse.layout BulkResponse.undefinedAnswers) ∧
      BulkResponse.decode (BulkResponse.layout BulkResponse.undefinedAnswers) =
        .ok (.regular BulkResponse.undefinedAnswers) ∧
      27 < (BulkResponse.layout BulkResponse.undefinedAnswers).length ∧
      ReadsWholeBlocks BulkResponse.regular BulkResponse.undefinedAnswers
        ((BulkResponse.layout BulkResponse.undefinedAnswers).take 27)) :=
  ⟨⟨rfl, rfl, by decide, transfers_cut_off.1 _ _ rfl rfl 47 (by decide)⟩,
    rfl, rfl, by decide, transfers_cut_off.2 _ _ rfl rfl 27 (by decide)⟩

/-- Behind its first block the transfer is whole again. -/
example : BulkRequest.decode ((BulkRequest.layout BulkRequest.strayBlocks).take 28) =
    .ok (.regular (BulkRequest.strayBlocks.take 1)) :=
  rfl

end I3cHost
