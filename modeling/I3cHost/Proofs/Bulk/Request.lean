import I3cHost.Bulk.Request
import I3cHost.Proofs.Codec.RoundTrip

/-!
# The layout of requests and its inverse

A coherent request, in which writes declare the length of their data and reads carry none, is
always written, and reading what was written gives the request back: `toBytes_regular` and
`decode_layout`. Both go through the layout of a request as a function of its blocks.
-/

namespace I3cHost

namespace CommandBlockFlags

/-- The flag for dependence is read back as it was set. -/
@[simp] theorem dependent_setDependent (dependent : Bool) :
    (setDependent {} dependent).dependent = dependent := by
  cases dependent <;> decide

end CommandBlockFlags

namespace CommandBlock

/-- A write declares the length of its data, and a read carries none. -/
structure Coherent (block : CommandBlock) : Prop where
  declared : block.descriptor.isRead = false →
    block.descriptor.dataLength.toNat = block.data.length
  bare : block.descriptor.isRead = true → block.data = []

/-- The data of a block as it is written. -/
def payload (block : CommandBlock) : Bytes :=
  if block.descriptor.isRead then [] else Bytes.padded block.data

/-- The bytes of a block: header, descriptor and data. -/
def layout (block : CommandBlock) : Bytes :=
  Record.toBytes block.header ++ (Record.toBytes block.descriptor ++ block.payload)

variable {block : CommandBlock}

/-- As many bytes are set aside for a coherent block as it takes. -/
theorem Coherent.length_layout (h : block.Coherent) : block.layout.length = block.encodedSize := by
  unfold layout encodedSize payload
  cases hread : block.descriptor.isRead with
  | false => simp [Nat.add_assoc]
  | true => simp [h.bare hread, Bytes.paddedLength]

/-- Every block takes at least the bytes of its header. -/
theorem length_layout_pos (block : CommandBlock) : 0 < block.layout.length := by
  simp only [layout, List.length_append, Record.length_toBytes, Record.size]
  omega

/-- A coherent block that fits is appended to what has been written. -/
theorem Coherent.encode_of_fits (h : block.Coherent) {writer : Writer}
    (hfits : writer.Fits block.layout) :
    block.encode writer = .ok (writer.extend block.layout) := by
  have hdeclared : ¬ (block.descriptor.isRead = false ∧
      block.descriptor.dataLength.toNat ≠ block.data.length) :=
    fun hmismatch ↦ hmismatch.2 (h.declared hmismatch.1)
  obtain ⟨hheader, hrest⟩ := Writer.fits_append.1 hfits
  obtain ⟨hdescriptor, hpayload⟩ := Writer.fits_append.1 hrest
  simp only [encode, hdeclared, if_false, bind, Except.bind, pure, Except.pure,
    Writer.record_of_fits hheader, Writer.record_of_fits hdescriptor, layout]
  unfold payload at hpayload ⊢
  split
  next => simp
  next hread =>
    rw [if_neg hread, Writer.extend_extend] at hpayload
    simp [Writer.put_of_fits hpayload]

/-- A coherent block is read back from its layout, whatever follows. -/
theorem Coherent.read_layout (h : block.Coherent) (rest : Bytes) (offset total : Nat) :
    read ⟨block.layout ++ rest, offset, total⟩ =
      .ok (block, ⟨rest, offset + block.layout.length, total⟩) := by
  rw [h.length_layout]
  simp only [read, layout, List.append_assoc, Reader.record_append, bind, Except.bind, pure,
    Except.pure]
  cases hread : block.descriptor.isRead with
  | true =>
      obtain ⟨id, dependent, descriptor, data⟩ := block
      obtain rfl : data = [] := h.bare hread
      simp [payload, hread, header, encodedSize, Bytes.paddedLength, Nat.add_assoc]
  | false =>
      simp [payload, hread, h.declared hread, Reader.payload_padded_append, header, encodedSize,
        Nat.add_assoc]

end CommandBlock

namespace BulkRequest

/-- The bytes of a request that consists of blocks. -/
def layout (blocks : List CommandBlock) : Bytes :=
  Record.toBytes BulkRequestTag.regularCommand.header ++ blocks.flatMap CommandBlock.layout

variable {blocks : List CommandBlock}

/-- As many bytes are set aside for a coherent request as it takes. -/
theorem length_layout (h : ∀ block ∈ blocks, block.Coherent) :
    (layout blocks).length = encodedSize (.regular blocks) := by
  rw [layout, List.length_append, Record.length_toBytes,
    Bytes.length_flatMap fun block hblock ↦ (h block hblock).length_layout, encodedSize]

/-- A coherent request is written as its layout. -/
theorem toBytes_regular (h : ∀ block ∈ blocks, block.Coherent) :
    Message.toBytes (.regular blocks : BulkRequest) = .ok (layout blocks) := by
  apply Message.toBytes_of_fits (length_layout h)
  intro writer hfits
  exact Writer.headed_of_fits CommandBlock.encode
    (fun block hblock _ ↦ (h block hblock).encode_of_fits) hfits

/-- A coherent request is read back from its layout. -/
theorem decode_layout (h : ∀ block ∈ blocks, block.Coherent) :
    decode (layout blocks) = .ok (.regular blocks) := by
  have htag : (Coded.ofByte BulkRequestTag.regularCommand.header.tag : CodecResult BulkRequestTag) =
      .ok .regularCommand := rfl
  simp only [decode, layout, Reader.ofBytes, Reader.record_append, bind, Except.bind, htag, pure,
    Except.pure]
  rw [Reader.items_flatMap]
  · exact fun block hblock rest offset ↦ (h block hblock).read_layout rest offset _
  · exact fun block _ ↦ block.length_layout_pos

/-- A vendor-specific request is written as its padded payload behind a header. -/
theorem toBytes_vendorSpecific (payload : Bytes) :
    Message.toBytes (.vendorSpecific payload : BulkRequest) =
      .ok (Record.toBytes BulkRequestTag.vendorSpecific.header ++ Bytes.padded payload) := by
  apply Message.toBytes_of_fits
  · simp [Message.encodedSize, encodedSize]
  · exact fun _ hfits ↦ Writer.headed_payload_of_fits hfits

/-- Everything behind the header of a vendor-specific request is its payload. -/
theorem decode_vendorSpecific (payload : Bytes) :
    decode (Record.toBytes BulkRequestTag.vendorSpecific.header ++ payload) =
      .ok (.vendorSpecific payload) := by
  have htag : (Coded.ofByte BulkRequestTag.vendorSpecific.header.tag :
      CodecResult BulkRequestTag) = .ok .vendorSpecific := rfl
  simp only [decode, Reader.ofBytes, Reader.record_append, bind, Except.bind, htag, pure,
    Except.pure]

end BulkRequest

end I3cHost
