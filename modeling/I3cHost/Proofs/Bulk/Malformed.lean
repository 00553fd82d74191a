import I3cHost.Proofs.Bulk.Response

/-!
# Malformed transfers

Whether a block of a transfer is well-formed shows in three places: it is as long as its descriptor,
the length that the descriptor declares decides how much follows, and one status is reserved for
the host. A transfer with a block that is not well-formed is refused, whatever stands before and
behind that block (`decode_malformed`).
-/

namespace I3cHost

/-- Bytes that are one answer: a descriptor, as much padded data as it declares, and a status that a
device may report. -/
structure WellFormedBlock (block : Bytes) : Prop where
  length : block.length = 8 + Bytes.paddedLength (block.word32 4).toNat
  status : block.byte 3 ≠ 0xFF

/-- Bytes that do not begin with an answer: the descriptor or its data is cut off, or the status is
reserved. -/
structure MalformedBlock (bytes : Bytes) : Prop where
  some : bytes ≠ []
  broken : bytes.length < 8 + Bytes.paddedLength (bytes.word32 4).toNat ∨ bytes.byte 3 = 0xFF

/-- A transfer of answers in which one block is malformed. -/
def MalformedTransfer (bytes : Bytes) : Prop :=
  ∃ (reserved : UInt8 × UInt8 × UInt8) (blocks : List Bytes) (rest : Bytes),
    bytes = Record.toBytes { BulkResponseTag.regularCommand.header with reserved } ++
      (blocks.flatten ++ rest) ∧
    (∀ block ∈ blocks, WellFormedBlock block) ∧ MalformedBlock rest

/-- The status and the declared length of a descriptor are found in its bytes. -/
theorem byte_word32_descriptor (descriptor : ResponseDescriptor) (rest : Bytes) :
    (Record.toBytes descriptor ++ rest).byte 3 = descriptor.status ∧
      (Record.toBytes descriptor ++ rest).word32 4 = descriptor.dataLength := by
  simp [Record.toBytes, Bytes.ofWord16, Bytes.ofWord32, Bytes.word32]

/-- From a well-formed block an answer is read, whatever follows. -/
theorem WellFormedBlock.read {block : Bytes} (h : WellFormedBlock block) {rest : Bytes}
    {reader : Reader} (hrest : reader.rest = block ++ rest) :
    ∃ response next, CommandResponse.read reader = .ok (response, next) ∧ next.rest = rest := by
  have hsize : (block.take 8).length = Record.size ResponseDescriptor := by
    rw [List.length_take, h.length, Nat.min_eq_left (Nat.le_add_right _ _)]
    rfl
  obtain ⟨descriptor, payload, rfl⟩ : ∃ (descriptor : ResponseDescriptor) (payload : Bytes),
      block = Record.toBytes descriptor ++ payload :=
    ⟨Record.ofBytes (block.take 8), block.drop 8, by
      rw [Record.toBytes_ofBytes _ hsize, List.take_append_drop]⟩
  obtain ⟨hbyte, hword⟩ := byte_word32_descriptor descriptor payload
  obtain ⟨hlength, hreserved⟩ := h
  rw [hword, List.length_append, Record.length_toBytes] at hlength
  have hpayload : payload.length = Bytes.paddedLength descriptor.dataLength.toNat :=
    Nat.add_left_cancel hlength
  obtain ⟨status, hstatus⟩ := CommandStatus.exists_ofByte_iff.2 (hbyte ▸ hreserved)
  have hpadded := Bytes.le_paddedLength descriptor.dataLength.toNat
  have hdata : (payload.take descriptor.dataLength.toNat).length =
      descriptor.dataLength.toNat := by
    rw [List.length_take]
    omega
  have hconveys : CommandResponse.Conveys
      ⟨descriptor.id, descriptor.flags.attempted, status, descriptor.flags.hasData,
        payload.take descriptor.dataLength.toNat⟩ descriptor :=
    ⟨rfl, rfl, rfl, hstatus⟩
  have hpadding : (payload.drop descriptor.dataLength.toNat).length =
      Bytes.paddedLength (payload.take descriptor.dataLength.toNat).length -
        (payload.take descriptor.dataLength.toNat).length := by
    rw [List.length_drop, hpayload, hdata]
  have hread := hconveys.read hdata hpadding rest reader.offset reader.total
  rw [List.take_append_drop, ← List.append_assoc, ← hrest] at hread
  exact ⟨_, _, hread, rfl⟩

/-- From a malformed block no answer is read. -/
theorem MalformedBlock.read {reader : Reader} (h : MalformedBlock reader.rest) :
    ∃ error, CommandResponse.read reader = .error error := by
  cases hread : CommandResponse.read reader with
  | error error => exact ⟨error, rfl⟩
  | ok read =>
      obtain ⟨response, next⟩ := read
      obtain ⟨descriptor, padding, hconveys, hlength, hpadding, hrest⟩ :=
        CommandResponse.read_eq_ok hread
      obtain ⟨hstatus, hdeclared⟩ :=
        byte_word32_descriptor descriptor (response.data ++ padding ++ next.rest)
      rw [← hrest] at hstatus hdeclared
      have hreserved : descriptor.status ≠ 0xFF :=
        CommandStatus.exists_ofByte_iff.1 ⟨_, hconveys.status⟩
      have hpadded := Bytes.le_paddedLength response.data.length
      rcases h.broken with hshort | hstatus'
      · rw [hdeclared, ← hlength, hrest] at hshort
        simp only [List.length_append, Record.length_toBytes, Record.size, hpadding] at hshort
        omega
      · exact absurd (hstatus.symm.trans hstatus') hreserved

/-- Where a malformed block comes sooner or later, answers cannot be read to the end. -/
theorem items_malformed {blocks : List Bytes} {rest : Bytes}
    (hblocks : ∀ block ∈ blocks, WellFormedBlock block) (hrest : MalformedBlock rest)
    (reader : Reader) (h : reader.rest = blocks.flatten ++ rest) :
    ∃ error, reader.items CommandResponse.read = .error error := by
  induction blocks generalizing reader with
  | nil =>
      have hblock : MalformedBlock reader.rest := h ▸ hrest
      obtain ⟨error, herror⟩ := hblock.read
      refine ⟨error, ?_⟩
      rw [Reader.items_of_rest_ne_nil CommandResponse.advances_read (h ▸ hrest.some), herror]
      rfl
  | cons block blocks ih =>
      obtain ⟨hblock, hblocks⟩ := List.forall_mem_cons.1 hblocks
      rw [List.flatten_cons, List.append_assoc] at h
      obtain ⟨response, next, hread, hnext⟩ := hblock.read h
      obtain ⟨error, herror⟩ := ih hblocks next hnext
      have hsome : reader.rest ≠ [] := by
        rw [h]
        refine List.append_ne_nil_of_left_ne_nil (List.ne_nil_of_length_pos ?_) _
        rw [hblock.length]
        omega
      refine ⟨error, ?_⟩
      rw [Reader.items_of_rest_ne_nil CommandResponse.advances_read hsome, hread]
      simp only [bind, Except.bind, herror]

/-- A transfer with a malformed block is refused. -/
theorem decode_malformed {bytes : Bytes} (h : MalformedTransfer bytes) :
    ∃ error, BulkResponse.decode bytes = .error error := by
  obtain ⟨reserved, blocks, rest, rfl, hblocks, hrest⟩ := h
  have hsome : blocks.flatten ++ rest ≠ [] := List.append_ne_nil_of_right_ne_nil _ hrest.some
  obtain ⟨error, herror⟩ := items_malformed hblocks hrest
    ⟨blocks.flatten ++ rest, 4, 4 + (blocks.flatten ++ rest).length⟩ rfl
  exact ⟨error, by rw [BulkResponse.decode_regular reserved hsome, herror]; rfl⟩

end I3cHost
