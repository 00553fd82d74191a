import I3cHost.Codec.Message

/-!
# Reading back what was written

The laws of readers and writers from which the round trip of every message follows. A piece that
fits is appended to what has been written, and a reader in front of such a piece gives it back and
stands behind it, whatever follows.
-/

namespace I3cHost

variable {α : Type}

namespace Writer

variable {writer : Writer} {piece front back : Bytes}

/-- The destination after a piece has been appended. -/
def extend (writer : Writer) (piece : Bytes) : Writer :=
  { writer with written := writer.written ++ piece }

/-- Whether there is room for a piece. -/
def Fits (writer : Writer) (piece : Bytes) : Prop :=
  writer.written.size + piece.length ≤ writer.capacity

/-- Writing nothing changes nothing. -/
@[simp] theorem extend_nil : writer.extend [] = writer := by
  simp [extend]

/-- Two pieces that are written one after the other are one piece. -/
@[simp] theorem extend_extend :
    (writer.extend front).extend back = writer.extend (front ++ back) := by
  simp only [extend, mk.injEq, true_and]
  apply Array.ext'
  simp

/-- A piece takes as many bytes as it has. -/
@[simp] theorem size_written_extend :
    (writer.extend piece).written.size = writer.written.size + piece.length := by
  rw [extend, ← Array.length_toList, Array.toList_appendList, List.length_append,
    Array.length_toList]

/-- There is room for two pieces together if there is for one after the other. -/
theorem fits_append :
    writer.Fits (front ++ back) ↔ writer.Fits front ∧ (writer.extend front).Fits back := by
  have hcapacity : (writer.extend front).capacity = writer.capacity := rfl
  simp only [Fits, size_written_extend, List.length_append, hcapacity]
  omega

/-- A piece that fits is appended. -/
theorem put_of_fits (h : writer.Fits piece) : writer.put piece = .ok (writer.extend piece) :=
  put_eq_ok h

/-- A record that fits is appended. -/
theorem record_of_fits [Record α] {value : α} (h : writer.Fits (Record.toBytes value)) :
    writer.record value = .ok (writer.extend (Record.toBytes value)) :=
  put_eq_ok h

/-- Values are appended in order if each is, and all of them fit. -/
theorem foldlM_of_fits (encode : α → Writer → CodecResult Writer) {layout : α → Bytes}
    {values : List α}
    (hencode : ∀ value ∈ values, ∀ writer : Writer, writer.Fits (layout value) →
      encode value writer = .ok (writer.extend (layout value)))
    (h : writer.Fits (values.flatMap layout)) :
    values.foldlM (fun writer value ↦ encode value writer) writer =
      .ok (writer.extend (values.flatMap layout)) := by
  induction values generalizing writer with
  | nil => simp [pure, Except.pure]
  | cons value values ih =>
      rw [List.flatMap_cons] at h ⊢
      obtain ⟨hvalue, hvalues⟩ := fits_append.1 h
      rw [List.foldlM_cons, hencode value List.mem_cons_self writer hvalue]
      simp only [bind, Except.bind]
      rw [ih (fun other hother ↦ hencode other (List.mem_cons_of_mem value hother)) hvalues,
        extend_extend]

/-- A header and the values behind it are appended if all of them fit. -/
theorem headed_of_fits {β : Type} [Record β] {header : β}
    (encode : α → Writer → CodecResult Writer) {layout : α → Bytes} {values : List α}
    (hencode : ∀ value ∈ values, ∀ writer : Writer, writer.Fits (layout value) →
      encode value writer = .ok (writer.extend (layout value)))
    (h : writer.Fits (Record.toBytes header ++ values.flatMap layout)) :
    (do let writer ← writer.record header
        values.foldlM (fun writer value ↦ encode value writer) writer) =
      .ok (writer.extend (Record.toBytes header ++ values.flatMap layout)) := by
  obtain ⟨hheader, hvalues⟩ := fits_append.1 h
  simp only [record_of_fits hheader, bind, Except.bind]
  rw [foldlM_of_fits encode hencode hvalues, extend_extend]

/-- A header and a padded payload behind it are appended if both fit. -/
theorem headed_payload_of_fits {β : Type} [Record β] {header : β} {payload : Bytes}
    (h : writer.Fits (Record.toBytes header ++ Bytes.padded payload)) :
    (do let writer ← writer.record header
        writer.put (Bytes.padded payload)) =
      .ok (writer.extend (Record.toBytes header ++ Bytes.padded payload)) := by
  obtain ⟨hheader, hpayload⟩ := fits_append.1 h
  simp only [record_of_fits hheader, bind, Except.bind]
  rw [put_of_fits hpayload, extend_extend]

end Writer

/-- Layouts that follow each other take as many bytes as they do one by one. -/
theorem Bytes.length_flatMap {layout : α → Bytes} {size : α → Nat} {values : List α}
    (h : ∀ value ∈ values, (layout value).length = size value) :
    (values.flatMap layout).length =
      values.foldr (fun value total ↦ size value + total) 0 := by
  induction values with
  | nil => rfl
  | cons value values ih =>
      rw [List.flatMap_cons, List.length_append, List.foldr_cons, h value List.mem_cons_self,
        ih fun other hother ↦ h other (List.mem_cons_of_mem value hother)]

/-- The bytes of a message are those that writing it appends, if as many are set aside for it. -/
theorem Message.toBytes_of_fits [Message α] {message : α} {bytes : Bytes}
    (hsize : bytes.length = encodedSize message)
    (hencode : ∀ writer : Writer, writer.Fits bytes →
      encode message writer = .ok (writer.extend bytes)) :
    toBytes message = .ok bytes := by
  have hfits : (Writer.ofCapacity (encodedSize message)).Fits bytes := by
    simp [Writer.Fits, Writer.ofCapacity, hsize]
  simp only [toBytes, hencode _ hfits, bind, Except.bind, pure, Except.pure]
  simp [Writer.extend, Writer.ofCapacity]

namespace Reader

variable {rest : Bytes} {offset total : Nat}

/-- Taking as many bytes as a piece has gives the piece. -/
theorem take_append (piece rest : Bytes) (offset total : Nat) :
    take piece.length ⟨piece ++ rest, offset, total⟩ =
      .ok (piece, ⟨rest, offset + piece.length, total⟩) := by
  rw [take_eq_ok (by simp)]
  simp

/-- A record that was written is read back. -/
theorem record_append [Record α] (value : α) :
    record ⟨Record.toBytes value ++ rest, offset, total⟩ =
      .ok (value, ⟨rest, offset + Record.size α, total⟩) := by
  have htake := take_append (Record.toBytes value) rest offset total
  rw [Record.length_toBytes] at htake
  simp [record, htake, bind, Except.bind, pure, Except.pure]

/-- Records that were written one after the other are read back behind those read before. -/
theorem recordsAfter_append [Record α] (values : List α) (before : Array α) :
    recordsAfter before values.length ⟨values.flatMap Record.toBytes ++ rest, offset, total⟩ =
      .ok (before ++ values, ⟨rest, offset + values.length * Record.size α, total⟩) := by
  induction values generalizing before offset with
  | nil => simp [recordsAfter]
  | cons value values ih =>
      rw [List.flatMap_cons, List.append_assoc, List.length_cons, recordsAfter]
      simp only [record_append, bind, Except.bind]
      rw [ih]
      simp only [Except.ok.injEq, Prod.mk.injEq, mk.injEq, true_and, and_true]
      exact ⟨by simp, by rw [Nat.succ_mul]; omega⟩

/-- Records that were written one after the other are read back in order. -/
theorem records_append [Record α] (values : List α) :
    records values.length ⟨values.flatMap Record.toBytes ++ rest, offset, total⟩ =
      .ok (values, ⟨rest, offset + values.length * Record.size α, total⟩) := by
  unfold records
  rw [recordsAfter_append]
  simp [bind, Except.bind, pure, Except.pure]

/-- A payload is read without its padding, whatever the padding consists of. -/
theorem payload_append {data padding : Bytes}
    (h : padding.length = Bytes.paddedLength data.length - data.length) :
    payload data.length ⟨data ++ padding ++ rest, offset, total⟩ =
      .ok (data, ⟨rest, offset + Bytes.paddedLength data.length, total⟩) := by
  have htake := take_append (data ++ padding) rest offset total
  have hlength : (data ++ padding).length = Bytes.paddedLength data.length := by
    have := Bytes.le_paddedLength data.length
    rw [List.length_append]
    omega
  rw [hlength] at htake
  simp only [payload, htake, bind, Except.bind, pure, Except.pure, List.take_left]

/-- A payload that was filled up with zeros is read back. -/
theorem payload_padded_append (data : Bytes) :
    payload data.length ⟨Bytes.padded data ++ rest, offset, total⟩ =
      .ok (data, ⟨rest, offset + Bytes.paddedLength data.length, total⟩) :=
  payload_append (by simp)

/-- Items that were written one after the other are read back in order, if each is read back
alone and takes at least one byte. -/
theorem itemsAfter_flatMap {item : Reader → CodecResult (α × Reader)} {layout : α → Bytes}
    {values : List α} {limit : Nat} (before : Array α)
    (hitem : ∀ value ∈ values, ∀ rest offset, item ⟨layout value ++ rest, offset, total⟩ =
      .ok (value, ⟨rest, offset + (layout value).length, total⟩))
    (hsize : ∀ value ∈ values, 0 < (layout value).length)
    (hlimit : (values.flatMap layout).length ≤ limit) :
    itemsAfter item before limit ⟨values.flatMap layout, offset, total⟩ =
      .ok (before ++ values) := by
  induction values generalizing before limit offset with
  | nil => cases limit <;> simp [itemsAfter]
  | cons value values ih =>
      have hfirst := hsize value List.mem_cons_self
      rw [List.flatMap_cons, List.length_append] at hlimit
      -- The item is not empty, so it leaves a smaller limit for the others.
      obtain ⟨limit, rfl⟩ : ∃ fewer, limit = fewer + 1 := ⟨limit - 1, by omega⟩
      have hnonempty : (layout value ++ values.flatMap layout).isEmpty = false := by
        rw [← Bool.not_eq_true, List.isEmpty_iff_length_eq_zero, List.length_append]
        omega
      rw [itemsAfter, List.flatMap_cons, hnonempty]
      simp only [hitem value List.mem_cons_self, bind, Except.bind, Bool.false_eq_true, if_false]
      rw [ih]
      · simp
      · exact fun other hother ↦ hitem other (List.mem_cons_of_mem value hother)
      · exact fun other hother ↦ hsize other (List.mem_cons_of_mem value hother)
      · omega

/-- Items that fill the rest of a buffer are read back in order. -/
theorem items_flatMap {item : Reader → CodecResult (α × Reader)} {layout : α → Bytes}
    {values : List α}
    (hitem : ∀ value ∈ values, ∀ rest offset, item ⟨layout value ++ rest, offset, total⟩ =
      .ok (value, ⟨rest, offset + (layout value).length, total⟩))
    (hsize : ∀ value ∈ values, 0 < (layout value).length) :
    items item ⟨values.flatMap layout, offset, total⟩ = .ok values := by
  unfold items
  rw [itemsAfter_flatMap #[] hitem hsize (Nat.le_refl _)]
  simp [bind, Except.bind, pure, Except.pure]

end Reader

end I3cHost
