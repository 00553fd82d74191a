import I3cHost.Codec.EntryList
import I3cHost.Proofs.Codec.Truncation

/-!
# Reading back counted lists

A list that is not too long for its count is written as its header and its entries, one after the
other, and it is read back from these bytes, whatever follows them (`decode_layout`). Nothing is
read from a part of them (`decode_take_endsEarly`), and every buffer that a list is read from begins
with its header and its entries (`eq_append_of_decode`).
-/

namespace I3cHost.EntryList

variable {α : Type} [Record α] {entries : List α} {writer : Writer}

/-- The header of a list, with some reserved bytes. -/
def header (count : Nat) (reserved : UInt8 × UInt8) : EntryCount :=
  { count := UInt16.ofNat count, reserved }

/-- The header of a list and its entries, one after the other. -/
def layout (entries : List α) : Bytes :=
  Record.toBytes ({ count := UInt16.ofNat entries.length } : EntryCount) ++
    entries.flatMap Record.toBytes

/-- Entries take as many bytes as one of them, as many times as there are. -/
theorem length_flatMap_toBytes (entries : List α) :
    (entries.flatMap Record.toBytes).length = entries.length * Record.size α := by
  simp only [List.length_flatMap, Record.length_toBytes, List.map_const', List.sum_replicate_nat]

/-- The bytes of a list are as many as its size says. -/
@[simp] theorem length_layout : (layout entries).length = size α entries.length := by
  rw [layout, List.length_append, Record.length_toBytes, length_flatMap_toBytes]
  rfl

/-- A list that is not too long is appended to what has been written. -/
theorem encode_of_fits (hcount : entries.length ≤ 65535) (h : writer.Fits (layout entries)) :
    encode entries writer = .ok (writer.extend (layout entries)) := by
  rw [encode, if_pos hcount]
  exact Writer.headed_of_fits (fun entry writer ↦ writer.record entry)
    (fun _ _ _ hentry ↦ Writer.record_of_fits hentry) h

/-- The count of a list that is not too long is its length. -/
theorem count_header {count : Nat} (hcount : count ≤ 65535) (reserved : UInt8 × UInt8) :
    (header count reserved).count.toNat = count := by
  rw [header, UInt16.toNat_ofNat', Nat.mod_eq_of_lt (by omega)]

/-- A list that is not too long is read back, whatever its reserved bytes are and whatever follows
it. -/
theorem decode_append (hcount : entries.length ≤ 65535) (reserved : UInt8 × UInt8) (rest : Bytes) :
    decode (Record.toBytes (header entries.length reserved) ++
      (entries.flatMap Record.toBytes ++ rest)) = .ok entries := by
  unfold decode
  simp only [Reader.ofBytes, Reader.record_append, bind, Except.bind, count_header hcount]
  rw [if_neg, Reader.records_append]
  · rfl
  · simp only [List.length_append, Record.length_toBytes, length_flatMap_toBytes, size,
      show Record.size EntryCount = 4 from rfl]
    omega

/-- A list is read back from its bytes, whatever stands behind them. -/
theorem decode_layout (hcount : entries.length ≤ 65535) (rest : Bytes) :
    decode (layout entries ++ rest) = .ok entries := by
  rw [layout, List.append_assoc]
  exact decode_append hcount (0, 0) rest

/-- No list is read from a part of its bytes. -/
theorem decode_take_endsEarly (hcount : entries.length ≤ 65535) (reserved : UInt8 × UInt8)
    {count : Nat} (h : count < (Record.toBytes (header entries.length reserved) ++
      entries.flatMap Record.toBytes).length) :
    EndsEarly count (decode (α := α) ((Record.toBytes (header entries.length reserved) ++
      entries.flatMap Record.toBytes).take count)) := by
  unfold decode
  rw [Reader.ofBytes, List.length_take_of_le (Nat.le_of_lt h)]
  refine Reader.record_take_bind (Nat.zero_add count).symm h fun _ _ _ ↦ ?_
  rw [List.length_append, Record.length_toBytes, length_flatMap_toBytes] at h
  dsimp only
  rw [count_header hcount, if_pos (show count < size α entries.length from h)]
  exact ⟨_, h, rfl⟩

/-- A buffer that a list is read from begins with the header and the entries of the list. -/
theorem eq_append_of_decode {buffer : Bytes} (h : decode buffer = .ok entries) :
    entries.length ≤ 65535 ∧ ∃ reserved rest, buffer =
      Record.toBytes (header entries.length reserved) ++
        (entries.flatMap Record.toBytes ++ rest) := by
  unfold decode at h
  obtain ⟨⟨read, behindHeader⟩, hheader, h⟩ := bind_eq_ok_iff.1 h
  dsimp only at h
  split at h
  next => cases h
  next =>
    obtain ⟨⟨values, behind⟩, hentries, h⟩ := bind_eq_ok_iff.1 h
    cases h
    obtain ⟨hlength, hrest⟩ := Reader.eq_append_of_records hentries
    have hcount : header values.length read.reserved = read := by
      rw [header, hlength, UInt16.ofNat_toNat]
    refine ⟨hlength ▸ Nat.le_of_lt_succ read.count.toNat_lt, read.reserved, behind.rest, ?_⟩
    rw [hcount, ← hrest]
    exact Reader.eq_append_of_record hheader

end I3cHost.EntryList
