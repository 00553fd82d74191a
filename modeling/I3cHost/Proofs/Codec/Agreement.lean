import I3cHost.Proofs.Codec.Reading

/-!
# Buffers that differ only in bits without a meaning

Reserved bytes, undefined flags and padding are ignored when a buffer is read. A mask says of every
bit of a buffer whether it has a meaning, and two buffers that agree on a mask are the same up to
bits that are ignored. `Reader.ReadsAgreeing.items` carries what is known of the reading of one
item over to a buffer of many: the buffer agrees with what would be written for its items.
-/

namespace I3cHost

namespace Bytes

/-- A position within the front of a buffer. -/
theorem byte_append_left {front back : Bytes} {position : Nat} (h : position < front.length) :
    byte (front ++ back) position = front.byte position := by
  simp only [byte, List.getD_eq_getElem?_getD, List.getElem?_append_left h]

/-- A position behind the front of a buffer. -/
theorem byte_append_right {front back : Bytes} {position : Nat} (h : front.length ≤ position) :
    byte (front ++ back) position = back.byte (position - front.length) := by
  simp only [byte, List.getD_eq_getElem?_getD, List.getElem?_append_right h]

/-- A mask under which every bit of a number of bytes has a meaning. -/
def whole (count : Nat) : Bytes :=
  List.replicate count 0xFF

/-- The mask of a payload: its padding has no meaning. -/
def payloadMask (length : Nat) : Bytes :=
  whole length ++ zeros (paddedLength length - length)

/-- As many bytes as were asked for. -/
@[simp] theorem length_whole (count : Nat) : (whole count).length = count := by
  simp [whole]

/-- Two buffers that are as long as a mask are the same on the bits of the mask. -/
structure Agree (mask left right : Bytes) : Prop where
  length_left : left.length = mask.length
  length_right : right.length = mask.length
  bits : ∀ position, left.byte position &&& mask.byte position =
    right.byte position &&& mask.byte position

namespace Agree

variable {mask left right frontMask front front' backMask back back' : Bytes}

/-- A buffer agrees with itself on every mask of its length. -/
theorem refl (h : left.length = mask.length) : Agree mask left left :=
  ⟨h, h, fun _ ↦ rfl⟩

/-- No bytes differ nowhere. -/
theorem nil : Agree [] [] [] :=
  refl rfl

/-- Buffers agree if their first bytes do and what follows does. -/
theorem cons {maskByte leftByte rightByte : UInt8}
    (hfirst : leftByte &&& maskByte = rightByte &&& maskByte) (h : Agree mask left right) :
    Agree (maskByte :: mask) (leftByte :: left) (rightByte :: right) where
  length_left := by simp [h.length_left]
  length_right := by simp [h.length_right]
  bits
    | 0 => hfirst
    | position + 1 => h.bits position

/-- Buffers agree if their fronts do and what follows does. -/
theorem append (hfront : Agree frontMask front front') (hback : Agree backMask back back') :
    Agree (frontMask ++ backMask) (front ++ back) (front' ++ back') := by
  refine ⟨?_, ?_, fun position ↦ ?_⟩
  · rw [List.length_append, List.length_append, hfront.length_left, hback.length_left]
  · rw [List.length_append, List.length_append, hfront.length_right, hback.length_right]
  · have hleft := hfront.length_left
    have hright := hfront.length_right
    by_cases hposition : position < frontMask.length
    · rw [byte_append_left (by omega), byte_append_left (by omega),
        byte_append_left (by omega)]
      exact hfront.bits position
    · rw [byte_append_right (by omega), byte_append_right (by omega),
        byte_append_right (by omega), hleft, hright]
      exact hback.bits (position - frontMask.length)

/-- A payload with any padding agrees with the payload filled up with zeros. -/
theorem payload {data padding : Bytes}
    (h : padding.length = paddedLength data.length - data.length) :
    Agree (payloadMask data.length) (data ++ padding) (padded data) := by
  refine append (refl (by simp)) ⟨by simp [h], by simp, fun position ↦ ?_⟩
  have hzero : (zeros (paddedLength data.length - data.length)).byte position = 0 := by
    simp only [byte, zeros, List.getD_eq_getElem?_getD, List.getElem?_replicate]
    split <;> rfl
  rw [hzero, UInt8.and_zero, UInt8.and_zero]

end Agree

end Bytes

namespace Reader

variable {α : Type} {item : Reader → CodecResult (α × Reader)}

/-- Items of a kind are read from bytes that agree with their layouts. -/
def ReadsAgreeing (item : Reader → CodecResult (α × Reader)) (Kind : α → Prop)
    (mask layout : α → Bytes) : Prop :=
  ∀ reader value next, item reader = .ok (value, next) → Kind value ∧
    ∃ piece, reader.rest = piece ++ next.rest ∧ Bytes.Agree (mask value) piece (layout value)

variable {Kind : α → Prop} {mask layout : α → Bytes}

/-- An item whose mask is not empty takes at least one byte. -/
theorem ReadsAgreeing.advances (hitem : ReadsAgreeing item Kind mask layout)
    (hsize : ∀ value, 0 < (mask value).length) : Advances item := by
  intro reader value next hread
  obtain ⟨-, piece, hrest, hagree⟩ := hitem reader value next hread
  have hpiece := hagree.length_left
  have := hsize value
  rw [hrest, List.length_append]
  omega

/-- A buffer from which items were read agrees with the layouts of these items one by one. -/
theorem ReadsAgreeing.items (hitem : ReadsAgreeing item Kind mask layout)
    (hsize : ∀ value, 0 < (mask value).length) {values : List α} {reader : Reader}
    (h : items item reader = .ok values) :
    (∀ value ∈ values, Kind value) ∧
      Bytes.Agree (values.flatMap mask) reader.rest (values.flatMap layout) := by
  have hadvances := hitem.advances hsize
  induction values generalizing reader with
  | nil =>
      by_cases hrest : reader.rest = []
      · rw [hrest]
        exact ⟨by simp, .nil⟩
      · obtain ⟨_, _, _, _, _, hcons⟩ := (items_eq_ok_iff hadvances hrest).1 h
        cases hcons
  | cons value values ih =>
      by_cases hrest : reader.rest = []
      · rw [items_of_rest_nil hrest] at h
        cases h
      · obtain ⟨_, next, _, hread, hothers, hcons⟩ := (items_eq_ok_iff hadvances hrest).1 h
        cases hcons
        obtain ⟨hkind, piece, hpiece, hagree⟩ := hitem reader value next hread
        obtain ⟨hkinds, hagrees⟩ := ih hothers
        rw [hpiece]
        exact ⟨List.forall_mem_cons.2 ⟨hkind, hkinds⟩, hagree.append hagrees⟩

end Reader

end I3cHost
