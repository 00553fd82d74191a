import I3cHost.Proofs.Codec.RoundTrip

/-!
# Pieces that are written one after the other

Pieces are written if there is room for all of them (`Writer.putAll_of_fits`); otherwise the first
that does not fit is refused (`Writer.putAll_of_short`).

In the destination a piece replaces the bytes at the position behind the piece before it
(`Bytes.place`). A writer that fills the front of a destination does the same
(`Writer.Fills.placeFrom`), so that nothing of what was there before is left between two pieces, and
nothing behind the last one is changed.
-/

namespace I3cHost

/-- Places pieces one after the other in a buffer, the first of them at an offset. Also returns the
position behind the last one. -/
def Bytes.placeFrom (offset : Nat) (buffer : Bytes) : List Bytes → CodecResult (Nat × Bytes)
  | [] => .ok (offset, buffer)
  | piece :: pieces => do
      let (offset, buffer) ← buffer.overwrite offset piece
      placeFrom offset buffer pieces

/-- Places pieces one after the other in a buffer, the first of them at its front. -/
def Bytes.place (pieces : List Bytes) (buffer : Bytes) : CodecResult (Nat × Bytes) :=
  placeFrom 0 buffer pieces

namespace Writer

variable {writer : Writer} {piece destination : Bytes} {pieces : List Bytes}

/-- A piece is written behind what was written before. -/
@[simp] theorem toList_written_extend :
    (writer.extend piece).written.toList = writer.written.toList ++ piece :=
  Array.toList_appendList

/-- Writes pieces one after the other. -/
def putAll (pieces : List Bytes) (writer : Writer) : CodecResult Writer :=
  pieces.foldlM (fun writer piece ↦ writer.put piece) writer

/-- Pieces are written one after the other. -/
theorem putAll_cons : writer.putAll (piece :: pieces) =
    (writer.put piece >>= fun writer ↦ writer.putAll pieces) :=
  rfl

/-- Pieces that fit together are appended. -/
theorem putAll_of_fits (h : writer.Fits pieces.flatten) :
    writer.putAll pieces = .ok (writer.extend pieces.flatten) := by
  induction pieces generalizing writer with
  | nil => simp [putAll, pure, Except.pure]
  | cons piece pieces ih =>
      rw [List.flatten_cons] at h ⊢
      obtain ⟨hpiece, hpieces⟩ := fits_append.1 h
      rw [putAll_cons, put_of_fits hpiece]
      show (writer.extend piece).putAll pieces = _
      rw [ih hpieces, extend_extend]

/-- Of pieces that do not fit together, the first that does not fit is refused with the position
that it would have reached. -/
theorem putAll_of_short (hroom : writer.written.size ≤ writer.capacity)
    (h : ¬ writer.Fits pieces.flatten) :
    ∃ needed, writer.capacity < needed ∧ needed ≤ writer.written.size + pieces.flatten.length ∧
      writer.putAll pieces = .error (.bufferTooShort needed writer.capacity) := by
  induction pieces generalizing writer with
  | nil => exact absurd hroom h
  | cons piece pieces ih =>
      rw [List.flatten_cons] at h ⊢
      rw [putAll_cons]
      by_cases hpiece : writer.Fits piece
      · have hlater : ¬ (writer.extend piece).Fits pieces.flatten :=
          fun hfits ↦ h (fits_append.2 ⟨hpiece, hfits⟩)
        have hstill : (writer.extend piece).written.size ≤ writer.capacity := by
          rw [size_written_extend]
          exact hpiece
        obtain ⟨needed, hmore, hwithin, hrefused⟩ := ih hstill hlater
        rw [size_written_extend] at hwithin
        refine ⟨needed, hmore, ?_, ?_⟩
        · rw [List.length_append]
          omega
        · rw [put_of_fits hpiece]
          exact hrefused
      · have hmore : writer.capacity < writer.written.size + piece.length := Nat.lt_of_not_le hpiece
        refine ⟨_, hmore, ?_, ?_⟩
        · rw [List.length_append]
          omega
        · rw [put_eq_error hmore]
          rfl

/-- A writer fills the front of a destination: it has the room of the destination and has not
written more than that. -/
structure Fills (writer : Writer) (destination : Bytes) : Prop where
  capacity : writer.capacity = destination.length
  room : writer.written.size ≤ destination.length

/-- What a destination holds whose front was filled, and the position behind what was written. -/
def laidOver (writer : Writer) (destination : Bytes) : Nat × Bytes :=
  (writer.written.size, writer.written.toList ++ destination.drop writer.written.size)

/-- Nothing was written to a destination yet. -/
theorem fills_ofCapacity (destination : Bytes) :
    (ofCapacity destination.length).Fills destination :=
  ⟨rfl, Nat.zero_le _⟩

/-- A writer that has written nothing leaves the destination as it is. -/
@[simp] theorem laidOver_ofCapacity (capacity : Nat) (destination : Bytes) :
    (ofCapacity capacity).laidOver destination = (0, destination) := by
  simp [laidOver, ofCapacity]

/-- A writer that was extended within the destination still fills its front. -/
theorem Fills.extend (h : writer.Fills destination) (hfits : writer.Fits piece) :
    (writer.extend piece).Fills destination where
  capacity := h.capacity
  room := by
    rw [size_written_extend, ← h.capacity]
    exact hfits

/-- Writing the next piece replaces the bytes of the destination at the position behind those that
were written before, and nothing else. -/
theorem Fills.overwrite (h : writer.Fills destination) (piece : Bytes) :
    Bytes.overwrite (writer.laidOver destination).2 (writer.laidOver destination).1 piece =
      (writer.put piece).map fun next ↦ next.laidOver destination := by
  obtain ⟨hcapacity, hroom⟩ := h
  have hlength : (writer.laidOver destination).2.length = writer.capacity := by
    simp only [laidOver, List.length_append, Array.length_toList, List.length_drop]
    omega
  by_cases hfits : writer.Fits piece
  · have hbehind : (writer.laidOver destination).2.drop (writer.written.size + piece.length) =
        destination.drop (writer.written.size + piece.length) := by
      rw [laidOver, ← List.drop_drop, List.drop_left' Array.length_toList, List.drop_drop]
    rw [put_of_fits hfits, Bytes.overwrite, if_pos (hlength.symm ▸ hfits)]
    show Except.ok (writer.written.size + piece.length,
      (writer.laidOver destination).2.take writer.written.size ++ piece ++
        (writer.laidOver destination).2.drop (writer.written.size + piece.length)) =
      Except.ok ((writer.extend piece).laidOver destination)
    rw [hbehind, laidOver, laidOver, List.take_left' Array.length_toList, size_written_extend,
      toList_written_extend]
  · rw [put_eq_error (Nat.lt_of_not_le hfits), Bytes.overwrite, if_neg (hlength.symm ▸ hfits),
      hlength]
    rfl

/-- Writing pieces replaces the bytes of the destination piece by piece. -/
theorem Fills.placeFrom (h : writer.Fills destination) (pieces : List Bytes) :
    Bytes.placeFrom (writer.laidOver destination).1 (writer.laidOver destination).2 pieces =
      (writer.putAll pieces).map fun next ↦ next.laidOver destination := by
  induction pieces generalizing writer with
  | nil => rfl
  | cons piece pieces ih =>
      rw [Bytes.placeFrom, putAll_cons, h.overwrite piece]
      by_cases hfits : writer.Fits piece
      · rw [put_of_fits hfits]
        exact ih (h.extend hfits)
      · rw [put_eq_error (Nat.lt_of_not_le hfits)]
        rfl

end Writer

end I3cHost
