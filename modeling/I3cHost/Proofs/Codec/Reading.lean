import I3cHost.Coded
import I3cHost.Proofs.Codec.RoundTrip

/-!
# What a successful reading says about the buffer

What was read is the front of what had not been read before: `eq_append_of_take`,
`eq_append_of_record`, `eq_append_of_records` and `eq_append_of_payload` say which bytes it was. A
reader of items that each take at least one byte reads them one after the other until nothing is
left (`items_eq_ok_iff`), so what is known of one item is known of all of them.
-/

namespace I3cHost

/-- Two steps succeed together exactly if the second does with what the first gives. -/
theorem bind_eq_ok_iff {ε α β : Type} {first : Except ε α} {second : α → Except ε β} {result : β} :
    (first >>= second) = .ok result ↔
      ∃ value, first = .ok value ∧ second value = .ok result := by
  cases first <;> simp [bind, Except.bind]

/-- A value read from a byte is written as this byte. -/
theorem Coded.byte_of_ofByte {α : Type} [Coded α] {byte : UInt8} {value : α}
    (h : Coded.ofByte byte = .ok value) : Coded.byte value = byte := by
  rw [Coded.byte, Coded.decode_eq_ok_iff.1 h, UInt8.ofNat_toNat]

/-- A code that fits a byte is read back from it. -/
theorem Coded.ofByte_byte {α : Type} [Coded α] {value : α} (h : Coded.code value < 256) :
    Coded.ofByte (Coded.byte value) = .ok value := by
  refine Coded.decode_eq_ok_iff.2 ?_
  rw [Coded.byte, UInt8.toNat_ofNat', Nat.mod_eq_of_lt h]

namespace Reader

variable {α : Type} {reader next : Reader} {item : Reader → CodecResult (α × Reader)}

/-- Bytes that were taken are the front of what was not read before. -/
theorem eq_append_of_take {count : Nat} {front : Bytes}
    (h : reader.take count = .ok (front, next)) :
    front.length = count ∧ reader.rest = front ++ next.rest := by
  by_cases hcount : count ≤ reader.rest.length
  · rw [take_eq_ok hcount] at h
    cases h
    simp [hcount]
  · rw [take_eq_error (Nat.lt_of_not_le hcount)] at h
    cases h

/-- A record that was read was laid out at the front. -/
theorem eq_append_of_record [Record α] {value : α} (h : reader.record = .ok (value, next)) :
    reader.rest = Record.toBytes value ++ next.rest := by
  unfold record at h
  simp only [bind_eq_ok_iff, Prod.exists, pure, Except.pure, Except.ok.injEq, Prod.mk.injEq] at h
  obtain ⟨front, after, htake, rfl, rfl⟩ := h
  obtain ⟨hlength, hrest⟩ := eq_append_of_take htake
  rw [Record.toBytes_ofBytes front hlength, hrest]

/-- Records that were read behind others were laid out at the front one after the other. -/
theorem eq_append_of_recordsAfter [Record α] {count : Nat} {before all : Array α}
    (h : reader.recordsAfter before count = .ok (all, next)) :
    ∃ values : List α, all.toList = before.toList ++ values ∧ values.length = count ∧
      reader.rest = values.flatMap Record.toBytes ++ next.rest := by
  induction count generalizing reader before with
  | zero =>
      cases h
      exact ⟨[], by simp, rfl, rfl⟩
  | succ count ih =>
      obtain ⟨⟨value, behind⟩, hvalue, hothers⟩ := bind_eq_ok_iff.1 h
      obtain ⟨values, hall, hlength, hrest⟩ := ih hothers
      refine ⟨value :: values, ?_, by rw [List.length_cons, hlength], ?_⟩
      · rw [hall, Array.toList_push, List.append_assoc, List.singleton_append]
      · rw [eq_append_of_record hvalue, hrest, List.flatMap_cons, List.append_assoc]

/-- Records that were read were laid out at the front one after the other. -/
theorem eq_append_of_records [Record α] {count : Nat} {values : List α}
    (h : reader.records count = .ok (values, next)) :
    values.length = count ∧ reader.rest = values.flatMap Record.toBytes ++ next.rest := by
  unfold records at h
  simp only [bind_eq_ok_iff, Prod.exists, pure, Except.pure, Except.ok.injEq, Prod.mk.injEq] at h
  obtain ⟨all, _, hall, rfl, rfl⟩ := h
  obtain ⟨values, hvalues, hlength, hrest⟩ := eq_append_of_recordsAfter hall
  rw [List.nil_append] at hvalues
  exact hvalues ▸ ⟨hlength, hrest⟩

/-- A payload that was read stood at the front, with as many bytes after it as its padding has. -/
theorem eq_append_of_payload {length : Nat} {data : Bytes}
    (h : reader.payload length = .ok (data, next)) :
    data.length = length ∧ ∃ padding : Bytes,
      padding.length = Bytes.paddedLength length - length ∧
      reader.rest = data ++ padding ++ next.rest := by
  unfold payload at h
  simp only [bind_eq_ok_iff, Prod.exists, pure, Except.pure, Except.ok.injEq, Prod.mk.injEq] at h
  obtain ⟨front, after, htake, rfl, rfl⟩ := h
  obtain ⟨hlength, hrest⟩ := eq_append_of_take htake
  have hpadded := Bytes.le_paddedLength length
  refine ⟨?_, front.drop length, ?_, ?_⟩
  · rw [List.length_take]
    omega
  · rw [List.length_drop, hlength]
  · rw [List.take_append_drop, hrest]

/-- Every item takes at least one byte. -/
def Advances (item : Reader → CodecResult (α × Reader)) : Prop :=
  ∀ reader value next, item reader = .ok (value, next) → next.rest.length < reader.rest.length

/-- Nothing is read from the end of a buffer. -/
theorem items_of_rest_nil (h : reader.rest = []) : items item reader = .ok [] := by
  simp [items, h, itemsAfter, bind, Except.bind, pure, Except.pure]

/-- Neither what was read before nor a larger limit changes which items are read. -/
theorem itemsAfter_eq_map (hitem : Advances item) {limit : Nat} (before : Array α)
    (hlimit : reader.rest.length ≤ limit) :
    itemsAfter item before limit reader =
      (itemsAfter item #[] reader.rest.length reader).map (before ++ ·) := by
  -- The induction is on what is left to read, which both sides read the first item of.
  induction hlength : reader.rest.length using Nat.strongRecOn
    generalizing reader before limit with
  | ind length ih =>
      subst hlength
      cases hrest : reader.rest with
      | nil => cases limit <;> simp [itemsAfter, hrest, Except.map]
      | cons first rest =>
          obtain ⟨limit, rfl⟩ : ∃ fewer, limit = fewer + 1 :=
            ⟨limit - 1, by simp only [hrest, List.length_cons] at hlimit; omega⟩
          simp only [List.length_cons, itemsAfter, hrest, List.isEmpty_cons, Bool.false_eq_true,
            if_false]
          cases hfirst : item reader with
          | error error => rfl
          | ok read =>
              obtain ⟨value, next⟩ := read
              have hless := hitem reader value next hfirst
              have hfewer : next.rest.length ≤ rest.length := by
                simp only [hrest, List.length_cons] at hless
                omega
              simp only [bind, Except.bind]
              rw [ih _ hless (before.push value) (by
                  simp only [hrest, List.length_cons] at hlimit; omega) rfl,
                ih _ hless (#[].push value) hfewer rfl]
              cases itemsAfter item #[] next.rest.length next with
              | error error => rfl
              | ok others => simp [Except.map]

/-- From a buffer that is not at its end one item is read first and the others after it. -/
theorem items_of_rest_ne_nil (hitem : Advances item) (hrest : reader.rest ≠ []) :
    items item reader = do
      let (value, next) ← item reader
      let others ← items item next
      return value :: others := by
  obtain ⟨first, rest, hcons⟩ := List.exists_cons_of_ne_nil hrest
  unfold items
  simp only [hcons, List.length_cons, itemsAfter, List.isEmpty_cons, Bool.false_eq_true, if_false]
  cases hfirst : item reader with
  | error error => rfl
  | ok read =>
      obtain ⟨value, next⟩ := read
      have hless := hitem reader value next hfirst
      simp only [hcons, List.length_cons] at hless
      simp only [bind, Except.bind]
      rw [itemsAfter_eq_map hitem (#[].push value) (by omega : next.rest.length ≤ rest.length)]
      cases itemsAfter item #[] next.rest.length next with
      | error error => rfl
      | ok others => simp [Except.map, pure, Except.pure]

/-- Items are read from a buffer that is not at its end exactly if the first can be read and the
others after it. -/
theorem items_eq_ok_iff (hitem : Advances item) (hrest : reader.rest ≠ []) {values : List α} :
    items item reader = .ok values ↔
      ∃ value next others, item reader = .ok (value, next) ∧ items item next = .ok others ∧
        value :: others = values := by
  simp only [items_of_rest_ne_nil hitem hrest, bind_eq_ok_iff, Prod.exists, pure, Except.pure,
    Except.ok.injEq, exists_and_left]

end Reader

end I3cHost
