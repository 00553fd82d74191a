import I3cHost.Proofs.Codec.Reading

/-!
# Buffers that are cut off

A reader that needs more bytes than are left refuses with the position it had to reach, which lies
behind the end of the buffer (`EndsEarly`). Items that were written one after the other and cut off
anywhere are read up to the cut if it lies between two of them, and refused otherwise
(`Reader.items_take`): no item is read from a part of its layout.
-/

namespace I3cHost

variable {α β : Type}

/-- A buffer is refused because it ends, after a number of bytes, before a position that had to be
reached. -/
def EndsEarly (count : Nat) (result : CodecResult α) : Prop :=
  ∃ needed, count < needed ∧ result = .error (.bufferTooShort needed count)

/-- What would follow a refusal does not matter. -/
theorem EndsEarly.bind {count : Nat} {result : CodecResult α} (h : EndsEarly count result)
    (next : α → CodecResult β) : EndsEarly count (result >>= next) := by
  obtain ⟨needed, hneeded, rfl⟩ := h
  exact ⟨needed, hneeded, rfl⟩

/-- A buffer that is cut off behind its first bytes still begins with them. -/
theorem Bytes.take_append_of_le {front : Bytes} {count : Nat} (h : front.length ≤ count)
    (back : Bytes) : (front ++ back).take count = front ++ back.take (count - front.length) := by
  rw [List.take_append, List.take_of_length_le h]

/-- A record in front of what was cut off is the front of both together, cut off behind it. -/
theorem Record.toBytes_append_take {α : Type} [Record α] {value : α} {back : Bytes}
    {count fewer : Nat} (hcount : count = Record.size α + fewer) :
    Record.toBytes value ++ back.take fewer = (Record.toBytes value ++ back).take count := by
  rw [hcount, ← Record.length_toBytes value, List.take_length_add_append]

namespace Reader

variable {rest : Bytes} {offset total : Nat} (htotal : total = offset + rest.length)

include htotal

/-- More bytes than are left cannot be taken. -/
theorem take_endsEarly {count : Nat} (h : rest.length < count) :
    EndsEarly total (take count ⟨rest, offset, total⟩) :=
  ⟨offset + count, by omega, take_eq_error h⟩

/-- A record cannot be read from fewer bytes than it has. -/
theorem record_endsEarly [Record α] (h : rest.length < Record.size α) :
    EndsEarly total (record (α := α) ⟨rest, offset, total⟩) :=
  (take_endsEarly htotal h).bind _

/-- A payload cannot be read from fewer bytes than it has together with its padding. -/
theorem payload_endsEarly {length : Nat} (h : rest.length < Bytes.paddedLength length) :
    EndsEarly total (payload length ⟨rest, offset, total⟩) :=
  (take_endsEarly htotal h).bind _

/-- Records cannot be read from fewer bytes than all of them have. -/
theorem records_endsEarly [Record α] {count : Nat} (h : rest.length < count * Record.size α) :
    EndsEarly total (records (α := α) count ⟨rest, offset, total⟩) := by
  refine EndsEarly.bind ?_ _
  generalize (#[] : Array α) = before
  induction count generalizing rest offset before with
  | zero => omega
  | succ count ih =>
      rw [Nat.succ_mul] at h
      by_cases hfirst : rest.length < Record.size α
      · exact (record_endsEarly htotal hfirst).bind _
      · have htake : take (Record.size α) ⟨rest, offset, total⟩ =
            .ok (rest.take (Record.size α),
              ⟨rest.drop (Record.size α), offset + Record.size α, total⟩) :=
          take_eq_ok (Nat.le_of_not_lt hfirst)
        simp only [recordsAfter, record, htake, bind, Except.bind, pure, Except.pure]
        refine ih ?_ ?_ _
        · rw [List.length_drop]
          omega
        · rw [List.length_drop]
          omega

end Reader

namespace Reader

/-- A record at the front of a buffer that is cut off is read as it was written, or not at all. -/
theorem record_take [Record α] {value : α} {back : Bytes} {count offset total : Nat}
    (htotal : total = offset + count) (hcount : count < (Record.toBytes value ++ back).length) :
    EndsEarly total (record (α := α)
        ⟨(Record.toBytes value ++ back).take count, offset, total⟩) ∨
      ∃ fewer < back.length, total = offset + Record.size α + fewer ∧
        record ⟨(Record.toBytes value ++ back).take count, offset, total⟩ =
          .ok (value, ⟨back.take fewer, offset + Record.size α, total⟩) := by
  have hlength := Record.length_toBytes value
  by_cases hinside : count < Record.size α
  · refine .inl (record_endsEarly ?_ ?_) <;> rw [List.length_take] <;> omega
  · rw [List.length_append, hlength] at hcount
    refine .inr ⟨count - Record.size α, by omega, by omega, ?_⟩
    rw [Bytes.take_append_of_le (by omega), record_append, hlength]

/-- A buffer that begins with a record ends early if what follows the record does. -/
theorem record_take_bind [Record α] {value : α} {back : Bytes} {count offset total : Nat}
    (htotal : total = offset + count) (hcount : count < (Record.toBytes value ++ back).length)
    {next : α × Reader → CodecResult β}
    (hnext : ∀ fewer < back.length, total = offset + Record.size α + fewer →
      EndsEarly total (next (value, ⟨back.take fewer, offset + Record.size α, total⟩))) :
    EndsEarly total
      (record ⟨(Record.toBytes value ++ back).take count, offset, total⟩ >>= next) := by
  rcases record_take htotal hcount with hearly | ⟨fewer, hfewer, hrest, hread⟩
  · exact hearly.bind next
  · rw [hread]
    exact hnext fewer hfewer hrest

/-- A payload that was filled up with zeros is not read from a part of it. -/
theorem payload_take {data : Bytes} {count offset total : Nat} (htotal : total = offset + count)
    (hcount : count < (Bytes.padded data).length) :
    EndsEarly total (payload data.length ⟨(Bytes.padded data).take count, offset, total⟩) := by
  have hlength : ((Bytes.padded data).take count).length = count := by
    rw [List.length_take]
    omega
  rw [Bytes.length_padded] at hcount
  exact payload_endsEarly (by omega) (by omega)

variable {item : Reader → CodecResult (α × Reader)} {layout : α → Bytes} {values : List α}

/-- No value is read from a part of its layout. -/
def EndsEarlyWithin (item : Reader → CodecResult (α × Reader)) (layout : α → Bytes) (value : α) :
    Prop :=
  ∀ count < (layout value).length, ∀ offset total, total = offset + count →
    EndsEarly total (item ⟨(layout value).take count, offset, total⟩)

/-- Items that were written one after the other and cut off are read if the cut lies between two of
them, and only those before it. Otherwise they are refused. -/
theorem items_take (hadvances : Advances item)
    (hitem : ∀ value ∈ values, ∀ rest offset total, item ⟨layout value ++ rest, offset, total⟩ =
      .ok (value, ⟨rest, offset + (layout value).length, total⟩))
    (hwithin : ∀ value ∈ values, EndsEarlyWithin item layout value)
    {count offset total : Nat} (hcount : count < (values.flatMap layout).length)
    (htotal : total = offset + count) :
    EndsEarly total (items item ⟨(values.flatMap layout).take count, offset, total⟩) ∨
      ∃ front, items item ⟨(values.flatMap layout).take count, offset, total⟩ = .ok front ∧
        front <+: values ∧ front.length < values.length ∧
        front.flatMap layout = (values.flatMap layout).take count := by
  induction values generalizing count offset with
  | nil => simp at hcount
  | cons value values ih =>
      obtain ⟨hfirst, hothers⟩ := List.forall_mem_cons.1 hitem
      obtain ⟨hcut, hcuts⟩ := List.forall_mem_cons.1 hwithin
      rw [List.flatMap_cons] at hcount ⊢
      by_cases hempty : (layout value ++ values.flatMap layout).take count = []
      · -- Nothing is left, so nothing is read.
        rw [hempty]
        exact .inr ⟨[], items_of_rest_nil rfl, List.nil_prefix, by simp, rfl⟩
      rw [items_of_rest_ne_nil hadvances hempty]
      by_cases hinside : count < (layout value).length
      · rw [List.take_append_of_le_length (Nat.le_of_lt hinside)]
        exact .inl ((hcut count hinside offset total htotal).bind _)
      · have hlength : (layout value).length ≤ count := Nat.le_of_not_lt hinside
        rw [List.length_append] at hcount
        rw [Bytes.take_append_of_le hlength, hfirst]
        have hfewer : count - (layout value).length < (values.flatMap layout).length := by omega
        have hbehind : total =
            offset + (layout value).length + (count - (layout value).length) := by omega
        rcases ih hothers hcuts hfewer hbehind with
          hearly | ⟨front, hfront, hbegins, hshorter, hbytes⟩
        · exact .inl (hearly.bind _)
        · refine .inr ⟨value :: front, ?_, ?_, ?_, ?_⟩
          · simp only [bind, Except.bind, hfront, pure, Except.pure]
          · exact (List.prefix_cons_inj value).2 hbegins
          · simpa using hshorter
          · rw [List.flatMap_cons, hbytes]

end Reader

end I3cHost
