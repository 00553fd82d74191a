import I3cHost.Proofs.Codec.EntryList
import I3cHost.Proofs.Codec.Pieces

/-!
# Messages as pieces

A message is written as pieces that follow each other, up to a fault that it has in itself, if it
has one. An `Outline` gives both, and `Outlined` says that the messages of a type are written in
this way. How much room there is only decides whether the pieces fit: a message without a fault
replaces the front of a destination that is large enough (`Message.encodeInto_of_fits`), and one
that is not is refused as too short (`Message.encodeInto_of_short`).

The outline of a sequence is that of its parts, one behind the other (`Outline.join`), and how many
bytes it takes is the sum over them, like the number of bytes that are set aside for it, so that the
two are compared part by part (`Outline.length_bytes_join_iff`).
-/

namespace I3cHost

variable {α β : Type}

/-- The pieces that a message is written as, and the fault behind them at which writing it stops, if
it has one. -/
structure Outline where
  pieces : List Bytes
  fault? : Option CodecError := none

namespace Outline

variable {outline front back : Outline} {writer : Writer}

/-- The bytes of the pieces, one after the other. -/
def bytes (outline : Outline) : Bytes :=
  outline.pieces.flatten

/-- Writes the pieces, and fails then if there is a fault. -/
def write (outline : Outline) (writer : Writer) : CodecResult Writer := do
  let writer ← writer.putAll outline.pieces
  match outline.fault? with
  | none => return writer
  | some fault => throw fault

/-- One outline behind another one, unless that one has a fault. -/
def append (front back : Outline) : Outline :=
  match front.fault? with
  | none => ⟨front.pieces ++ back.pieces, back.fault?⟩
  | some _ => front

/-- Outlines one behind the other, up to the first that has a fault. -/
def join (outlines : List Outline) : Outline :=
  outlines.foldr append ⟨[], none⟩

/-- Outlines are joined one after the other. -/
theorem join_cons {outlines : List Outline} :
    join (outline :: outlines) = outline.append (join outlines) :=
  rfl

/-- Without a fault the pieces are written and nothing else happens. -/
theorem write_pieces (pieces : List Bytes) : write ⟨pieces, none⟩ writer = writer.putAll pieces :=
  bind_pure _

/-- Writing one outline behind another one writes both. -/
theorem write_append : (front.append back).write writer = front.write writer >>= back.write := by
  obtain ⟨pieces, fault?⟩ := front
  cases fault? with
  | some fault =>
      simp only [append, write]
      cases writer.putAll pieces <;> rfl
  | none =>
      rw [write_pieces]
      simp only [append, write, Writer.putAll, List.foldlM_append]
      cases pieces.foldlM (fun writer piece ↦ writer.put piece) writer <;> rfl

/-- Values are written in order as their outlines are, one behind the other. -/
theorem write_join {encode : α → Writer → CodecResult Writer} {outline : α → Outline}
    (hencode : ∀ value writer, encode value writer = (outline value).write writer)
    (values : List α) (writer : Writer) :
    values.foldlM (fun writer value ↦ encode value writer) writer =
      (join (values.map outline)).write writer := by
  induction values generalizing writer with
  | nil => rfl
  | cons value values ih =>
      rw [List.foldlM_cons, hencode, List.map_cons, join_cons, write_append]
      congr 1
      funext next
      exact ih next

/-- If there is room for the pieces, only a fault matters. -/
theorem write_of_fits (h : writer.Fits outline.bytes) :
    outline.write writer =
      match outline.fault? with
      | none => .ok (writer.extend outline.bytes)
      | some fault => .error fault := by
  rw [write, Writer.putAll_of_fits h]
  cases outline.fault? <;> rfl

/-- If there is not enough room for the pieces, a fault behind them does not matter. -/
theorem write_of_short (hroom : writer.written.size ≤ writer.capacity)
    (h : ¬ writer.Fits outline.bytes) :
    ∃ needed, writer.capacity < needed ∧ needed ≤ writer.written.size + outline.bytes.length ∧
      outline.write writer = .error (.bufferTooShort needed writer.capacity) := by
  obtain ⟨needed, hmore, hwithin, hrefused⟩ := Writer.putAll_of_short hroom h
  refine ⟨needed, hmore, hwithin, ?_⟩
  rw [write, hrefused]
  rfl

/-- An outline under a condition. If that does not hold, nothing is written and there is a fault. -/
def checked (condition : Prop) [Decidable condition] (fault : CodecError) (outline : Outline) :
    Outline :=
  if condition then outline else ⟨[], some fault⟩

/-- The one piece of a record. -/
def record [Record α] (value : α) : Outline where
  pieces := [Record.toBytes value]

/-- The pieces of records behind a header. -/
def records [Record β] [Record α] (header : β) (values : List α) : Outline where
  pieces := Record.toBytes header :: values.map Record.toBytes

/-- The pieces of a payload behind a header, padding included. -/
def payload [Record β] (header : β) (data : Bytes) : Outline where
  pieces := [Record.toBytes header, Bytes.padded data]

section Checked

variable {condition : Prop} [Decidable condition] {fault : CodecError} {size : Nat}

/-- An outline whose condition holds is written, and otherwise there is nothing but the fault. -/
theorem write_checked : (checked condition fault outline).write writer =
    if condition then outline.write writer else .error fault := by
  rw [checked]
  split <;> rfl

/-- An outline without a fault is one whose condition holds. -/
theorem checked_of_fault? (h : (checked condition fault outline).fault? = none) :
    checked condition fault outline = outline := by
  rw [checked] at h ⊢
  split
  next => rfl
  next hnot =>
    rw [if_neg hnot] at h
    cases h

/-- What is checked takes no more bytes because of that. -/
theorem length_bytes_checked_le (h : outline.bytes.length ≤ size) :
    (checked condition fault outline).bytes.length ≤ size := by
  rw [checked]
  split
  next => exact h
  next => exact Nat.zero_le size

end Checked

/-- A record is written as it is. -/
theorem write_record [Record α] (value : α) :
    (record value).write writer = writer.record value := by
  rw [record, write_pieces]
  exact bind_pure (writer.record value)

/-- A header and the records behind it are written one after the other. -/
theorem write_records [Record β] [Record α] (header : β) (values : List α) :
    (records header values).write writer =
      (do let writer ← writer.record header
          writer.records values) := by
  rw [records, write_pieces, Writer.putAll_cons]
  congr 1
  funext next
  exact List.foldlM_map

/-- A header and the padded payload behind it are written one after the other. -/
theorem write_payload [Record β] (header : β) (data : Bytes) :
    (payload header data).write writer =
      (do let writer ← writer.record header
          writer.put (Bytes.padded data)) := by
  rw [payload, write_pieces, Writer.putAll_cons]
  congr 1
  funext next
  exact bind_pure _

/-- The outline of a record takes the size of the record. -/
@[simp] theorem length_bytes_record [Record α] (value : α) :
    (record value).bytes.length = Record.size α := by
  simp [bytes, record]

/-- Records take as many bytes as one of them, as many times as there are, behind the header. -/
theorem length_bytes_records [Record β] [Record α] (header : β) (values : List α) :
    (records header values).bytes.length = Record.size β + values.length * Record.size α := by
  rw [bytes, records, List.flatten_cons, List.length_append, Record.length_toBytes,
    ← List.flatMap_def, EntryList.length_flatMap_toBytes]

/-- A payload takes as many bytes as it has together with its padding, behind the header. -/
theorem length_bytes_payload [Record β] (header : β) (data : Bytes) :
    (payload header data).bytes.length = Record.size β + Bytes.paddedLength data.length := by
  simp [bytes, payload]

/-- If neither of two outlines has a fault, the bytes of both follow each other. -/
theorem append_eq_of_fault? (h : (front.append back).fault? = none) :
    front.fault? = none ∧ back.fault? = none ∧
      (front.append back).bytes = front.bytes ++ back.bytes := by
  obtain ⟨pieces, fault?⟩ := front
  cases fault? with
  | none => exact ⟨rfl, h, List.flatten_append⟩
  | some fault => cases h

/-- Two outlines, one behind the other, take no more bytes than both have. -/
theorem length_bytes_append_le (front back : Outline) :
    (front.append back).bytes.length ≤ front.bytes.length + back.bytes.length := by
  obtain ⟨pieces, fault?⟩ := front
  cases fault? with
  | none =>
      show (pieces ++ back.pieces).flatten.length ≤ _
      rw [List.flatten_append, List.length_append]
      exact Nat.le_refl _
  | some fault => exact Nat.le_add_right _ _

section Join

variable {outline : α → Outline} {size : α → Nat} {values : List α}

/-- Outlines that follow each other without a fault have none. -/
theorem fault?_of_join (h : (join (values.map outline)).fault? = none) :
    ∀ value ∈ values, (outline value).fault? = none := by
  induction values with
  | nil => simp
  | cons value values ih =>
      rw [List.map_cons, join_cons] at h
      obtain ⟨hvalue, hrest, -⟩ := append_eq_of_fault? h
      exact List.forall_mem_cons.2 ⟨hvalue, ih hrest⟩

/-- Outlines that follow each other take no more bytes than are set aside for them one by one. -/
theorem length_bytes_join_le (hsize : ∀ value, (outline value).bytes.length ≤ size value)
    (values : List α) : (join (values.map outline)).bytes.length ≤
      values.foldr (fun value total ↦ size value + total) 0 := by
  induction values with
  | nil => exact Nat.le_refl 0
  | cons value values ih =>
      have happend := length_bytes_append_le (outline value) (join (values.map outline))
      have hvalue := hsize value
      rw [List.map_cons, join_cons, List.foldr_cons]
      omega

/-- Without a fault, outlines that follow each other take all the bytes that are set aside for them
exactly if each of them does. -/
theorem length_bytes_join_iff (hsize : ∀ value, (outline value).bytes.length ≤ size value)
    (hfault : (join (values.map outline)).fault? = none) :
    (join (values.map outline)).bytes.length =
        values.foldr (fun value total ↦ size value + total) 0 ↔
      ∀ value ∈ values, (outline value).bytes.length = size value := by
  induction values with
  | nil => simp [join, bytes]
  | cons value values ih =>
      rw [List.map_cons, join_cons] at hfault ⊢
      obtain ⟨-, hrest, hbytes⟩ := append_eq_of_fault? hfault
      have hvalue := hsize value
      have hvalues := length_bytes_join_le hsize values
      rw [List.forall_mem_cons, ← ih hrest, hbytes, List.length_append, List.foldr_cons]
      omega

variable [Record β] {header : β}

/-- The outlines of values one behind the other, behind the record of a header. -/
def headed (header : β) (outline : α → Outline) (values : List α) : Outline :=
  (record header).append (join (values.map outline))

/-- A header and the values behind it are written in order. -/
theorem write_headed {encode : α → Writer → CodecResult Writer}
    (hencode : ∀ value writer, encode value writer = (outline value).write writer) :
    (headed header outline values).write writer =
      (do let writer ← writer.record header
          values.foldlM (fun writer value ↦ encode value writer) writer) := by
  rw [headed, write_append, write_record]
  congr 1
  funext next
  exact (write_join hencode values next).symm

/-- Values behind a header have no fault if there is none behind the header. -/
theorem fault?_of_headed (h : (headed header outline values).fault? = none) :
    ∀ value ∈ values, (outline value).fault? = none :=
  fault?_of_join (append_eq_of_fault? h).2.1

/-- Values behind a header take no more bytes than are set aside for them and the header. -/
theorem length_bytes_headed_le (hsize : ∀ value, (outline value).bytes.length ≤ size value) :
    (headed header outline values).bytes.length ≤
      Record.size β + values.foldr (fun value total ↦ size value + total) 0 := by
  have happend := length_bytes_append_le (record header) (join (values.map outline))
  have hvalues := length_bytes_join_le hsize values
  rw [length_bytes_record] at happend
  exact Nat.le_trans happend (Nat.add_le_add_left hvalues _)

/-- Without a fault, values behind a header take all the bytes that are set aside for them and the
header exactly if each of the values does. -/
theorem length_bytes_headed_iff (hsize : ∀ value, (outline value).bytes.length ≤ size value)
    (hfault : (headed header outline values).fault? = none) :
    (headed header outline values).bytes.length =
        Record.size β + values.foldr (fun value total ↦ size value + total) 0 ↔
      ∀ value ∈ values, (outline value).bytes.length = size value := by
  obtain ⟨-, hvalues, hbytes⟩ := append_eq_of_fault? hfault
  rw [headed, hbytes, List.length_append, length_bytes_record, Nat.add_left_cancel_iff]
  exact length_bytes_join_iff hsize hvalues

end Join

end Outline

/-- A type whose messages are written as their outlines. -/
class Outlined (α : Type) [Message α] where
  /-- What a message is written as. -/
  outline : α → Outline
  /-- A message is written as its outline. -/
  encode_eq : ∀ message writer, Message.encode message writer = (outline message).write writer
  /-- At least as many bytes are set aside for a message as its pieces have. -/
  length_bytes_le : ∀ message, (outline message).bytes.length ≤ Message.encodedSize message

/-- A record is one piece. -/
instance [Record α] : Outlined α where
  outline := .record
  encode_eq value _ := (Outline.write_record value).symm
  length_bytes_le value := Nat.le_of_eq (Outline.length_bytes_record value)

namespace Message

variable {α : Type} [Message α]

/-- Writing a message into a destination writes as much as there is room for in it. -/
theorem encodeInto_eq (message : α) (destination : Bytes) :
    encodeInto message destination =
      (encode message (Writer.ofCapacity destination.length)).map
        fun writer ↦ writer.laidOver destination := by
  rw [encodeInto]
  cases encode message (Writer.ofCapacity destination.length) <;> rfl

variable [Outlined α] {message : α} {bytes destination : Bytes}

open Outlined

/-- As many bytes as are set aside for a message suffice for its pieces. -/
theorem toBytes_eq (message : α) :
    toBytes message =
      match (outline message).fault? with
      | none => .ok (outline message).bytes
      | some fault => .error fault := by
  have hfits : (Writer.ofCapacity (encodedSize message)).Fits (outline message).bytes := by
    show 0 + (outline message).bytes.length ≤ encodedSize message
    rw [Nat.zero_add]
    exact length_bytes_le message
  rw [toBytes, encode_eq, Outline.write_of_fits hfits]
  cases (outline message).fault? with
  | none =>
      show Except.ok ((Writer.ofCapacity _).extend (outline message).bytes).written.toList = _
      rw [Writer.toList_written_extend]
      rfl
  | some fault => rfl

/-- A message has bytes if it has no fault, and then they are those of its pieces. -/
theorem toBytes_eq_ok_iff :
    toBytes message = .ok bytes ↔
      (outline message).fault? = none ∧ (outline message).bytes = bytes := by
  rw [toBytes_eq]
  cases (outline message).fault? <;> simp

/-- In a destination with room for its pieces, a message without a fault replaces the front. -/
theorem encodeInto_of_fits (h : (outline message).bytes.length ≤ destination.length) :
    encodeInto message destination =
      match (outline message).fault? with
      | none => .ok ((outline message).bytes.length,
          (outline message).bytes ++ destination.drop (outline message).bytes.length)
      | some fault => .error fault := by
  have hfits : (Writer.ofCapacity destination.length).Fits (outline message).bytes := by
    show 0 + (outline message).bytes.length ≤ destination.length
    omega
  rw [encodeInto_eq, encode_eq, Outline.write_of_fits hfits]
  cases (outline message).fault? with
  | none =>
      show Except.ok
        (((Writer.ofCapacity _).extend (outline message).bytes).laidOver destination) = _
      rw [Writer.laidOver, Writer.size_written_extend, Writer.toList_written_extend]
      simp [Writer.ofCapacity]
  | some fault => rfl

/-- A destination without room for the pieces of a message is refused as too short. -/
theorem encodeInto_of_short (h : destination.length < (outline message).bytes.length) :
    ∃ needed, destination.length < needed ∧ needed ≤ (outline message).bytes.length ∧
      encodeInto message destination = .error (.bufferTooShort needed destination.length) := by
  have hshort : ¬ (Writer.ofCapacity destination.length).Fits (outline message).bytes := by
    show ¬ 0 + (outline message).bytes.length ≤ destination.length
    omega
  obtain ⟨needed, hmore, hwithin, hrefused⟩ := Outline.write_of_short (Nat.zero_le _) hshort
  refine ⟨needed, hmore, ?_, ?_⟩
  · rwa [show (Writer.ofCapacity destination.length).written.size = 0 from rfl, Nat.zero_add]
      at hwithin
  · rw [encodeInto_eq, encode_eq, hrefused]
    rfl

/-- A message is written into a destination if it has no fault and there is room for its pieces. -/
theorem encodeInto_eq_ok_iff {result : Nat × Bytes} :
    encodeInto message destination = .ok result ↔
      (outline message).fault? = none ∧ (outline message).bytes.length ≤ destination.length ∧
        ((outline message).bytes.length,
          (outline message).bytes ++ destination.drop (outline message).bytes.length) = result := by
  by_cases hroom : (outline message).bytes.length ≤ destination.length
  · rw [encodeInto_of_fits hroom]
    cases (outline message).fault? <;> simp [hroom]
  · obtain ⟨needed, -, -, hrefused⟩ := encodeInto_of_short (Nat.lt_of_not_le hroom)
    rw [hrefused]
    simp [hroom]

/-- A message without a fault is written into a destination by placing its pieces there. -/
theorem place_eq_encodeInto (h : (outline message).fault? = none) (destination : Bytes) :
    Bytes.place (outline message).pieces destination = encodeInto message destination := by
  have hplace :=
    (Writer.fills_ofCapacity destination).placeFrom (outline message).pieces
  rw [Writer.laidOver_ofCapacity] at hplace
  rw [Bytes.place, hplace, encodeInto_eq, encode_eq, Outline.write, h]
  cases (Writer.ofCapacity destination.length).putAll (outline message).pieces <;> rfl

end Message

end I3cHost
