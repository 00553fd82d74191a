import Mathlib.Data.List.Forall2
import I3cHost.Proofs.Bulk.Response

/-!
# Which answers carry data

The format lets data follow a descriptor exactly if the descriptor says that it has data, and lets
the descriptor declare a length also if it has none. The reader goes by the declared length alone.
So a transfer that is laid out as prescribed is read as its answers exactly if no answer without
data declares a length (`decode_transfer_iff`); one such answer is enough to lose the others.
-/

namespace I3cHost

/-- An answer as the format lays it out: as much data as the descriptor declares if it says that
there is any and none otherwise, and the bytes that fill up the data to whole words. -/
structure LaidOutAnswer where
  descriptor : ResponseDescriptor
  data : Bytes
  padding : Bytes
  length_data : data.length =
    if descriptor.flags.hasData then descriptor.dataLength.toNat else 0
  length_padding : padding.length = Bytes.paddedLength data.length - data.length

namespace LaidOutAnswer

/-- The bytes of an answer. -/
def bytes (answer : LaidOutAnswer) : Bytes :=
  Record.toBytes answer.descriptor ++ (answer.data ++ answer.padding)

/-- An answer that was read is the one that was laid out, its data included. -/
def ReadAs (answer : LaidOutAnswer) (response : CommandResponse) : Prop :=
  response.Conveys answer.descriptor ∧ response.data = answer.data

/-- The declared length is that of the data. -/
def Faithful (answer : LaidOutAnswer) : Prop :=
  answer.descriptor.flags.hasData = false → answer.descriptor.dataLength = 0

/-- The transfer of a list of answers. -/
def transfer (reserved : UInt8 × UInt8 × UInt8) (answers : List LaidOutAnswer) : Bytes :=
  Record.toBytes { BulkResponseTag.regularCommand.header with reserved } ++ answers.flatMap bytes

variable {answer : LaidOutAnswer} {answers : List LaidOutAnswer}

/-- An answer takes at least the bytes of its descriptor. -/
theorem bytes_ne_nil (answer : LaidOutAnswer) (rest : Bytes) : answer.bytes ++ rest ≠ [] := by
  intro hempty
  have hlength := congrArg List.length hempty
  simp only [bytes, List.length_append, Record.length_toBytes, Record.size, List.length_nil]
    at hlength
  omega

/-- The declared length is that of the data exactly if there is data or none is declared. -/
theorem faithful_iff :
    answer.Faithful ↔ answer.data.length = answer.descriptor.dataLength.toNat := by
  rw [answer.length_data, Faithful]
  cases answer.descriptor.flags.hasData with
  | true => simp
  | false => simp [← UInt32.toNat_inj, eq_comm]

/-- An answer that declares the length of its data is read. -/
theorem Faithful.read (h : answer.Faithful) (hstatus : answer.descriptor.status ≠ 0xFF)
    {rest : Bytes} {reader : Reader} (hrest : reader.rest = answer.bytes ++ rest) :
    ∃ response next, CommandResponse.read reader = .ok (response, next) ∧ next.rest = rest ∧
      answer.ReadAs response := by
  obtain ⟨status, hstatus⟩ := CommandStatus.exists_ofByte_iff.2 hstatus
  obtain ⟨_, offset, total⟩ := reader
  dsimp only at hrest
  have hconveys : CommandResponse.Conveys
      ⟨answer.descriptor.id, answer.descriptor.flags.attempted, status,
        answer.descriptor.flags.hasData, answer.data⟩ answer.descriptor :=
    ⟨rfl, rfl, rfl, hstatus⟩
  have hread :=
    hconveys.read (faithful_iff.1 h) answer.length_padding rest offset total
  rw [← List.append_assoc, ← bytes, ← hrest] at hread
  exact ⟨_, _, hread, rfl, hconveys, rfl⟩

/-- Only an answer that declares the length of its data is read as itself, and then what is left are
the answers behind it. -/
theorem faithful_of_read {rest : Bytes} {reader next : Reader} {response : CommandResponse}
    (hrest : reader.rest = answer.bytes ++ rest)
    (hread : CommandResponse.read reader = .ok (response, next)) (h : answer.ReadAs response) :
    answer.Faithful ∧ next.rest = rest := by
  obtain ⟨descriptor, padding, -, hlength, hpadding, hsame⟩ := CommandResponse.read_eq_ok hread
  rw [h.2] at hlength hpadding hsame
  rw [hrest, bytes, List.append_assoc] at hsame
  -- Descriptors have the same size, and so do the padded data behind them.
  obtain ⟨hdescriptor, hbehind⟩ := List.append_inj hsame (by simp)
  have hdescriptor : answer.descriptor = descriptor := by
    rw [← Record.ofBytes_toBytes answer.descriptor, hdescriptor, Record.ofBytes_toBytes]
  obtain ⟨-, hnext⟩ := List.append_inj hbehind (by
    rw [List.length_append, List.length_append, hpadding, answer.length_padding])
  exact ⟨faithful_iff.2 (hdescriptor ▸ hlength), hnext.symm⟩

/-- Answers that follow each other are read as themselves exactly if each of them declares the
length of its data. -/
theorem items_read_iff (hstatus : ∀ answer ∈ answers, answer.descriptor.status ≠ 0xFF)
    (reader : Reader) (hrest : reader.rest = answers.flatMap bytes) :
    (∃ responses, reader.items CommandResponse.read = .ok responses ∧
      List.Forall₂ ReadAs answers responses) ↔ ∀ answer ∈ answers, answer.Faithful := by
  induction answers generalizing reader with
  | nil =>
      rw [Reader.items_of_rest_nil hrest]
      simp
  | cons answer answers ih =>
      obtain ⟨hfirst, hothers⟩ := List.forall_mem_cons.1 hstatus
      rw [List.flatMap_cons] at hrest
      have hsome : reader.rest ≠ [] := hrest ▸ answer.bytes_ne_nil _
      rw [List.forall_mem_cons]
      constructor
      · rintro ⟨responses, hitems, hall⟩
        obtain ⟨response, next, others, hread, hnext, rfl⟩ :=
          (Reader.items_eq_ok_iff CommandResponse.advances_read hsome).1 hitems
        obtain ⟨hreadAs, hall⟩ := List.forall₂_cons.1 hall
        obtain ⟨hfaithful, hleft⟩ := faithful_of_read hrest hread hreadAs
        exact ⟨hfaithful, (ih hothers next hleft).1 ⟨others, hnext, hall⟩⟩
      · rintro ⟨hfaithful, hall⟩
        obtain ⟨response, next, hread, hleft, hreadAs⟩ := hfaithful.read hfirst hrest
        obtain ⟨others, hnext, hothers⟩ := (ih hothers next hleft).2 hall
        exact ⟨response :: others, (Reader.items_eq_ok_iff CommandResponse.advances_read hsome).2
          ⟨response, next, others, hread, hnext, rfl⟩, .cons hreadAs hothers⟩

/-- A transfer that is laid out as prescribed is read as its answers exactly if no answer without
data declares a length. -/
theorem decode_transfer_iff (reserved : UInt8 × UInt8 × UInt8) (hsome : answers ≠ [])
    (hstatus : ∀ answer ∈ answers, answer.descriptor.status ≠ 0xFF) :
    (∃ responses, BulkResponse.decode (transfer reserved answers) = .ok (.regular responses) ∧
      List.Forall₂ ReadAs answers responses) ↔
    ∀ answer ∈ answers,
      answer.descriptor.flags.hasData = false → answer.descriptor.dataLength = 0 := by
  have hrest : answers.flatMap bytes ≠ [] := by
    obtain ⟨answer, others, rfl⟩ := List.exists_cons_of_ne_nil hsome
    exact answer.bytes_ne_nil _
  have hitems := items_read_iff hstatus
    ⟨answers.flatMap bytes, 4, 4 + (answers.flatMap bytes).length⟩ rfl
  refine Iff.trans (exists_congr fun responses ↦ and_congr_left fun _ ↦ ?_) hitems
  rw [transfer, BulkResponse.decode_regular reserved hrest]
  cases Reader.items CommandResponse.read _ with
  | error error => simp [Except.map]
  | ok read => simp [Except.map]

/-- A read that gave five bytes, with something else than zeros behind them. -/
def fiveBytes : LaidOutAnswer where
  descriptor := ⟨3, ⟨0xFF⟩, 9, 5⟩
  data := [1, 2, 3, 4, 5]
  padding := [7, 7, 7]
  length_data := rfl
  length_padding := rfl

/-- A write that succeeded. -/
def written : LaidOutAnswer where
  descriptor := ⟨2, ⟨0x01⟩, 0, 0⟩
  data := []
  padding := []
  length_data := rfl
  length_padding := rfl

/-- A read that was not acknowledged and still declares the length it was asked for. -/
def refusedRead : LaidOutAnswer where
  descriptor := ⟨1, ⟨0x01⟩, 5, 4⟩
  data := []
  padding := []
  length_data := rfl
  length_padding := rfl

/-- Five bytes are read back without what fills them up, and so is the answer behind them. -/
theorem readAs_fiveBytes :
    [fiveBytes, written] ≠ [] ∧
    (∀ answer ∈ [fiveBytes, written], answer.descriptor.status ≠ 0xFF) ∧
    ∃ responses,
      BulkResponse.decode (transfer (7, 7, 7) [fiveBytes, written]) = .ok (.regular responses) ∧
      List.Forall₂ ReadAs [fiveBytes, written] responses := by
  have hsome : [fiveBytes, written] ≠ [] := List.cons_ne_nil _ _
  have hstatus : ∀ answer ∈ [fiveBytes, written], answer.descriptor.status ≠ 0xFF := by
    simp [fiveBytes, written]
  refine ⟨hsome, hstatus, (decode_transfer_iff (7, 7, 7) hsome hstatus).2 ?_⟩
  rw [List.forall_mem_cons, List.forall_mem_cons]
  exact ⟨by decide, by decide, by simp⟩

/-- The length that a refused read declares makes the whole transfer unreadable. -/
theorem not_readAs_refusedRead :
    [refusedRead, written] ≠ [] ∧
    (∀ answer ∈ [refusedRead, written], answer.descriptor.status ≠ 0xFF) ∧
    ¬ ∃ responses,
      BulkResponse.decode (transfer (0, 0, 0) [refusedRead, written]) = .ok (.regular responses) ∧
      List.Forall₂ ReadAs [refusedRead, written] responses := by
  have hdecode : BulkResponse.decode (transfer (0, 0, 0) [refusedRead, written]) =
      .error (.bufferTooShort 24 20) := by
    rfl
  refine ⟨List.cons_ne_nil _ _, by simp [refusedRead, written], ?_⟩
  rintro ⟨responses, hread, -⟩
  rw [hdecode] at hread
  cases hread

end LaidOutAnswer

end I3cHost
