import I3cHost.Proofs.Messages.Outlines

/-!
# Messages in a destination

A message that can be written fills the front of every destination with room for its bytes, piece by
piece and whatever was there before, and no byte behind its own is changed; a destination without
the room is refused as too short (`variableLength_fillsFront`).

The number of bytes that is announced for a message always suffices. It is the number of bytes that
are written, except for a bulk request with a read that carries data: its data is counted, but reads
are written without any (`announced_exact_iff`, `not_announced_readCarryingData`).
-/

namespace I3cHost.Message

/-- Messages of a type replace the front of every destination that has room for their bytes, and
leave the rest of it as it was. -/
structure FillsFront (α : Type) [Message α] [Outlined α] : Prop where
  /-- The bytes of a message are its pieces, without a gap. -/
  tiled : ∀ message bytes, toBytes (α := α) message = .ok bytes →
    (Outlined.outline message).pieces.flatten = bytes
  /-- A message is written by placing its pieces behind each other in the destination. -/
  inPlace : ∀ message bytes, toBytes (α := α) message = .ok bytes → ∀ destination,
    encodeInto message destination = Bytes.place (Outlined.outline message).pieces destination
  /-- A destination with room begins with the bytes of the message, and goes on as it did before. -/
  fits : ∀ message bytes, toBytes (α := α) message = .ok bytes → ∀ destination,
    bytes.length ≤ destination.length →
      encodeInto message destination = .ok (bytes.length, bytes ++ destination.drop bytes.length)
  /-- A destination without room is refused at the first piece that it does not have room for. -/
  short : ∀ message bytes, toBytes (α := α) message = .ok bytes → ∀ destination,
    destination.length < bytes.length →
      ∃ needed, destination.length < needed ∧ needed ≤ bytes.length ∧
        encodeInto message destination = .error (.bufferTooShort needed destination.length)

/-- Messages of a type never take more bytes of a destination than announced, and exactly as many if
they are of a kind. -/
structure Announced (α : Type) [Message α] (Exact : α → Prop) (destination : Bytes) : Prop where
  /-- In a destination of the announced length, only what is wrong with a message itself matters. -/
  enough : ∀ message : α, encodedSize message ≤ destination.length →
    encodeInto message destination =
      (toBytes message).map fun bytes ↦ (bytes.length, bytes ++ destination.drop bytes.length)
  most : ∀ (message : α) count buffer,
    encodeInto message destination = .ok (count, buffer) → count ≤ encodedSize message
  exact_iff : ∀ (message : α) count buffer,
    encodeInto message destination = .ok (count, buffer) →
      (count = encodedSize message ↔ Exact message)

variable {α : Type} [Message α] [Outlined α]

open Outlined

/-- Messages that are written as their outlines fill the front of a destination. -/
theorem fillsFront : FillsFront α where
  tiled message bytes h := (toBytes_eq_ok_iff.1 h).2
  inPlace message bytes h destination :=
    (place_eq_encodeInto (toBytes_eq_ok_iff.1 h).1 destination).symm
  fits message bytes h destination hroom := by
    obtain ⟨hfault, rfl⟩ := toBytes_eq_ok_iff.1 h
    rw [encodeInto_of_fits hroom, hfault]
  short message bytes h destination hroom := by
    obtain ⟨-, rfl⟩ := toBytes_eq_ok_iff.1 h
    exact encodeInto_of_short hroom

/-- What is announced for messages is exact for a kind of them if it is for their outlines. -/
theorem announced {Exact : α → Prop} {destination : Bytes}
    (hexact : ∀ message : α, (outline message).fault? = none →
      ((outline message).bytes.length = encodedSize message ↔ Exact message)) :
    Announced α Exact destination where
  enough message hroom := by
    rw [encodeInto_of_fits (Nat.le_trans (length_bytes_le message) hroom), toBytes_eq]
    cases (outline message).fault? <;> rfl
  most message count buffer h := by
    obtain ⟨-, -, hresult⟩ := encodeInto_eq_ok_iff.1 h
    cases hresult
    exact length_bytes_le message
  exact_iff message count buffer h := by
    obtain ⟨hfault, -, hresult⟩ := encodeInto_eq_ok_iff.1 h
    cases hresult
    exact hexact message hfault

/-- Every message of variable length that can be written replaces exactly the front of a destination
that has room for its bytes, piece by piece, and is refused by any other one. -/
theorem variableLength_fillsFront :
    FillsFront BulkRequest ∧ FillsFront BulkResponse ∧ FillsFront CapabilityReport ∧
      FillsFront ConfigChange ∧ FillsFront TargetListing ∧ FillsFront AddressChangeRequest ∧
      FillsFront AddressChangeReport :=
  ⟨fillsFront, fillsFront, fillsFront, fillsFront, fillsFront, fillsFront, fillsFront⟩

/-- The padding of a payload is written too, and behind it there is what was there before. -/
example : toBytes (BulkResponse.ibi [1, 2, 3, 4, 5]) =
      .ok [1, 0, 0, 0, 1, 2, 3, 4, 5, 0, 0, 0] ∧
    encodeInto (BulkResponse.ibi [1, 2, 3, 4, 5]) (List.replicate 14 0xAA) =
      .ok (12, [1, 0, 0, 0, 1, 2, 3, 4, 5, 0, 0, 0] ++ [0xAA, 0xAA]) :=
  ⟨rfl, rfl⟩

/-- As many bytes are written to a destination as were announced for a message, unless it is a bulk
request with a read that carries data: fewer bytes are written for such a request. -/
theorem announced_exact_iff (destination : Bytes) :
    (∀ (α : Type) [Record α], Announced α (fun _ ↦ True) destination) ∧
      Announced BulkRequest BulkRequest.ReadsBare destination ∧
      Announced BulkResponse (fun _ ↦ True) destination ∧
      Announced CapabilityReport (fun _ ↦ True) destination ∧
      Announced ConfigChange (fun _ ↦ True) destination ∧
      Announced TargetListing (fun _ ↦ True) destination ∧
      Announced AddressChangeRequest (fun _ ↦ True) destination ∧
      Announced AddressChangeReport (fun _ ↦ True) destination := by
  refine ⟨fun α _ ↦ announced fun message _ ↦ ?_, announced fun request hfault ↦ ?_,
    announced fun response hfault ↦ ?_, announced fun report _ ↦ ?_,
    announced fun change hfault ↦ ?_, announced fun listing hfault ↦ ?_,
    announced fun request hfault ↦ ?_, announced fun report hfault ↦ ?_⟩
  · exact iff_of_true (Outline.length_bytes_record message) trivial
  · exact BulkRequest.length_bytes_outline_iff hfault
  · exact iff_of_true (BulkResponse.length_bytes_outline hfault) trivial
  · exact iff_of_true report.length_bytes_outline trivial
  · exact iff_of_true (ConfigChange.length_bytes_outline hfault) trivial
  · exact iff_of_true (EntryList.length_bytes_outline hfault) trivial
  · exact iff_of_true (EntryList.length_bytes_outline hfault) trivial
  · exact iff_of_true (EntryList.length_bytes_outline hfault) trivial

/-- A request with one block: a read of four bytes that carries four bytes of data itself. -/
def readCarryingData : BulkRequest :=
  .regular [{
    id := 1
    dependent := false
    descriptor := { attributes := .setRead {} true, target := 8, dataLength := 4 }
    data := [1, 2, 3, 4] }]

/-- Twenty-eight bytes are announced for a read that carries data, and twenty-four are written. -/
theorem not_announced_readCarryingData :
    encodedSize readCarryingData = 28 ∧
      (encodeInto readCarryingData (Bytes.zeros 28)).map Prod.fst = .ok 24 ∧
      ¬ Announced BulkRequest (fun _ ↦ True) (Bytes.zeros 28) := by
  have hannounced : encodedSize readCarryingData = 28 := rfl
  have hwritten : ∃ buffer, encodeInto readCarryingData (Bytes.zeros 28) = .ok (24, buffer) :=
    ⟨_, rfl⟩
  obtain ⟨buffer, hbuffer⟩ := hwritten
  refine ⟨hannounced, by rw [hbuffer]; rfl, fun h ↦ ?_⟩
  have hexact := (h.exact_iff readCarryingData 24 buffer hbuffer).2 trivial
  rw [hannounced] at hexact
  cases hexact

end I3cHost.Message
