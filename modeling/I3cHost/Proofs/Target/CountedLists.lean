import I3cHost.Proofs.Codec.EntryList
import I3cHost.Proofs.Target.Acceptance
import I3cHost.Proofs.Target.Configuration
import I3cHost.Target.AddressChange
import I3cHost.Target.Listing

/-!
# The lists that are exchanged about targets

Listings, wished address changes, their outcomes and configurations are lists of entries of one size
behind a header of four bytes that counts them. `CountedList` gives the header, the number of
entries that it can count and what can be wrong with an entry, and `CountedList.Lawful` the laws of
such a format: what is written, what is read from it and from a part of it, and that nothing but
such bytes is read. All four formats are lawful (`counted_lists_lawful`), the three that count with
two bytes by one argument (`CountedList.ofEntryList`).
-/

namespace I3cHost

/-- A value, unless there is a fault. -/
def unlessFault {α : Type} (fault? : Option CodecError) (value : α) : CodecResult α :=
  match fault? with
  | none => .ok value
  | some error => .error error

/-- A value is returned exactly if there is no fault. -/
theorem unlessFault_eq_ok_iff {α : Type} {fault? : Option CodecError} {value result : α} :
    unlessFault fault? value = .ok result ↔ fault? = none ∧ value = result := by
  cases fault? <;> simp [unlessFault]

/-- A format of messages that are lists of entries behind a header of four bytes. -/
structure CountedList (α μ : Type) where
  /-- The message with some entries. -/
  message : List α → μ
  /-- The header in front of a number of entries, with its two reserved bytes. -/
  header : Nat → UInt8 × UInt8 → Bytes
  /-- The largest number of entries that the header can count. -/
  most : Nat
  /-- What the number of entries is called when it is too large. -/
  countField : String
  /-- What is wrong with an entry, if anything is. -/
  fault? : α → Option CodecError

namespace CountedList

variable {α μ : Type} [Record α] [Message μ]

/-- The bytes of a list: the header and the entries, one after the other. -/
def bytes (format : CountedList α μ) (reserved : UInt8 × UInt8) (entries : List α) : Bytes :=
  format.header entries.length reserved ++ entries.flatMap Record.toBytes

/-- The laws of a counted list, for every list of entries and all reserved bytes. -/
structure Lawful (format : CountedList α μ) : Prop where
  /-- A list with too many entries is not written. -/
  refused : ∀ entries : List α, format.most < entries.length →
    Message.toBytes (format.message entries) =
      .error (.invalidField format.countField (UInt32.ofNat entries.length))
  /-- Any other list is, with the reserved bytes of the header clear. -/
  written : ∀ entries : List α, entries.length ≤ format.most →
    Message.toBytes (format.message entries) = .ok (format.bytes (0, 0) entries)
  /-- The bytes of a list are read as the list, whatever follows them. If an entry is at fault,
  nothing is read, and the fault of the first such entry is the answer. -/
  read : ∀ (reserved : UInt8 × UInt8) (entries : List α) (rest : Bytes),
    entries.length ≤ format.most →
    Message.decode (format.bytes reserved entries ++ rest) =
      unlessFault (entries.findSome? format.fault?) (format.message entries)
  /-- Nothing is read from a part of the bytes of a list. -/
  cut : ∀ (reserved : UInt8 × UInt8) (entries : List α), entries.length ≤ format.most →
    ∀ count < (format.bytes reserved entries).length,
      EndsEarly count (Message.decode ((format.bytes reserved entries).take count) : CodecResult μ)
  /-- Whatever is read begins with the bytes of a list without any fault. -/
  accepted : ∀ (buffer : Bytes) (message : μ), Message.decode buffer = .ok message →
    ∃ (reserved : UInt8 × UInt8) (entries : List α) (rest : Bytes),
      message = format.message entries ∧ entries.length ≤ format.most ∧
      buffer = format.bytes reserved entries ++ rest ∧
      ∀ entry ∈ entries, format.fault? entry = none

end CountedList

/-- A check of every value of a list fails with the first fault. -/
theorem forM_eq_unlessFault {α : Type} {check : α → CodecResult Unit}
    {fault? : α → Option CodecError}
    (hcheck : ∀ value, check value = unlessFault (fault? value) ()) (values : List α) :
    values.forM check = unlessFault (values.findSome? fault?) () := by
  induction values with
  | nil => rfl
  | cons value values ih =>
      show (check value >>= fun _ ↦ values.forM check) = _
      rw [hcheck, List.findSome?_cons, ih]
      cases fault? value <;> rfl

/-- What is wrong with a number in a field: it is larger than the last one that is defined. -/
def undefinedFault? (field : String) (last number : UInt8) : Option CodecError :=
  if number ≤ last then none else some (.invalidField field number.toUInt32)

/-- A number is checked against the last one that is defined, if all up to it are. -/
theorem Coded.check_eq {α : Type} [Coded α] {last : UInt8}
    (hlast : ∀ value ∈ values (α := α), code value ≤ last.toNat)
    (hdefined : ∀ number ≤ last.toNat, ∃ value ∈ values (α := α), code value = number)
    (number : UInt8) :
    (do let _ ← ofByte (α := α) number : CodecResult Unit) =
      unlessFault (undefinedFault? (subject α) last number) () := by
  rw [undefinedFault?]
  by_cases hle : number ≤ last
  · obtain ⟨value, -, hvalue⟩ := hdefined number.toNat (UInt8.le_iff_toNat_le.1 hle)
    rw [if_pos hle, show ofByte number = .ok value from decode_eq_ok_iff.2 hvalue]
    rfl
  · have hnone : ofCode? (α := α) number.toNat = none := by
      refine List.find?_eq_none.2 fun value _ hvalue ↦ hle ?_
      rw [UInt8.le_iff_toNat_le, ← beq_iff_eq.1 hvalue]
      exact hlast value (mem_values value)
    rw [if_neg hle, ofByte, decode, hnone, UInt32.ofNat_uInt8ToNat]
    rfl

namespace CountedList

variable {α μ : Type} [Record α] [Message μ] {message : List α → μ}
  {fault? : α → Option CodecError}

/-- The format of a message that counts its entries with two bytes. -/
def ofEntryList (message : List α → μ) (fault? : α → Option CodecError) : CountedList α μ where
  message
  header count reserved := .ofWord16 (UInt16.ofNat count) ++ [reserved.1, reserved.2]
  most := 65535
  countField := "entry count"
  fault?

/-- A message is a lawful list if it is written as its entries, and read as them unless one of them
is at fault. -/
theorem lawful_ofEntryList
    (hsize : ∀ entries, Message.encodedSize (message entries) = EntryList.size α entries.length)
    (hencode : ∀ entries, Message.encode (message entries) = EntryList.encode entries)
    (hdecode : ∀ buffer, Message.decode buffer = do
      let entries ← EntryList.decode buffer
      unlessFault (entries.findSome? fault?) (message entries)) :
    (ofEntryList message fault?).Lawful where
  refused entries hmost := by
    have hcount : ¬ entries.length ≤ 65535 := Nat.not_le.2 hmost
    show Message.toBytes (message entries) = _
    rw [Message.toBytes, hencode, EntryList.encode, if_neg hcount]
    rfl
  written entries hcount := by
    show Message.toBytes (message entries) = .ok (EntryList.layout entries)
    refine Message.toBytes_of_fits ?_ fun writer hfits ↦ ?_
    · rw [EntryList.length_layout, hsize]
    · rw [hencode, EntryList.encode_of_fits hcount hfits]
  read reserved entries rest hcount := by
    have hread := EntryList.decode_append hcount reserved rest
    rw [← List.append_assoc] at hread
    show Message.decode ((Record.toBytes (EntryList.header entries.length reserved) ++
      entries.flatMap Record.toBytes) ++ rest) = _
    rw [hdecode, hread]
    rfl
  cut reserved entries hcount count h := by
    have hearly := EntryList.decode_take_endsEarly hcount reserved h
    rw [hdecode]
    exact hearly.bind _
  accepted buffer received h := by
    rw [hdecode] at h
    obtain ⟨entries, hentries, hchecked⟩ := bind_eq_ok_iff.1 h
    obtain ⟨hcount, reserved, rest, rfl⟩ := EntryList.eq_append_of_decode hentries
    obtain ⟨hnone, rfl⟩ := unlessFault_eq_ok_iff.1 hchecked
    exact ⟨reserved, entries, rest, rfl, hcount, (List.append_assoc _ _ _).symm,
      List.findSome?_eq_none_iff.1 hnone⟩

/-- A message of which a number in every entry is checked is a lawful list. -/
theorem lawful_ofCoded {β : Type} [Coded β] {field : α → UInt8} {last : UInt8}
    (hlast : ∀ value ∈ Coded.values (α := β), Coded.code value ≤ last.toNat)
    (hdefined : ∀ number ≤ last.toNat, ∃ value ∈ Coded.values (α := β), Coded.code value = number)
    (hsize : ∀ entries, Message.encodedSize (message entries) = EntryList.size α entries.length)
    (hencode : ∀ entries, Message.encode (message entries) = EntryList.encode entries)
    (hdecode : ∀ buffer, Message.decode buffer = do
      let entries ← EntryList.decode buffer
      entries.forM fun entry ↦ do
        let _ ← Coded.ofByte (α := β) (field entry)
      return message entries) :
    (ofEntryList message fun entry ↦
      undefinedFault? (Coded.subject β) last (field entry)).Lawful := by
  refine lawful_ofEntryList hsize hencode fun buffer ↦ (hdecode buffer).trans ?_
  congr 1
  funext entries
  rw [forM_eq_unlessFault fun entry ↦ Coded.check_eq hlast hdefined (field entry)]
  cases entries.findSome? _ <;> rfl

end CountedList

/-- The rows of a listing, whose types are 0 and 1. -/
def TargetListing.format : CountedList TargetRow TargetListing :=
  .ofEntryList TargetListing.mk fun row ↦ undefinedFault? "target type" 1 row.type

/-- A listing is a lawful list of its rows. -/
theorem TargetListing.lawful_format : format.Lawful :=
  CountedList.lawful_ofCoded (β := TargetType) (by decide) (by decide) (fun _ ↦ rfl) (fun _ ↦ rfl)
    fun _ ↦ rfl

/-- The outcomes of address changes, whose statuses are 0 and 1. -/
def AddressChangeReport.format : CountedList AddressChangeOutcome AddressChangeReport :=
  .ofEntryList AddressChangeReport.mk
    fun outcome ↦ undefinedFault? "address change status" 1 outcome.status

/-- A report on address changes is a lawful list of its outcomes. -/
theorem AddressChangeReport.lawful_format : format.Lawful :=
  CountedList.lawful_ofCoded (β := AddressChangeStatus) (by decide) (by decide) (fun _ ↦ rfl)
    (fun _ ↦ rfl) fun _ ↦ rfl

/-- Wished address changes, with which nothing can be wrong. -/
def AddressChangeRequest.format : CountedList AddressChangeEntry AddressChangeRequest :=
  .ofEntryList AddressChangeRequest.mk fun _ ↦ none

/-- Wished address changes are a lawful list. -/
theorem AddressChangeRequest.lawful_format : format.Lawful := by
  refine CountedList.lawful_ofEntryList (fun _ ↦ rfl) (fun _ ↦ rfl) fun buffer ↦ ?_
  show (do return ⟨← EntryList.decode buffer⟩ : CodecResult AddressChangeRequest) = _
  congr 1
  funext entries
  rw [List.findSome?_eq_none_iff.2 fun _ _ ↦ rfl]
  rfl

namespace ConfigChange

variable {entries : List ConfigChangeEntry}

/-- New configurations, which are counted with one byte behind the command type. Nothing can be
wrong with one. -/
def format : CountedList ConfigChangeEntry ConfigChange where
  message := ConfigChange.mk
  header count reserved := [1, UInt8.ofNat count, reserved.1, reserved.2]
  most := 255
  countField := "target config entry count"
  fault? _ := none

/-- New configurations that are cut off are found too short, and where. -/
theorem decode_take_endsEarly (hcount : entries.length ≤ 255) (reserved : UInt8 × UInt8)
    {count : Nat} (h : count < (Record.toBytes (header entries.length reserved) ++
      entries.flatMap Record.toBytes).length) :
    EndsEarly count (decode ((Record.toBytes (header entries.length reserved) ++
      entries.flatMap Record.toBytes).take count)) := by
  unfold decode
  rw [Reader.ofBytes, List.length_take_of_le (Nat.le_of_lt h)]
  refine Reader.record_take_bind (Nat.zero_add count).symm h fun fewer hfewer hrest ↦ ?_
  have htype : ¬ (header entries.length reserved).commandType ≠ commandType := fun h ↦ h rfl
  dsimp only
  rw [count_header hcount, if_neg htype]
  refine (Reader.records_endsEarly ?_ ?_).bind _
  · rw [List.length_take]
    omega
  · rw [List.length_take]
    rw [EntryList.length_flatMap_toBytes] at hfewer
    omega

/-- What is read as new configurations begins with their bytes, reserved ones aside. -/
theorem eq_append_of_decode {buffer : Bytes} {change : ConfigChange}
    (h : decode buffer = .ok change) :
    change.entries.length ≤ 255 ∧ ∃ reserved rest, buffer =
      Record.toBytes (header change.entries.length reserved) ++
        (change.entries.flatMap Record.toBytes ++ rest) := by
  unfold decode at h
  obtain ⟨⟨read, behindHeader⟩, hheader, h⟩ := bind_eq_ok_iff.1 h
  dsimp only at h
  split at h
  next => cases h
  next htype =>
    obtain ⟨⟨entries, behind⟩, hentries, h⟩ := bind_eq_ok_iff.1 h
    cases h
    obtain ⟨hlength, hrest⟩ := Reader.eq_append_of_records hentries
    have hcount : header entries.length read.reserved = read := by
      rw [header, hlength, UInt8.ofNat_toNat, ← Decidable.not_not.1 htype]
    refine ⟨hlength ▸ Nat.le_of_lt_succ read.count.toNat_lt, read.reserved, behind.rest, ?_⟩
    rw [hcount, ← hrest]
    exact Reader.eq_append_of_record hheader

/-- New configurations are a lawful list, counted with one byte. -/
theorem lawful_format : format.Lawful where
  refused entries hmost := by
    have hcount : ¬ entries.length ≤ 255 := Nat.not_le.2 hmost
    show (encode ⟨entries⟩ _ >>= _) = _
    rw [encode, if_neg hcount]
    rfl
  written entries hcount := toBytes_eq_layout ⟨entries⟩ hcount
  read reserved entries rest hcount := by
    rw [show entries.findSome? format.fault? = none from
      List.findSome?_eq_none_iff.2 fun _ _ ↦ rfl]
    have hread := decode_append hcount reserved rest
    rwa [← List.append_assoc] at hread
  cut reserved entries hcount _ h := decode_take_endsEarly hcount reserved h
  accepted buffer change h := by
    obtain ⟨hcount, reserved, rest, hbuffer⟩ := eq_append_of_decode h
    rw [← List.append_assoc] at hbuffer
    exact ⟨reserved, change.entries, rest, rfl, hcount, hbuffer, fun _ _ ↦ rfl⟩

end ConfigChange

/-- Each of the four lists is refused if it has too many entries and written otherwise. What is
written is read as the same list, whatever the reserved bytes are and whatever follows. It is not
read if a byte is missing, or if the type of a target or the status of a change is not defined, and
nothing else is read. -/
theorem counted_lists_lawful :
    TargetListing.format.Lawful ∧ AddressChangeRequest.format.Lawful ∧
      AddressChangeReport.format.Lawful ∧ ConfigChange.format.Lawful :=
  ⟨TargetListing.lawful_format, AddressChangeRequest.lawful_format,
    AddressChangeReport.lawful_format, ConfigChange.lawful_format⟩

/-- An outcome that is not defined behind one that is. -/
example : AddressChangeReport.decode [2, 0, 0, 0, 8, 9, 0, 0, 9, 10, 2, 0] =
    .error (.invalidField "address change status" 2) :=
  rfl

end I3cHost
