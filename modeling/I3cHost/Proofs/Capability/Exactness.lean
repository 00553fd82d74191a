import I3cHost.Proofs.Capability.RoundTrip

/-!
# No bit of a capability report is lost

The header of a report with capability data is read twice, once for the length that it declares and
once as a whole, and the targets are found from that length. A report is read from its header and
its targets, one after the other, where the header declares their length and a data type that admits
them, and from nothing else (`decode_of_heads`, `heads_of_decode`). So what lies beyond the declared
length has no effect, and writing the report gives back the bytes up to there, except for the data
type of a report that announces static data and has none (`decode_exact`).
-/

namespace I3cHost

namespace RoleAndDataType

/-- Setting the data type that is already there changes nothing. -/
theorem setDataType_of_eq {bits : RoleAndDataType} {type : CapabilityDataType}
    (h : bits.dataType = Coded.byte type) : bits.setDataType (Coded.byte type) = bits := by
  obtain ⟨⟨raw⟩⟩ := bits
  cases type <;> revert raw <;> decide

/-- Without static data the two bits of the data type are clear. -/
theorem setDataType_noStaticData (bits : RoleAndDataType) :
    bits.setDataType (Coded.byte CapabilityDataType.noStaticData) = ⟨bits.raw &&& 0xF3⟩ := by
  obtain ⟨⟨raw⟩⟩ := bits
  revert raw
  decide

end RoleAndDataType

/-- A header is that of a report with some targets. -/
structure CapabilityHeader.Heads (header : CapabilityHeader) (targets : List CapabilityEntry) :
    Prop where
  /-- There are capability data. -/
  errorCode : header.errorCode = capabilityDataPresent
  /-- The role is one that is defined. -/
  role : ∃ role : DeviceRole, Coded.ofByte header.roleAndDataType.role = .ok role
  /-- The declared length counts the header and every target. -/
  length : header.totalLength.toNat = 16 + 16 * targets.length
  /-- The data type admits the targets: without static data there are none. -/
  dataType : ∃ type : CapabilityDataType,
    Coded.ofByte header.roleAndDataType.dataType = .ok type ∧ (type = .noStaticData → targets = [])

namespace CapabilityReport

variable {buffer : Bytes} {header : CapabilityHeader} {targets : List CapabilityEntry}
  {report : CapabilityReport}

/-- What is read as a report with capability data begins with a header that says so. -/
theorem exists_header_of_decode (h : decode buffer = .ok report)
    (herror : report.header.errorCode = capabilityDataPresent) :
    ∃ (header : CapabilityHeader) (back : Bytes), header.errorCode = capabilityDataPresent ∧
      buffer = Record.toBytes header ++ back := by
  unfold decode at h
  obtain ⟨⟨preamble, behindPreamble⟩, hpreamble, h⟩ := bind_eq_ok_iff.1 h
  dsimp only at h
  split at h
  next => cases h
  next =>
  split at h
  next hnone =>
    cases h
    exact absurd (hnone.symm.trans herror) (by decide)
  next =>
  split at h
  next => cases h
  next hpresent =>
  split at h
  next => cases h
  next =>
    obtain ⟨⟨header, behindHeader⟩, hheader, -⟩ := bind_eq_ok_iff.1 h
    have hfront := Reader.eq_append_of_record hpreamble
    have hbuffer := Reader.eq_append_of_record hheader
    -- The error code of the preamble is the one of the header, as both have the same bytes.
    have hsame : header.errorCode = preamble.errorCode :=
      congrArg (Bytes.byte · 3) (hbuffer.symm.trans hfront)
    exact ⟨header, behindHeader.rest, hsame.trans (Decidable.not_not.1 hpresent), hbuffer⟩

/-- A report is read from its header and its targets, whatever follows. -/
theorem decode_of_heads (h : header.Heads targets)
    (hbuffer : Record.toBytes header ++ targets.flatMap Record.toBytes <+: buffer) :
    decode buffer = .ok ⟨header, targets⟩ := by
  obtain ⟨herror, ⟨role, hrole⟩, hlength, type, htype, hadmitted⟩ := h
  obtain ⟨rest, rfl⟩ := hbuffer
  have htargets (offset total : Nat) : decodeTargets header.totalLength.toNat type
      ⟨targets.flatMap Record.toBytes ++ rest, offset, total⟩ = .ok targets :=
    (decodeTargets_eq_ok_iff (by omega)).2 ⟨hlength, hadmitted, List.prefix_append _ rest⟩
  have hsize : (targets.flatMap Record.toBytes).length = targets.length * 16 :=
    EntryList.length_flatMap_toBytes _
  rw [List.append_assoc, decode_header herror]
  dsimp only
  rw [if_neg, if_neg, hrole, htype]
  · simp only [bind, Except.bind, htargets]
    rfl
  · omega
  · rw [List.length_append, hsize]
    omega

/-- A buffer that a report with capability data is read from begins with the header and the targets
of the report, and the header is that of a report with these targets. -/
theorem heads_of_decode (h : decode buffer = .ok report)
    (herror : report.header.errorCode = capabilityDataPresent) :
    report.header.Heads report.targets ∧
      Record.toBytes report.header ++ report.targets.flatMap Record.toBytes <+: buffer := by
  obtain ⟨header, back, hpresent, rfl⟩ := exists_header_of_decode h herror
  rw [decode_header hpresent] at h
  dsimp only at h
  split at h
  next => cases h
  next =>
  split at h
  next => cases h
  next hlong =>
    obtain ⟨role, hrole, h⟩ := bind_eq_ok_iff.1 h
    obtain ⟨type, htype, h⟩ := bind_eq_ok_iff.1 h
    obtain ⟨targets, htargets, h⟩ := bind_eq_ok_iff.1 h
    cases h
    obtain ⟨hlength, hadmitted, hback⟩ :=
      (decodeTargets_eq_ok_iff (Nat.le_of_not_lt hlong)).1 htargets
    exact ⟨⟨hpresent, ⟨role, hrole⟩, hlength, type, htype, hadmitted⟩,
      (List.prefix_append_right_inj _).2 hback⟩

/-- A report that announces static data and has none. -/
def IsHollow (report : CapabilityReport) : Prop :=
  report.header.roleAndDataType.dataType = Coded.byte CapabilityDataType.staticData ∧
    report.targets = []

/-- A header is written as it is, with the data type that its targets call for. -/
theorem writtenHeader_of_heads (h : report.header.Heads report.targets) :
    report.writtenHeader = { report.header with
      roleAndDataType := report.header.roleAndDataType.setDataType
        (Coded.byte (dataTypeOf report.targets)) } := by
  have hlength : UInt16.ofNat report.encodedSize = report.header.totalLength := by
    rw [encodedSize_eq h.errorCode, ← h.length, UInt16.ofNat_toNat]
  rw [writtenHeader, hlength]
  rfl

/-- The data type is the one that the targets call for, unless the report is hollow. -/
theorem writtenHeader_of_not_isHollow (h : report.header.Heads report.targets)
    (hfull : ¬ report.IsHollow) : report.writtenHeader = report.header := by
  obtain ⟨type, htype, hadmitted⟩ := h.dataType
  have hbyte := (Coded.byte_of_ofByte htype).symm
  have hcalled : dataTypeOf report.targets = type := by
    cases type with
    | noStaticData => exact dataTypeOf_eq_iff.2 (hadmitted rfl)
    | staticData =>
        have hsome : report.targets ≠ [] := fun hnone ↦ hfull ⟨hbyte, hnone⟩
        rw [dataTypeOf, if_neg (by simpa using hsome)]
  rw [writtenHeader_of_heads h, hcalled, RoleAndDataType.setDataType_of_eq hbyte]

/-- A hollow report is written without the announcement. -/
theorem writtenHeader_of_isHollow (h : report.header.Heads report.targets)
    (hhollow : report.IsHollow) :
    report.writtenHeader = { report.header with
      roleAndDataType := ⟨report.header.roleAndDataType.raw &&& 0xF3⟩ } := by
  rw [writtenHeader_of_heads h, hhollow.2]
  exact congrArg (fun bits ↦ { report.header with roleAndDataType := bits })
    (RoleAndDataType.setDataType_noStaticData _)

/-- A header that is written is that of a report with the same targets. -/
theorem heads_writtenHeader (h : report.header.Heads report.targets) :
    report.writtenHeader.Heads report.targets := by
  rw [writtenHeader_of_heads h]
  refine ⟨h.errorCode, ?_, h.length, dataTypeOf report.targets, ?_, dataTypeOf_eq_iff.1⟩
  · rw [RoleAndDataType.role_setDataType]
    exact h.role
  · rw [RoleAndDataType.dataType_setDataType]
    exact CapabilityDataType.ofByte_byte _

/-- Of a buffer that a report with capability data is read from, only the bytes count that the
report declares. Writing the report gives back just these bytes. Only if it announces static data
and has none, the two bits of the data type are written clear; the targets that are read from what
was written are the same even then. -/
theorem decode_exact (h : decode buffer = .ok report)
    (herror : report.header.errorCode = capabilityDataPresent) :
    let declared := report.header.totalLength.toNat
    (buffer.word16 0 = report.header.totalLength ∧ declared ≤ buffer.length) ∧
    (∀ other : Bytes, other.take declared = buffer.take declared → decode other = .ok report) ∧
    ∃ bytes, Message.toBytes report = .ok bytes ∧
      (¬ report.IsHollow → bytes = buffer.take declared) ∧
      (report.IsHollow → bytes = (buffer.take declared).set 2 (buffer.byte 2 &&& 0xF3) ∧
        ∃ header, decode bytes = .ok ⟨header, report.targets⟩) := by
  obtain ⟨hheads, rest, rfl⟩ := heads_of_decode h herror
  intro declared
  have hlength : (Record.toBytes report.header ++
      report.targets.flatMap Record.toBytes).length = declared := by
    rw [List.length_append, Record.length_toBytes, EntryList.length_flatMap_toBytes, Nat.mul_comm]
    exact hheads.length.symm
  rw [List.take_left' hlength]
  refine ⟨⟨?_, ?_⟩, fun other hother ↦ ?_, report.layout, toBytes_eq_layout herror, fun hfull ↦ ?_,
    fun hhollow ↦ ⟨?_, report.writtenHeader, ?_⟩⟩
  · simp [Record.toBytes, Bytes.ofWord16, Bytes.word16]
  · rw [List.length_append, hlength]
    omega
  · refine decode_of_heads hheads ?_
    rw [← hother]
    exact List.take_prefix declared other
  · rw [layout, writtenHeader_of_not_isHollow hheads hfull]
  · rw [layout, writtenHeader_of_isHollow hheads hhollow]
    rfl
  · exact decode_of_heads (heads_writtenHeader hheads) List.prefix_rfl

/-- A report of one target with every reserved bit set, and two bytes behind it. -/
def reservedBits : Bytes :=
  [32, 0, 0xF5, 0, 1, 1, 1, 0, 0xC0, 0xFF, 0, 0xFF, 8, 0, 0, 0] ++
    [80, 2, 0, 1, 0, 0, 0, 0, 0, 0, 0xFF, 0xFF, 4, 0, 0, 0] ++ [7, 7]

/-- The report that is read from the buffer with the reserved bits set. -/
def reservedReport : CapabilityReport where
  header := Record.ofBytes (reservedBits.take 16)
  targets := [Record.ofBytes ((reservedBits.drop 16).take 16)]

/-- A header that announces static data, and a stray byte instead. -/
def hollowBytes : Bytes :=
  [16, 0, 0xF5, 0, 1, 1, 1, 0, 0xC0, 0xFF, 0, 0xFF, 8, 0, 0, 0] ++ [7]

/-- The report that is read from the buffer without static data. -/
def hollowReport : CapabilityReport where
  header := Record.ofBytes (hollowBytes.take 16)

/-- A report with reserved bits set is reproduced, and a hollow one but for its data type. -/
theorem decode_exact_reservedBits :
    (decode reservedBits = .ok reservedReport ∧
      reservedReport.header.errorCode = capabilityDataPresent ∧ ¬ reservedReport.IsHollow ∧
      Message.toBytes reservedReport = .ok (reservedBits.take 32)) ∧
    decode hollowBytes = .ok hollowReport ∧
      hollowReport.header.errorCode = capabilityDataPresent ∧ hollowReport.IsHollow ∧
      Message.toBytes hollowReport = .ok ((hollowBytes.take 16).set 2 0xF1) := by
  have hread : decode reservedBits = .ok reservedReport := rfl
  have hfull : ¬ reservedReport.IsHollow := fun hhollow ↦ absurd hhollow.2 (by decide)
  have hreadHollow : decode hollowBytes = .ok hollowReport := rfl
  have hhollow : hollowReport.IsHollow := ⟨by decide, rfl⟩
  obtain ⟨-, -, bytes, hbytes, hexact, -⟩ := decode_exact hread rfl
  obtain ⟨-, -, stripped, hstripped, -, hcleared⟩ := decode_exact hreadHollow rfl
  refine ⟨⟨hread, rfl, hfull, ?_⟩, hreadHollow, rfl, hhollow, ?_⟩
  · rw [hbytes, hexact hfull]
    rfl
  · rw [hstripped, (hcleared hhollow).1]
    rfl

end CapabilityReport

end I3cHost
