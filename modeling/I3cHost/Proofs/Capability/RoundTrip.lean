import I3cHost.Capability.Report
import I3cHost.Proofs.Codec.EntryList

/-!
# Reading back a capability report

A report with capability data is written as its header, with the declared length and the data type
set for its targets, followed by the targets (`toBytes_eq_layout`). The declared length is a 16-bit
word, so it counts every byte only for up to 4094 targets. Writing does not check this: a longer
report is written with its length reduced modulo 65536, and reading follows the length that is
declared (`decode_layout`). `decode_toBytes_iff` says that a report is read back, with a header that
describes its targets, exactly if there are no more than 4094 of them.
-/

namespace I3cHost

namespace RoleAndDataType

/-- The bits of the byte that do not hold the data type. -/
def others (bits : RoleAndDataType) : UInt8 :=
  bits.raw &&& 0xF3

variable (bits : RoleAndDataType) (type : CapabilityDataType)

/-- The data type is read back as it was set. -/
@[simp] theorem dataType_setDataType :
    (bits.setDataType (Coded.byte type)).dataType = Coded.byte type := by
  obtain ⟨⟨raw⟩⟩ := bits
  cases type <;> revert raw <;> decide

/-- Setting the data type does not touch the role. -/
@[simp] theorem role_setDataType : (bits.setDataType (Coded.byte type)).role = bits.role := by
  obtain ⟨⟨raw⟩⟩ := bits
  cases type <;> revert raw <;> decide

/-- Setting the data type touches no other bits of the byte. -/
@[simp] theorem others_setDataType :
    (bits.setDataType (Coded.byte type)).others = bits.others := by
  obtain ⟨⟨raw⟩⟩ := bits
  cases type <;> revert raw <;> decide

end RoleAndDataType

/-- A role is read back as it was written. -/
theorem DeviceRole.ofByte_byte (role : DeviceRole) : Coded.ofByte (Coded.byte role) = .ok role :=
  Coded.ofByte_byte (by cases role <;> decide)

/-- A data type is read back as it was written. -/
theorem CapabilityDataType.ofByte_byte (type : CapabilityDataType) :
    Coded.ofByte (Coded.byte type) = .ok type :=
  Coded.ofByte_byte (by cases type <;> decide)

/-- A header describes a list of targets: it declares the length of the report with these targets
and whether there are any, and is otherwise the header that was given. -/
structure CapabilityHeader.Describes (header given : CapabilityHeader)
    (targets : List CapabilityEntry) : Prop where
  /-- The declared length counts the header and every target. -/
  length : header.totalLength.toNat = 16 + 16 * targets.length
  /-- The data type is one exactly if there are targets. -/
  dataType : header.roleAndDataType.dataType = if targets = [] then 0 else 1
  /-- The bits beside the data type are those given. -/
  others : header.roleAndDataType.others = given.roleAndDataType.others
  /-- Every other field is the one given. -/
  rest : header = { given with
    totalLength := header.totalLength, roleAndDataType := header.roleAndDataType }

namespace CapabilityReport

/-- The most targets for which the length of a report is a 16-bit word. -/
def mostTargets : Nat := 4094

/-- The bytes of a report with capability data: the header that is written, and the targets. -/
def layout (report : CapabilityReport) : Bytes :=
  Record.toBytes report.writtenHeader ++ report.targets.flatMap Record.toBytes

variable {report : CapabilityReport} {role : DeviceRole}

/-- A report that has no error has capability data. -/
theorem hasData_of_errorCode (herror : report.header.errorCode = capabilityDataPresent) :
    report.hasData = true := by
  rw [hasData, herror]
  rfl

/-- A report with capability data takes 16 bytes for its header and 16 for each target. -/
theorem encodedSize_eq (herror : report.header.errorCode = capabilityDataPresent) :
    report.encodedSize = 16 + 16 * report.targets.length := by
  rw [encodedSize, if_pos (hasData_of_errorCode herror), Nat.mul_comm 16]
  rfl

/-- The bytes of a report are as many as its size says. -/
theorem length_layout (report : CapabilityReport) :
    report.layout.length = 16 + 16 * report.targets.length := by
  rw [layout, List.length_append, Record.length_toBytes, EntryList.length_flatMap_toBytes,
    Nat.mul_comm]
  rfl

/-- A report with capability data is written wherever there is room for it, however long it is. -/
theorem encode_of_fits (herror : report.header.errorCode = capabilityDataPresent)
    {writer : Writer} (h : writer.Fits report.layout) :
    encode report writer = .ok (writer.extend report.layout) := by
  rw [encode, if_pos (hasData_of_errorCode herror)]
  exact Writer.headed_of_fits (fun target writer ↦ writer.record target)
    (fun _ _ _ hfits ↦ Writer.record_of_fits hfits) h

/-- A report with capability data is written as its header and its targets. -/
theorem toBytes_eq_layout (herror : report.header.errorCode = capabilityDataPresent) :
    Message.toBytes report = .ok report.layout :=
  Message.toBytes_of_fits ((length_layout report).trans (encodedSize_eq herror).symm)
    fun _ hfits ↦ encode_of_fits herror hfits

/-- The length that is declared is the length of the report modulo 65536. -/
theorem totalLength_writtenHeader (herror : report.header.errorCode = capabilityDataPresent) :
    report.writtenHeader.totalLength.toNat = (16 + 16 * report.targets.length) % 65536 := by
  rw [writtenHeader, encodedSize_eq herror]
  exact UInt16.toNat_ofNat'

/-- A report opens with the declared length. -/
theorem word16_layout (report : CapabilityReport) :
    report.layout.word16 0 = report.writtenHeader.totalLength := by
  simp [layout, Record.toBytes, Bytes.ofWord16, Bytes.word16]

/-- The declared length is the length of the report if and only if it is a 16-bit word. -/
theorem totalLength_eq_iff (herror : report.header.errorCode = capabilityDataPresent) :
    report.writtenHeader.totalLength.toNat = 16 + 16 * report.targets.length ↔
      report.targets.length ≤ mostTargets := by
  rw [totalLength_writtenHeader herror, mostTargets]
  omega

/-- The header that is written describes the targets of a report that is not too long. -/
theorem describes_writtenHeader (herror : report.header.errorCode = capabilityDataPresent)
    (h : report.targets.length ≤ mostTargets) :
    report.writtenHeader.Describes report.header report.targets where
  length := (totalLength_eq_iff herror).2 h
  dataType := by
    rw [writtenHeader, RoleAndDataType.dataType_setDataType, dataType, dataTypeOf]
    cases report.targets <;> rfl
  others := RoleAndDataType.others_setDataType _ _
  rest := rfl

/-- Only a report without targets calls for no static data. -/
theorem dataTypeOf_eq_iff {targets : List CapabilityEntry} :
    dataTypeOf targets = .noStaticData ↔ targets = [] := by
  cases targets <;> simp [dataTypeOf]

/-- As many targets are read as the declared length counts, and their bytes come first. -/
theorem decodeTargets_eq_ok_iff {targets : List CapabilityEntry} {declared offset total : Nat}
    {type : CapabilityDataType} {back : Bytes} (hdeclared : 16 ≤ declared) :
    decodeTargets declared type ⟨back, offset, total⟩ = .ok targets ↔
      declared = 16 + 16 * targets.length ∧ (type = .noStaticData → targets = []) ∧
        targets.flatMap Record.toBytes <+: back := by
  have hheader : capabilityHeaderSize = 16 := rfl
  have hentry : capabilityEntrySize = 16 := rfl
  cases type with
  | noStaticData =>
      simp only [decodeTargets, hheader]
      constructor
      · intro h
        split at h
        next hnone =>
          cases h
          exact ⟨by simp; omega, fun _ ↦ rfl, List.nil_prefix⟩
        next => cases h
      · rintro ⟨hlength, hnone, -⟩
        obtain rfl : targets = [] := by simpa using hnone
        rw [List.length_nil] at hlength
        rw [if_pos (by omega)]
  | staticData =>
      simp only [decodeTargets, hheader, hentry]
      constructor
      · intro h
        split at h
        next hwhole =>
          obtain ⟨⟨read, behind⟩, hread, h⟩ := bind_eq_ok_iff.1 h
          obtain rfl : read = targets := Except.ok.inj h
          obtain ⟨hlength, hback⟩ := Reader.eq_append_of_records hread
          exact ⟨by omega, CapabilityDataType.noConfusion, behind.rest, hback.symm⟩
        next => cases h
      · rintro ⟨hlength, -, rest, rfl⟩
        have hcount : (declared - 16) / 16 = targets.length := by omega
        rw [if_pos (by omega), hcount, Reader.records_append]
        rfl

/-- As many targets are read as fit the declared length. -/
theorem decodeTargets_layout {declared : Nat} {targets : List CapabilityEntry}
    {offset total : Nat} (hdeclared : 16 ≤ declared)
    (hlength : declared = (16 + 16 * targets.length) % 65536) :
    decodeTargets declared (dataTypeOf targets) ⟨targets.flatMap Record.toBytes, offset, total⟩ =
      .ok (targets.take (targets.length % 4096)) := by
  rw [decodeTargets_eq_ok_iff hdeclared]
  refine ⟨?_, fun hnone ↦ ?_, (targets.drop (targets.length % 4096)).flatMap Record.toBytes, ?_⟩
  · rw [List.length_take]
    omega
  · rw [dataTypeOf_eq_iff.1 hnone, List.take_nil]
  · rw [← List.flatMap_append, List.take_append_drop]

/-- Behind a header that says that there are capability data, reading is a matter of the length, the
role, the data type and the targets. -/
theorem decode_header {header : CapabilityHeader}
    (herror : header.errorCode = capabilityDataPresent) (back : Bytes) :
    decode (Record.toBytes header ++ back) = do
      let declared := header.totalLength.toNat
      if 16 + back.length < declared then
        throw (.bufferTooShort declared (16 + back.length))
      if declared < 16 then
        throw (.lengthMismatch declared 16)
      let _ ← Coded.ofByte (α := DeviceRole) header.roleAndDataType.role
      let dataType ← Coded.ofByte header.roleAndDataType.dataType
      let targets ← decodeTargets declared dataType ⟨back, 16, 16 + back.length⟩
      return ⟨header, targets⟩ := by
  have hlength : (Record.toBytes header ++ back).length = 16 + back.length := by
    rw [List.length_append, Record.length_toBytes]
    rfl
  -- The first four bytes of the header are the preamble, so both are read from the same place.
  have hpreamble : (Reader.ofBytes (Record.toBytes header ++ back)).record
      (α := CapabilityPreamble) = .ok (header.toCapabilityPreamble,
        ⟨(Record.toBytes header ++ back).drop 4, 4, 16 + back.length⟩) := by
    rw [← hlength]
    exact Reader.record_append _
  have hheader : (Reader.ofBytes (Record.toBytes header ++ back)).record
      (α := CapabilityHeader) = .ok (header, ⟨back, 16, 16 + back.length⟩) := by
    rw [Reader.ofBytes, Reader.record_append, hlength]
    rfl
  unfold decode
  rw [hpreamble, hheader, hlength]
  simp only [bind, Except.bind, herror]
  rfl

/-- A report with capability data from a device of a known role is read back as far as its declared
length goes, provided that it reaches the end of the header. -/
theorem decode_layout (herror : report.header.errorCode = capabilityDataPresent)
    (hrole : report.header.roleAndDataType.role = Coded.byte role) :
    decode report.layout =
      if 16 ≤ report.writtenHeader.totalLength.toNat then
        .ok ⟨report.writtenHeader, report.targets.take (report.targets.length % 4096)⟩
      else
        .error (.lengthMismatch report.writtenHeader.totalLength.toNat 16) := by
  have hdeclared := totalLength_writtenHeader herror
  have herror' : report.writtenHeader.errorCode = capabilityDataPresent := herror
  have hrole' : Coded.ofByte (α := DeviceRole) report.writtenHeader.roleAndDataType.role =
      .ok role := by
    rw [writtenHeader, RoleAndDataType.role_setDataType, hrole, DeviceRole.ofByte_byte]
  have htype : Coded.ofByte report.writtenHeader.roleAndDataType.dataType =
      .ok (dataTypeOf report.targets) := by
    rw [writtenHeader, RoleAndDataType.dataType_setDataType, CapabilityDataType.ofByte_byte]
    rfl
  have hsize : (report.targets.flatMap Record.toBytes).length = report.targets.length * 16 :=
    EntryList.length_flatMap_toBytes _
  rw [layout, decode_header herror']
  dsimp only
  rw [if_neg (by omega)]
  by_cases hfull : 16 ≤ report.writtenHeader.totalLength.toNat
  · rw [if_pos hfull, if_neg (by omega), hrole', htype]
    simp only [bind, Except.bind, decodeTargets_layout hfull hdeclared]
    rfl
  · rw [if_neg hfull, if_pos (by omega)]
    rfl

/-- A report with capability data from a device of a known role is always written, wherever there is
room for it. What is written is read back as the targets, under a header that describes them and is
otherwise the header of the report, if and only if there are at most 4094 targets; for more of them
the declared length is not the number of bytes. -/
theorem decode_toBytes_iff (herror : report.header.errorCode = capabilityDataPresent)
    (hrole : report.header.roleAndDataType.role = Coded.byte role) :
    ∃ bytes, Message.toBytes report = .ok bytes ∧
      (∀ writer : Writer, writer.Fits bytes → encode report writer = .ok (writer.extend bytes)) ∧
      ((∃ header, decode bytes = .ok ⟨header, report.targets⟩ ∧
          header.Describes report.header report.targets) ↔
        report.targets.length ≤ mostTargets) ∧
      ((bytes.word16 0).toNat = bytes.length ↔ report.targets.length ≤ mostTargets) := by
  refine ⟨report.layout, toBytes_eq_layout herror, fun _ hfits ↦ encode_of_fits herror hfits,
    ⟨?_, fun hfew ↦ ⟨report.writtenHeader, ?_, describes_writtenHeader herror hfew⟩⟩, ?_⟩
  · rintro ⟨header, hdecode, hdescribes⟩
    rw [decode_layout herror hrole] at hdecode
    split at hdecode
    · rw [Except.ok.injEq, mk.injEq] at hdecode
      rw [← hdecode.1] at hdescribes
      exact (totalLength_eq_iff herror).1 hdescribes.length
    · cases hdecode
  · have hlength := (totalLength_eq_iff herror).2 hfew
    have hmodulus : report.targets.length % 4096 = report.targets.length := by
      rw [mostTargets] at hfew
      omega
    rw [decode_layout herror hrole, if_pos (by omega), hmodulus, List.take_length]
  · rw [word16_layout, length_layout, totalLength_eq_iff herror]

/-- A report whose length and data type do not fit its targets before it is written. -/
def stale : CapabilityReport where
  header :=
    { totalLength := 7, roleAndDataType := ⟨0xFE⟩, flags := ⟨5, 0⟩, reserved := 9,
      maxIbiPayload := 300 }
  targets := [{ staticAddress := 80, ibiPriority := 2 }, { staticAddress := 81 }]

/-- A report whose length and data type are wrong is written with the right ones. -/
theorem describes_stale :
    stale.header.errorCode = capabilityDataPresent ∧
    stale.header.roleAndDataType.role = Coded.byte DeviceRole.secondaryController ∧
    ∃ bytes header, Message.toBytes stale = .ok bytes ∧
      decode bytes = .ok ⟨header, stale.targets⟩ ∧
      header.Describes stale.header stale.targets := by
  have herror : stale.header.errorCode = capabilityDataPresent := rfl
  have hrole : stale.header.roleAndDataType.role = Coded.byte DeviceRole.secondaryController := rfl
  obtain ⟨bytes, hbytes, -, hread, -⟩ := decode_toBytes_iff herror hrole
  obtain ⟨header, hdecode, hdescribes⟩ := hread.2 (by decide)
  exact ⟨herror, hrole, bytes, header, hbytes, hdecode, hdescribes⟩

/-- A report with one target more than its length can count. -/
def tooLong : CapabilityReport where
  header := { roleAndDataType := ⟨1⟩ }
  targets := List.replicate 4095 { staticAddress := 80, pid := .ofNat 1 }

/-- A report of 65536 bytes is written with the declared length zero, and is not read back. -/
theorem not_refused_tooLong :
    tooLong.header.errorCode = capabilityDataPresent ∧
    tooLong.header.roleAndDataType.role = Coded.byte DeviceRole.primaryController ∧
    ∃ bytes, Message.toBytes tooLong = .ok bytes ∧ bytes.length = 65536 ∧ bytes.word16 0 = 0 ∧
      decode bytes = .error (.lengthMismatch 0 16) := by
  have herror : tooLong.header.errorCode = capabilityDataPresent := rfl
  have hrole : tooLong.header.roleAndDataType.role = Coded.byte DeviceRole.primaryController := rfl
  have hcount : tooLong.targets.length = 4095 := List.length_replicate
  have hdeclared := totalLength_writtenHeader herror
  rw [hcount] at hdeclared
  have hzero : tooLong.writtenHeader.totalLength = 0 := UInt16.toNat_inj.1 hdeclared
  refine ⟨herror, hrole, tooLong.layout, toBytes_eq_layout herror, ?_, ?_, ?_⟩
  · rw [length_layout, hcount]
  · rw [word16_layout, hzero]
  · rw [decode_layout herror hrole, hzero]
    rfl

end CapabilityReport

end I3cHost
