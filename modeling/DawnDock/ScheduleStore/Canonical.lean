import DawnDock.ScheduleStore.RoundTrip

/-!
The record format is canonical: a record `decodeRecord` accepts under the current
schema is the record `encodeRecord` writes for what was decoded
(`encodeRecord_decodeRecord`). With the round trip, accepted records and valid
snapshots under a generation correspond one to one (`record_roundTrip`).

Each reader is inverted once: what it consumed is what the writer writes for the
value it returned. The flags 0 and 1, the zero reserved field, the exact payload
size and the empty remainder are what each step rests on.
-/

namespace DawnDock

open ByteCodec

/-! ### Fields -/

section Fields

variable {input rest : Bytes}

theorem of_run_readU8 {value : UInt8} (h : readU8.run input = some (value, rest)) :
    input = putU8 value ++ rest := by
  obtain ⟨number, middle, read, last⟩ := run_bind_eq_some.mp h
  obtain ⟨rfl, rfl⟩ := run_pure_eq_some.mp last
  obtain ⟨small, rfl⟩ := of_run_natural read
  rw [putU8, UInt8.toNat_ofNat', Nat.mod_eq_of_lt (by omega)]

theorem of_run_readU16 {value : UInt16} (h : readU16.run input = some (value, rest)) :
    input = putU16 value ++ rest := by
  obtain ⟨number, middle, read, last⟩ := run_bind_eq_some.mp h
  obtain ⟨rfl, rfl⟩ := run_pure_eq_some.mp last
  obtain ⟨small, rfl⟩ := of_run_natural read
  rw [putU16, UInt16.toNat_ofNat', Nat.mod_eq_of_lt (by omega)]

theorem of_run_readU32 {value : UInt32} (h : readU32.run input = some (value, rest)) :
    input = putU32 value ++ rest := by
  obtain ⟨number, middle, read, last⟩ := run_bind_eq_some.mp h
  obtain ⟨rfl, rfl⟩ := run_pure_eq_some.mp last
  obtain ⟨small, rfl⟩ := of_run_natural read
  rw [putU32, UInt32.toNat_ofNat', Nat.mod_eq_of_lt (by omega)]

theorem of_run_readU64 {value : UInt64} (h : readU64.run input = some (value, rest)) :
    input = putU64 value ++ rest := by
  obtain ⟨number, middle, read, last⟩ := run_bind_eq_some.mp h
  obtain ⟨rfl, rfl⟩ := run_pure_eq_some.mp last
  obtain ⟨small, rfl⟩ := of_run_natural read
  rw [putU64, UInt64.toNat_ofNat', Nat.mod_eq_of_lt (by omega)]

theorem of_run_readI64 {value : Int64} (h : readI64.run input = some (value, rest)) :
    input = putI64 value ++ rest := by
  obtain ⟨encoded, middle, read, last⟩ := run_bind_eq_some.mp h
  obtain ⟨rfl, rfl⟩ := run_pure_eq_some.mp last
  exact of_run_readU64 read

/-- A string the reader accepts has a 16-bit length, so the writer takes it. -/
theorem canonical_text : Canonical (text 2) putString := by
  intro input value rest h
  obtain ⟨short, rfl⟩ := of_run_text h
  have fits : ¬ value.length > 65535 := by omega
  refine ⟨_, if_neg fits, ?_⟩
  rw [putU16, toNat_length (by omega)]

theorem of_run_readOptionalI64 {value : Option Int64}
    (h : readOptionalI64.run input = some (value, rest)) : input = putOptionalI64 value ++ rest := by
  obtain ⟨present, middle, flag, value⟩ := run_bind_eq_some.mp h
  obtain rfl := of_run_boolean flag
  cases present with
  | false =>
      obtain ⟨rfl, rfl⟩ := run_pure_eq_some.mp value
      rfl
  | true =>
      rw [if_pos rfl] at value
      obtain ⟨deadline, middle', read, last⟩ := run_bind_eq_some.mp value
      obtain ⟨rfl, rfl⟩ := run_pure_eq_some.mp last
      obtain rfl := of_run_readI64 read
      rfl

theorem of_run_readTerminalReason {reason : TerminalReason}
    (h : readTerminalReason.run input = some (reason, rest)) :
    input = putU8 reason.toByte ++ rest := by
  obtain ⟨byte, middle, read, last⟩ := run_bind_eq_some.mp h
  obtain rfl := of_run_readU8 read
  cases known : TerminalReason.ofByte? byte with
  | none =>
      rw [known] at last
      cases last
  | some found =>
      rw [known] at last
      obtain ⟨rfl, rfl⟩ := run_pure_eq_some.mp last
      unfold TerminalReason.ofByte? at known
      split at known <;> cases known <;> rfl

theorem canonical_readTerminal : Canonical readTerminal putTerminal := by
  intro input terminal rest h
  obtain ⟨occurrenceId, _, id, h⟩ := run_bind_eq_some.mp h
  obtain ⟨reason, _, read, last⟩ := run_bind_eq_some.mp h
  obtain ⟨rfl, rfl⟩ := run_pure_eq_some.mp last
  obtain ⟨idBytes, written, rfl⟩ := canonical_text _ _ _ id
  obtain rfl := of_run_readTerminalReason read
  refine ⟨_, by simp only [putTerminal, written, Option.bind_eq_bind, Option.bind_some]; rfl, ?_⟩
  rw [List.append_assoc]

theorem canonical_readWatermark : Canonical readWatermark putWatermark := by
  intro input watermark rest h
  obtain ⟨alarmId, _, id, h⟩ := run_bind_eq_some.mp h
  obtain ⟨scheduledUtcSeconds, _, read, last⟩ := run_bind_eq_some.mp h
  obtain ⟨rfl, rfl⟩ := run_pure_eq_some.mp last
  obtain ⟨idBytes, written, rfl⟩ := canonical_text _ _ _ id
  obtain rfl := of_run_readI64 read
  refine ⟨_, by simp only [putWatermark, written, Option.bind_eq_bind, Option.bind_some]; rfl, ?_⟩
  rw [List.append_assoc]

theorem canonical_readAlarm : Canonical readAlarm putAlarm := by
  intro input alarm rest h
  obtain ⟨id, _, idRead, h⟩ := run_bind_eq_some.mp h
  obtain ⟨scheduleRevision, _, revision, h⟩ := run_bind_eq_some.mp h
  obtain ⟨enabled, _, flag, h⟩ := run_bind_eq_some.mp h
  obtain ⟨scheduledUtcSeconds, _, instant, last⟩ := run_bind_eq_some.mp h
  obtain ⟨rfl, rfl⟩ := run_pure_eq_some.mp last
  obtain ⟨idBytes, written, rfl⟩ := canonical_text _ _ _ idRead
  obtain rfl := of_run_readU64 revision
  obtain rfl := of_run_boolean flag
  obtain rfl := of_run_readI64 instant
  refine ⟨_, by simp only [putAlarm, written, Option.bind_eq_bind, Option.bind_some]; rfl, ?_⟩
  simp only [List.append_assoc, putBool]

/-- Bytes that are read as an occurrence are those that it is written as. -/
theorem canonical_readActive : Canonical readActive putActive := by
  intro input active rest h
  obtain ⟨alarmId, _, id, h⟩ := run_bind_eq_some.mp h
  obtain ⟨occurrenceId, _, occurrence, h⟩ := run_bind_eq_some.mp h
  obtain ⟨scheduled, _, scheduledRead, h⟩ := run_bind_eq_some.mp h
  obtain ⟨firstUtc, _, firstUtcRead, h⟩ := run_bind_eq_some.mp h
  obtain ⟨firstMonotonic, _, firstMonotonicRead, h⟩ := run_bind_eq_some.mp h
  obtain ⟨deadline, _, deadlineRead, h⟩ := run_bind_eq_some.mp h
  obtain ⟨snoozeCount, _, countRead, h⟩ := run_bind_eq_some.mp h
  obtain ⟨recovered, _, recoveredRead, h⟩ := run_bind_eq_some.mp h
  obtain ⟨bootId, _, boot, last⟩ := run_bind_eq_some.mp h
  obtain ⟨rfl, rfl⟩ := run_pure_eq_some.mp last
  obtain ⟨idBytes, idWritten, rfl⟩ := canonical_text _ _ _ id
  obtain ⟨occurrenceBytes, occurrenceWritten, rfl⟩ := canonical_text _ _ _ occurrence
  obtain rfl := of_run_readI64 scheduledRead
  obtain rfl := of_run_readI64 firstUtcRead
  obtain rfl := of_run_readI64 firstMonotonicRead
  obtain rfl := of_run_readOptionalI64 deadlineRead
  obtain rfl := of_run_readU8 countRead
  obtain rfl := of_run_boolean recoveredRead
  obtain ⟨bootBytes, bootWritten, rfl⟩ := canonical_text _ _ _ boot
  refine ⟨_, by
    simp only [putActive, idWritten, occurrenceWritten, bootWritten, Option.bind_eq_bind,
      Option.bind_some]; rfl, ?_⟩
  simp only [List.append_assoc, putBool]

theorem canonical_readOptionalActive : Canonical readOptionalActive putOptionalActive := by
  intro input active rest h
  obtain ⟨present, _, flag, value⟩ := run_bind_eq_some.mp h
  obtain rfl := of_run_boolean flag
  cases present with
  | false =>
      obtain ⟨rfl, rfl⟩ := run_pure_eq_some.mp value
      exact ⟨_, rfl, rfl⟩
  | true =>
      rw [if_pos rfl] at value
      obtain ⟨found, _, read, last⟩ := run_bind_eq_some.mp value
      obtain ⟨rfl, rfl⟩ := run_pure_eq_some.mp last
      obtain ⟨bytes, written, rfl⟩ := canonical_readActive _ _ _ read
      refine ⟨_, by
        simp only [putOptionalActive, written, Option.bind_eq_bind, Option.bind_some]; rfl, ?_⟩
      rw [List.append_assoc]
      rfl

end Fields

/-! ### Payload -/

/-- By induction on the items: each is the one way to write it. -/
theorem of_run_readCounted {α : Type} {maximum : Nat} {item : Reader α} {put : α → Option Bytes}
    (each : Canonical item put) {values : List α} {input rest : Bytes}
    (h : (readCounted maximum item).run input = some (values, rest)) :
    ∃ pieces, values.mapM put = some pieces ∧
      input = putU16 (UInt16.ofNat values.length) ++ pieces.flatten ++ rest := by
  obtain ⟨count, _, counted, h⟩ := run_bind_eq_some.mp h
  obtain ⟨_, _, checked, read⟩ := run_bind_eq_some.mp h
  obtain rfl := of_run_readU16 counted
  obtain ⟨-, rfl⟩ := run_guard_eq_some checked
  obtain ⟨length, pieces, written, rfl⟩ := each.times read
  refine ⟨pieces, written, ?_⟩
  rw [length, UInt16.ofNat_toNat, List.append_assoc]

/-- The whole state is written as it was read. -/
theorem canonical_readOccurrenceState : Canonical readOccurrenceState writeOccurrenceState := by
  intro input state rest h
  obtain ⟨active, _, activeRead, h⟩ := run_bind_eq_some.mp h
  obtain ⟨terminal, _, terminalRead, h⟩ := run_bind_eq_some.mp h
  obtain ⟨watermarks, _, watermarksRead, last⟩ := run_bind_eq_some.mp h
  obtain ⟨rfl, rfl⟩ := run_pure_eq_some.mp last
  obtain ⟨activeBytes, activeWritten, rfl⟩ := canonical_readOptionalActive _ _ _ activeRead
  obtain ⟨terminalPieces, terminalWritten, rfl⟩ :=
    of_run_readCounted canonical_readTerminal terminalRead
  obtain ⟨watermarkPieces, watermarksWritten, rfl⟩ :=
    of_run_readCounted canonical_readWatermark watermarksRead
  refine ⟨_, by
    simp only [writeOccurrenceState, activeWritten, terminalWritten, watermarksWritten,
      Option.bind_eq_bind, Option.bind_some]; rfl, ?_⟩
  simp only [List.append_assoc]

/-- The payload `encodeRecord` writes, one field after the other. -/
def putPayload (snapshot : ScheduleSnapshot) : Option Bytes := do
  let timezone ← putString snapshot.timezoneRulesVersion
  let alarms ← snapshot.alarms.mapM putAlarm
  let state ← writeOccurrenceState snapshot.occurrenceState
  return putU64 snapshot.revision ++ timezone ++
    putU16 (UInt16.ofNat snapshot.alarms.length) ++ alarms.flatten ++ state

/-- A payload has one reading and one writing. -/
theorem canonical_readSnapshot :
    Canonical (readSnapshot kCurrentStorageSchemaVersion) putPayload := by
  intro input snapshot rest h
  obtain ⟨revision, _, revisionRead, h⟩ := run_bind_eq_some.mp h
  obtain ⟨timezone, _, timezoneRead, h⟩ := run_bind_eq_some.mp h
  obtain ⟨alarms, _, alarmsRead, h⟩ := run_bind_eq_some.mp h
  obtain ⟨state, _, stateRead, last⟩ := run_bind_eq_some.mp h
  obtain ⟨rfl, rfl⟩ := run_pure_eq_some.mp last
  obtain rfl := of_run_readU64 revisionRead
  obtain ⟨timezoneBytes, timezoneWritten, rfl⟩ := canonical_text _ _ _ timezoneRead
  obtain ⟨alarmPieces, alarmsWritten, rfl⟩ := of_run_readCounted canonical_readAlarm alarmsRead
  obtain ⟨stateBytes, stateWritten, rfl⟩ := canonical_readOccurrenceState _ _ _ stateRead
  refine ⟨_, by
    simp only [putPayload, timezoneWritten, alarmsWritten, stateWritten, Option.bind_eq_bind,
      Option.bind_some]; rfl, ?_⟩
  simp only [List.append_assoc]

/-- The encoder puts the header in front of the payload. -/
theorem encodeRecord_eq_assembleRecord {snapshot : ScheduleSnapshot} {generation : UInt64}
    {payload : Bytes} (valid : validateSnapshot snapshot = true)
    (written : putPayload snapshot = some payload)
    (fits : payload.length + kHeaderSize ≤ kMaximumStorageRecordBytes) :
    encodeRecord snapshot generation = some (assembleRecord generation payload) := by
  simp only [putPayload, Option.bind_eq_bind, Option.bind_eq_some_iff] at written
  obtain ⟨timezone, timezoneWritten, alarms, alarmsWritten, state, stateWritten, last⟩ := written
  cases last
  simp only [encodeRecord, valid, Bool.not_true, Bool.false_eq_true, if_false, timezoneWritten,
    alarmsWritten, stateWritten, guard, if_pos fits, Option.bind_eq_bind, Option.bind_some,
    Option.pure_def, assembleRecord]

/-! ### Header -/

theorem of_run_readHeader {header : RecordHeader} {input rest : Bytes}
    (h : readHeader.run input = some (header, rest)) :
    input = putU16 header.schema ++ putU16 header.reserved ++ putU64 header.generation ++
      putU32 header.payloadSize ++ putU32 header.expectedCrc ++ rest := by
  obtain ⟨schema, _, schemaRead, h⟩ := run_bind_eq_some.mp h
  obtain ⟨reserved, _, reservedRead, h⟩ := run_bind_eq_some.mp h
  obtain ⟨generation, _, generationRead, h⟩ := run_bind_eq_some.mp h
  obtain ⟨payloadSize, _, payloadSizeRead, h⟩ := run_bind_eq_some.mp h
  obtain ⟨expectedCrc, _, crcRead, last⟩ := run_bind_eq_some.mp h
  obtain ⟨rfl, rfl⟩ := run_pure_eq_some.mp last
  obtain rfl := of_run_readU16 schemaRead
  obtain rfl := of_run_readU16 reservedRead
  obtain rfl := of_run_readU64 generationRead
  obtain rfl := of_run_readU32 payloadSizeRead
  obtain rfl := of_run_readU32 crcRead
  simp only [List.append_assoc]

/-- The protected fields of a header as they stand in front of the CRC. -/
def RecordHeader.fields (header : RecordHeader) : Bytes :=
  putU16 header.schema ++ putU16 header.reserved ++ putU64 header.generation ++
    putU32 header.payloadSize

@[simp] theorem RecordHeader.length_fields (header : RecordHeader) : header.fields.length = 16 := by
  simp [fields, putU16, putU32, putU64]

/-- A record whose header was found intact, laid out. -/
structure IntactRecord (bytes : Bytes) (header : RecordHeader) (payload : Bytes) : Prop where
  layout : bytes = kMagic ++ (header.fields ++ (putU32 header.expectedCrc ++ payload))
  fits : payload.length + kHeaderSize ≤ kMaximumStorageRecordBytes
  reserved : header.reserved = 0
  generation : header.generation ≠ 0
  payloadSize : header.payloadSize.toNat = payload.length

/-- What the checks of the header say of the bytes. -/
theorem of_intactHeader {bytes : Bytes} {header : RecordHeader}
    (h : intactHeader bytes = some header) :
    IntactRecord bytes header (bytes.drop kHeaderSize) := by
  simp only [intactHeader, Option.bind_eq_bind, Option.bind_eq_some_iff] at h
  obtain ⟨_, sized, ⟨found, rest⟩, read, _, checked, last⟩ := h
  cases last
  obtain ⟨large, small, magic⟩ := of_guard_eq_some sized
  obtain ⟨reserved, generation, payloadSize⟩ := of_guard_eq_some checked
  have tail := of_run_readHeader read
  have body : bytes.drop kHeaderSize = rest := by
    rw [show kHeaderSize = kMagic.length + 20 from rfl, ← List.drop_drop, tail]
    exact List.drop_left' (by simp [putU16, putU32, putU64])
  have length : (bytes.drop kHeaderSize).length = bytes.length - kHeaderSize := List.length_drop
  have whole : bytes = kMagic ++ bytes.drop kMagic.length := by
    conv_lhs => rw [← List.take_append_drop kMagic.length bytes, magic]
  refine ⟨?_, by omega, reserved, generation, by rw [payloadSize, length]⟩
  rw [body]
  simp only [RecordHeader.fields, List.append_assoc] at tail ⊢
  rw [← tail]
  exact whole

/-- The CRC covers the fields and the payload. -/
theorem IntactRecord.currentRecordCrc {bytes payload : Bytes} {header : RecordHeader}
    (record : IntactRecord bytes header payload) :
    currentRecordCrc bytes = crc32 (header.fields ++ payload) := by
  have fields : (bytes.drop kMagic.length).take 16 = header.fields := by
    rw [record.layout, List.drop_left]
    exact List.take_left' header.length_fields
  have body : bytes.drop kHeaderSize = payload := by
    rw [record.layout, ← List.append_assoc, ← List.append_assoc]
    exact List.drop_left' (by simp [kMagic, kHeaderSize, putU32])
  rw [DawnDock.currentRecordCrc, fields, body, crc32, updateCrc32_append]

/-- Under the current schema an intact header is the one the encoder writes. -/
theorem IntactRecord.fields {bytes payload : Bytes} {header : RecordHeader}
    (record : IntactRecord bytes header payload)
    (schema : header.schema = kCurrentStorageSchemaVersion) :
    header.fields = protectedHeader header.generation payload.length := by
  rw [RecordHeader.fields, protectedHeader, schema, record.reserved, ← record.payloadSize,
    UInt32.ofNat_toNat]

/-! ### Whole records -/

/-- A record accepted under the current schema is the one the encoder writes for
what was decoded. -/
theorem encodeRecord_decodeRecord {bytes : Bytes} {decoded : DecodedRecord}
    (accepted : decodeRecord bytes = some decoded) (current : decoded.migrated = false) :
    encodeRecord decoded.snapshot decoded.generation = some bytes := by
  simp only [decodeRecord, Option.bind_eq_bind, Option.bind_eq_some_iff] at accepted
  obtain ⟨header, intact, _, -, _, crc, ⟨snapshot, remaining⟩, read, _, checked, last⟩ := accepted
  cases last
  obtain ⟨rfl, valid⟩ := of_guard_eq_some checked
  have schema : header.schema = kCurrentStorageSchemaVersion := by simpa using current
  have record := of_intactHeader intact
  have crc := of_guard_eq_some crc
  rw [schema, if_neg (by decide), record.currentRecordCrc, record.fields schema] at crc
  rw [schema] at read
  obtain ⟨payload, written, whole⟩ := canonical_readSnapshot _ _ _ read
  rw [List.append_nil] at whole
  rw [encodeRecord_eq_assembleRecord valid written (by rw [← whole]; exact record.fits), ← whole,
    assembleRecord, crc, ← record.fields schema]
  simp only [List.append_assoc]
  rw [← record.layout]

/-- The numbers the encoder casts into 16-bit length and count fields. -/
def lengthFields (snapshot : ScheduleSnapshot) : List Nat :=
  let state := snapshot.occurrenceState
  [snapshot.timezoneRulesVersion.length, snapshot.alarms.length, state.terminal.length,
      state.terminalHighWatermarks.length] ++
    snapshot.alarms.map (·.id.length) ++
    state.active.toList.flatMap (fun active =>
      [active.alarmId.length, active.occurrenceId.length, active.lastRecoveryBootId.length]) ++
    state.terminal.map (·.occurrenceId.length) ++
    state.terminalHighWatermarks.map (·.alarmId.length)

/-- No length field of a valid snapshot needs more than the longest id. -/
theorem lengthFields_le {snapshot : ScheduleSnapshot} (valid : validateSnapshot snapshot = true)
    {length : Nat} (field : length ∈ lengthFields snapshot) :
    length ≤ kMaximumOccurrenceIdBytes := by
  obtain ⟨schedule, journal⟩ := validateSnapshot_iff.mp valid
  have bounds : kMaximumAlarmIdBytes ≤ kMaximumOccurrenceIdBytes := by decide
  simp only [lengthFields, List.mem_append, List.mem_cons, List.not_mem_nil, or_false,
    List.mem_map, List.mem_flatMap] at field
  rcases field with (((count | ⟨alarm, mem, rfl⟩) | ⟨active, mem, text⟩) | ⟨terminal, mem, rfl⟩) |
    ⟨watermark, mem, rfl⟩
  · have timezone := length_le_of_validString schedule.timezone
    have alarms := schedule.count
    have terminal := journal.terminalCount
    have watermarks := journal.watermarkCount
    simp only [kMaximumTimezoneVersionBytes, kMaximumStoredAlarms, kRecentTerminalRetention,
      kTerminalHighWatermarkCapacity] at timezone alarms terminal watermarks
    rw [kMaximumOccurrenceIdBytes]
    omega
  · have valid := schedule.alarms alarm mem
    simp only [validAlarm, Bool.and_eq_true] at valid
    exact (length_le_of_validString valid.1.1).trans bounds
  · have valid := journal.active active (Option.mem_toList.mp mem)
    simp only [validActive, Bool.and_eq_true] at valid
    obtain ⟨⟨⟨⟨alarmId, occurrenceId⟩, bootId⟩, -⟩, -⟩ := valid
    rcases text with rfl | rfl | rfl
    · exact (length_le_of_validString alarmId).trans bounds
    · exact length_le_of_validString occurrenceId
    · exact (length_le_of_validOptionalString bootId).trans (by decide)
  · exact length_le_of_validString (journal.terminal terminal mem)
  · exact (length_le_of_validString (journal.watermarks watermark mem)).trans bounds

/-- Both directions of the record format. A valid snapshot under a generation is
encoded within 64 KiB, with every length and count intact, and decodes to itself;
a record accepted under the current schema is encoded back byte for byte. -/
theorem record_roundTrip :
    (∀ snapshot generation, validateSnapshot snapshot = true → 1 ≤ generation →
      ∃ bytes, encodeRecord snapshot generation = some bytes ∧
        bytes.length ≤ kMaximumStorageRecordBytes ∧
        (∀ length ∈ lengthFields snapshot, (UInt16.ofNat length).toNat = length) ∧
        (UInt32.ofNat (bytes.length - kHeaderSize)).toNat = bytes.length - kHeaderSize ∧
        decodeRecord bytes = some ⟨snapshot, generation, false⟩) ∧
    ∀ bytes decoded, decodeRecord bytes = some decoded → decoded.migrated = false →
      encodeRecord decoded.snapshot decoded.generation = some bytes := by
  refine ⟨fun snapshot generation valid positive => ?_, fun _ _ => encodeRecord_decodeRecord⟩
  obtain ⟨bytes, written⟩ := encodeRecord_total generation valid
  obtain ⟨payload, layout, -, fits, -⟩ := encodeRecord_eq_some written
  have length : bytes.length = kHeaderSize + payload.length := by rw [layout, length_assembleRecord]
  have positive : generation ≠ 0 := by
    rintro rfl
    exact absurd positive (by decide)
  refine ⟨bytes, written, by omega, fun n field => ?_, ?_, decodeRecord_encodeRecord written positive⟩
  · have short := lengthFields_le valid field
    rw [kMaximumOccurrenceIdBytes] at short
    rw [UInt16.toNat_ofNat', Nat.mod_eq_of_lt (by omega)]
  · rw [kMaximumStorageRecordBytes] at fits
    rw [UInt32.toNat_ofNat', Nat.mod_eq_of_lt (by omega)]

end DawnDock
