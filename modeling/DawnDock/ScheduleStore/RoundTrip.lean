import DawnDock.ScheduleStore.Record

/-!
The record round trip. Whatever `encodeRecord` writes, `decodeRecord` reads back
as exactly that snapshot and generation (`decodeRecord_encodeRecord`), and it is
never taken for a record of a later schema (`intactFuture_encodeRecord`). A
snapshot the validator accepts can always be encoded (`encodeRecord_total`): its
bounds keep every length field in range and the record below 64 KiB.
-/

namespace DawnDock

open ByteCodec

/-! ### Fields -/

/-- The length of a short list is not cut to 16 bits. -/
theorem toNat_length {α : Type} {values : List α} (short : values.length < 65536) :
    (UInt16.ofNat values.length).toNat = values.length := by
  rw [UInt16.toNat_ofNat', Nat.mod_eq_of_lt short]

theorem reads_readU8 (value : UInt8) : Reads readU8 (putU8 value) value := by
  have field : Reads (natural 1) (putNat 1 value.toNat) value.toNat :=
    reads_natural value.toNat_lt
  have h := field.map UInt8.ofNat
  rwa [UInt8.ofNat_toNat] at h

theorem reads_readU16 (value : UInt16) : Reads readU16 (putU16 value) value := by
  have field : Reads (natural 2) (putNat 2 value.toNat) value.toNat :=
    reads_natural value.toNat_lt
  have h := field.map UInt16.ofNat
  rwa [UInt16.ofNat_toNat] at h

theorem reads_readU32 (value : UInt32) : Reads readU32 (putU32 value) value := by
  have field : Reads (natural 4) (putNat 4 value.toNat) value.toNat :=
    reads_natural value.toNat_lt
  have h := field.map UInt32.ofNat
  rwa [UInt32.ofNat_toNat] at h

theorem reads_readU64 (value : UInt64) : Reads readU64 (putU64 value) value := by
  have field : Reads (natural 8) (putNat 8 value.toNat) value.toNat :=
    reads_natural value.toNat_lt
  have h := field.map UInt64.ofNat
  rwa [UInt64.ofNat_toNat] at h

theorem reads_readI64 (value : Int64) : Reads readI64 (putI64 value) value :=
  (reads_readU64 value.toUInt64).map UInt64.toInt64

/-- A text is read back whole, because its length fits 16 bits. -/
theorem reads_putString {value : Text} {bytes : Bytes} (written : putString value = some bytes) :
    Reads (text 2) bytes value := by
  unfold putString at written
  split at written
  · exact absurd written (by simp)
  · rename_i short
    cases written
    rw [putU16, toNat_length (by omega)]
    exact reads_text (by omega)

theorem reads_readOptionalI64 (value : Option Int64) :
    Reads readOptionalI64 (putOptionalI64 value) value := by
  cases value with
  | none => exact (reads_boolean false).bind (.pure none)
  | some deadline =>
      have payload := (reads_readI64 deadline).bind (f := fun v => pure (some v))
        (Reads.pure (some deadline))
      rw [List.append_nil] at payload
      exact (reads_boolean true).bind payload

/-- Field by field, in the order in which they are written. -/
theorem reads_readActive {active : ActiveOccurrence} {bytes : Bytes}
    (written : putActive active = some bytes) : Reads readActive bytes active := by
  simp only [putActive, Option.bind_eq_bind, Option.bind_eq_some_iff] at written
  obtain ⟨alarmId, id, occurrenceId, occurrence, bootId, boot, last⟩ := written
  cases last
  simp only [List.append_assoc]
  refine (reads_putString id).bind ((reads_putString occurrence).bind ?_)
  refine (reads_readI64 _).bind ((reads_readI64 _).bind ((reads_readI64 _).bind ?_))
  refine (reads_readOptionalI64 _).bind ((reads_readU8 _).bind ((reads_boolean _).bind ?_))
  have tail := (reads_putString boot).bind (f := fun lastRecoveryBootId =>
    pure { active with lastRecoveryBootId }) (.pure active)
  rwa [List.append_nil] at tail

/-- Each reason has its own byte. -/
theorem reads_readTerminalReason (reason : TerminalReason) :
    Reads readTerminalReason (putU8 reason.toByte) reason := by
  intro rest
  cases reason <;> rfl

theorem reads_readTerminal {terminal : TerminalOccurrence} {bytes : Bytes}
    (written : putTerminal terminal = some bytes) : Reads readTerminal bytes terminal := by
  simp only [putTerminal, Option.bind_eq_bind, Option.bind_eq_some_iff] at written
  obtain ⟨occurrenceId, id, last⟩ := written
  cases last
  have tail := (reads_readTerminalReason terminal.reason).bind (f := fun reason =>
    pure { terminal with reason }) (.pure terminal)
  rw [List.append_nil] at tail
  exact (reads_putString id).bind tail

theorem reads_readWatermark {watermark : TerminalHighWatermark} {bytes : Bytes}
    (written : putWatermark watermark = some bytes) : Reads readWatermark bytes watermark := by
  simp only [putWatermark, Option.bind_eq_bind, Option.bind_eq_some_iff] at written
  obtain ⟨alarmId, id, last⟩ := written
  cases last
  have tail := (reads_readI64 watermark.scheduledUtcSeconds).bind (f := fun scheduledUtcSeconds =>
    pure { watermark with scheduledUtcSeconds }) (.pure watermark)
  rw [List.append_nil] at tail
  exact (reads_putString id).bind tail

theorem reads_readAlarm {alarm : StoredAlarmDefinition} {bytes : Bytes}
    (written : putAlarm alarm = some bytes) : Reads readAlarm bytes alarm := by
  simp only [putAlarm, Option.bind_eq_bind, Option.bind_eq_some_iff] at written
  obtain ⟨id, idWritten, last⟩ := written
  cases last
  simp only [List.append_assoc]
  have tail := (reads_readI64 alarm.scheduledUtcSeconds).bind (f := fun scheduledUtcSeconds =>
    pure { alarm with scheduledUtcSeconds }) (.pure alarm)
  rw [List.append_nil] at tail
  exact (reads_putString idWritten).bind ((reads_readU64 _).bind ((reads_boolean _).bind tail))

/-- A counted list is read back, if it is within the bound and each item is. -/
theorem reads_readCounted {α : Type} {maximum : Nat} {item : Reader α} {put : α → Option Bytes}
    {values : List α} {pieces : List Bytes} (few : values.length ≤ maximum)
    (small : maximum < 65536) (written : values.mapM put = some pieces)
    (each : ∀ a ∈ values, ∀ piece, put a = some piece → Reads item piece a) :
    Reads (readCounted maximum item)
      (putU16 (UInt16.ofNat values.length) ++ pieces.flatten) values := by
  have count := toNat_length (show values.length < 65536 by omega)
  have within : (UInt16.ofNat values.length).toNat ≤ maximum := by omega
  refine (reads_readU16 _).bind (Reads.then (reads_guard within) ?_)
  rw [count]
  exact Reads.times written each

theorem reads_readOptionalActive {active : Option ActiveOccurrence} {bytes : Bytes}
    (written : putOptionalActive active = some bytes) : Reads readOptionalActive bytes active := by
  cases active with
  | none =>
      cases written
      exact (reads_boolean false).bind (.pure none)
  | some active =>
      simp only [putOptionalActive, Option.bind_eq_bind, Option.bind_eq_some_iff] at written
      obtain ⟨payload, payloadWritten, last⟩ := written
      cases last
      have tail := (reads_readActive payloadWritten).bind (f := fun v => pure (some v))
        (.pure (some active))
      rw [List.append_nil] at tail
      exact (reads_boolean true).bind tail

/-- A valid journal is within the bounds that the reader checks. -/
theorem reads_readOccurrenceState {state : PersistentAlarmState} {bytes : Bytes}
    (valid : ValidJournal state) (written : writeOccurrenceState state = some bytes) :
    Reads readOccurrenceState bytes state := by
  simp only [writeOccurrenceState, Option.bind_eq_bind, Option.bind_eq_some_iff] at written
  obtain ⟨active, activeWritten, terminal, terminalWritten, watermarks, watermarksWritten,
    last⟩ := written
  cases last
  have watermarkField := reads_readCounted valid.watermarkCount (by decide) watermarksWritten
    fun _ _ _ h => reads_readWatermark h
  have terminalField := reads_readCounted valid.terminalCount (by decide) terminalWritten
    fun _ _ _ h => reads_readTerminal h
  have tail := watermarkField.bind (f := fun terminalHighWatermarks =>
    pure { state with terminalHighWatermarks }) (.pure state)
  rw [List.append_nil] at tail
  simp only [List.append_assoc] at watermarkField terminalField ⊢
  refine (reads_readOptionalActive activeWritten).bind ?_
  rw [← List.append_assoc (putU16 (UInt16.ofNat state.terminal.length))]
  exact terminalField.bind tail

/-- The payload of a valid snapshot is read back as that snapshot. -/
theorem reads_readSnapshot {snapshot : ScheduleSnapshot} {timezone state : Bytes}
    {alarms : List Bytes} (schedule : ValidSchedule snapshot)
    (journal : ValidJournal snapshot.occurrenceState)
    (timezoneWritten : putString snapshot.timezoneRulesVersion = some timezone)
    (alarmsWritten : snapshot.alarms.mapM putAlarm = some alarms)
    (stateWritten : writeOccurrenceState snapshot.occurrenceState = some state) :
    Reads (readSnapshot kCurrentStorageSchemaVersion)
      (putU64 snapshot.revision ++ timezone ++
        putU16 (UInt16.ofNat snapshot.alarms.length) ++ alarms.flatten ++ state) snapshot := by
  have alarmField := reads_readCounted schedule.count (by decide) alarmsWritten
    fun _ _ _ h => reads_readAlarm h
  have tail := (reads_readOccurrenceState journal stateWritten).bind
    (f := fun occurrenceState => pure { snapshot with occurrenceState }) (.pure snapshot)
  rw [List.append_nil] at tail
  simp only [List.append_assoc]
  refine (reads_readU64 _).bind ?_
  rw [if_pos rfl, ← List.append_assoc (putU16 _)]
  exact (reads_putString timezoneWritten).bind (alarmField.bind tail)

/-! ### Header and CRC -/

@[simp] theorem length_protectedHeader (generation : UInt64) (payloadSize : Nat) :
    (protectedHeader generation payloadSize).length = 16 := by
  simp [protectedHeader, putU16, putU32, putU64]

/-- The CRC of two parts goes on where the first left off. -/
theorem updateCrc32_append (crc : UInt32) (first second : Bytes) :
    updateCrc32 crc (first ++ second) = updateCrc32 (updateCrc32 crc first) second :=
  List.foldl_append

/-- The record `encodeRecord` assembles around a payload. -/
def assembleRecord (generation : UInt64) (payload : Bytes) : Bytes :=
  kMagic ++ protectedHeader generation payload.length ++
    putU32 (crc32 (protectedHeader generation payload.length ++ payload)) ++ payload

@[simp] theorem length_assembleRecord (generation : UInt64) (payload : Bytes) :
    (assembleRecord generation payload).length = kHeaderSize + payload.length := by
  simp only [assembleRecord, putU32, List.length_append, length_protectedHeader, length_putNat,
    kMagic, kHeaderSize, List.length_cons, List.length_nil]

/-- Behind the magic come the protected fields, the CRC and the payload. -/
theorem drop_magic_assembleRecord (generation : UInt64) (payload : Bytes) :
    (assembleRecord generation payload).drop kMagic.length =
      protectedHeader generation payload.length ++
        (putU32 (crc32 (protectedHeader generation payload.length ++ payload)) ++ payload) := by
  simp only [assembleRecord, List.append_assoc]
  exact List.drop_left

theorem drop_header_assembleRecord (generation : UInt64) (payload : Bytes) :
    (assembleRecord generation payload).drop kHeaderSize = payload := by
  rw [assembleRecord]
  exact List.drop_left' (by simp [kMagic, kHeaderSize, putU32])

/-- The CRC that the decoder computes is the one that the encoder stored. -/
theorem currentRecordCrc_assembleRecord (generation : UInt64) (payload : Bytes) :
    currentRecordCrc (assembleRecord generation payload) =
      crc32 (protectedHeader generation payload.length ++ payload) := by
  have header : ((assembleRecord generation payload).drop kMagic.length).take 16 =
      protectedHeader generation payload.length := by
    rw [drop_magic_assembleRecord]
    exact List.take_left' (length_protectedHeader ..)
  rw [currentRecordCrc, header, drop_header_assembleRecord, crc32, updateCrc32_append]

/-- The header a record of the given payload carries. -/
def recordHeader (generation : UInt64) (payload : Bytes) : RecordHeader :=
  { schema := kCurrentStorageSchemaVersion, reserved := 0, generation
    payloadSize := UInt32.ofNat payload.length
    expectedCrc := crc32 (protectedHeader generation payload.length ++ payload) }

/-- The header is read back as its fields. -/
theorem reads_readHeader (generation : UInt64) (payload : Bytes) :
    Reads readHeader (protectedHeader generation payload.length ++
      putU32 (crc32 (protectedHeader generation payload.length ++ payload)))
      (recordHeader generation payload) := by
  have tail := (reads_readU32 (crc32 (protectedHeader generation payload.length ++ payload))).bind
    (f := fun expectedCrc => pure { recordHeader generation payload with expectedCrc })
    (.pure (recordHeader generation payload))
  rw [List.append_nil] at tail
  conv => enter [2, 1]; rw [protectedHeader]
  simp only [List.append_assoc]
  exact (reads_readU16 _).bind ((reads_readU16 _).bind
    ((reads_readU64 _).bind ((reads_readU32 _).bind tail)))

/-- An assembled record passes the checks of its header. -/
theorem intactHeader_assembleRecord {generation : UInt64} {payload : Bytes}
    (fits : payload.length + kHeaderSize ≤ kMaximumStorageRecordBytes)
    (positive : generation ≠ 0) :
    intactHeader (assembleRecord generation payload) = some (recordHeader generation payload) := by
  have size : kHeaderSize ≤ (assembleRecord generation payload).length ∧
      (assembleRecord generation payload).length ≤ kMaximumStorageRecordBytes ∧
      (assembleRecord generation payload).take kMagic.length = kMagic := by
    refine ⟨by simp, by rw [length_assembleRecord]; omega, ?_⟩
    simp only [assembleRecord, List.append_assoc]
    exact List.take_left
  have payloadSize : (recordHeader generation payload).reserved = 0 ∧
      (recordHeader generation payload).generation ≠ 0 ∧
      (recordHeader generation payload).payloadSize.toNat =
        (assembleRecord generation payload).length - kHeaderSize := by
    refine ⟨rfl, positive, ?_⟩
    have : payload.length < 4294967296 := by
      simp only [kHeaderSize, kMaximumStorageRecordBytes] at fits
      omega
    simp [recordHeader, Nat.mod_eq_of_lt this]
  have read := reads_readHeader generation payload payload
  simp only [intactHeader, guard, if_pos size, drop_magic_assembleRecord,
    ← List.append_assoc, read, if_pos payloadSize, Option.pure_def, Option.bind_eq_bind,
    Option.bind_some]

/-! ### Whole records -/

/-- What `encodeRecord` wrote, and from what. -/
theorem encodeRecord_eq_some {snapshot : ScheduleSnapshot} {generation : UInt64} {bytes : Bytes}
    (written : encodeRecord snapshot generation = some bytes) :
    ∃ payload, bytes = assembleRecord generation payload ∧ validateSnapshot snapshot = true ∧
      payload.length + kHeaderSize ≤ kMaximumStorageRecordBytes ∧
      Reads (readSnapshot kCurrentStorageSchemaVersion) payload snapshot := by
  unfold encodeRecord at written
  split at written
  · exact absurd written (by simp)
  · rename_i valid
    have valid : validateSnapshot snapshot = true := by simpa using valid
    simp only [Option.bind_eq_bind, Option.bind_eq_some_iff] at written
    obtain ⟨timezone, timezoneWritten, alarms, alarmsWritten, state, stateWritten, _, fits,
      last⟩ := written
    cases last
    refine ⟨_, rfl, valid, ?_, ?_⟩
    · exact of_guard_eq_some fits
    · obtain ⟨schedule, journal⟩ := validateSnapshot_iff.mp valid
      exact reads_readSnapshot schedule journal timezoneWritten alarmsWritten stateWritten

/-- Decoding what was encoded gives back the snapshot and the generation, as a
record of the current schema. -/
theorem decodeRecord_encodeRecord {snapshot : ScheduleSnapshot} {generation : UInt64}
    {bytes : Bytes} (written : encodeRecord snapshot generation = some bytes)
    (positive : generation ≠ 0) :
    decodeRecord bytes = some ⟨snapshot, generation, false⟩ := by
  obtain ⟨payload, rfl, valid, fits, read⟩ := encodeRecord_eq_some written
  have body : (readSnapshot (recordHeader generation payload).schema).run payload =
      some (snapshot, []) := by
    have := read []
    rwa [List.append_nil] at this
  have schema : ¬ (recordHeader generation payload).schema = 1 := by
    simp [recordHeader, kCurrentStorageSchemaVersion]
  simp only [decodeRecord, intactHeader_assembleRecord fits positive,
    drop_header_assembleRecord, currentRecordCrc_assembleRecord, body, schema, guard, valid,
    Option.pure_def, Option.bind_eq_bind, Option.bind_some, if_false, and_self, if_true]
  simp [recordHeader]

/-- Decoding validates. -/
theorem validateSnapshot_of_decodeRecord {bytes : Bytes} {decoded : DecodedRecord}
    (h : decodeRecord bytes = some decoded) :
    validateSnapshot decoded.snapshot = true ∧ decoded.generation ≠ 0 := by
  simp only [decodeRecord, Option.bind_eq_bind, Option.bind_eq_some_iff] at h
  obtain ⟨header, intact, _, -, _, -, ⟨snapshot, remaining⟩, -, _, checked, last⟩ := h
  cases last
  constructor
  · exact (of_guard_eq_some checked).2
  · simp only [intactHeader, Option.bind_eq_bind, Option.bind_eq_some_iff] at intact
    obtain ⟨_, -, ⟨header', _⟩, -, _, positive, last⟩ := intact
    cases last
    exact (of_guard_eq_some positive).2.1

/-! ### Totality -/

/-- A text that is valid is within its bound. -/
theorem length_le_of_validString {value : Text} {maximum : Nat}
    (valid : validString value maximum = true) : value.length ≤ maximum := by
  simp only [validString, Bool.and_eq_true, decide_eq_true_eq] at valid
  exact valid.1.2

theorem length_le_of_validOptionalString {value : Text} {maximum : Nat}
    (valid : validOptionalString value maximum = true) : value.length ≤ maximum := by
  rcases Bool.or_eq_true _ _ ▸ valid with empty | valid
  · simp [List.isEmpty_iff.mp empty]
  · exact length_le_of_validString valid

/-- A text within its bound is written, in that many bytes and its length. -/
theorem putString_writes {value : Text} {maximum : Nat} (short : value.length ≤ maximum)
    (small : maximum ≤ 65535) :
    ∃ bytes, putString value = some bytes ∧ bytes.length ≤ maximum + 2 := by
  refine ⟨putU16 (UInt16.ofNat value.length) ++ value, if_neg (by omega), ?_⟩
  simp only [putU16, List.length_append, length_putNat]
  omega

/-- A valid alarm is written, in at most 83 bytes. -/
theorem putAlarm_writes {revision : UInt64} {alarm : StoredAlarmDefinition}
    (valid : validAlarm revision alarm = true) :
    ∃ bytes, putAlarm alarm = some bytes ∧ bytes.length ≤ 83 := by
  simp only [validAlarm, Bool.and_eq_true] at valid
  obtain ⟨id, written, short⟩ := putString_writes (length_le_of_validString valid.1.1) (by decide)
  refine ⟨_, by simp only [putAlarm, written, Option.bind_eq_bind, Option.bind_some]; rfl, ?_⟩
  simp only [kMaximumAlarmIdBytes] at short
  simp only [putU64, putI64, putBool, List.length_append, length_putNat]
  omega

theorem putWatermark_writes {watermark : TerminalHighWatermark}
    (valid : validString watermark.alarmId kMaximumAlarmIdBytes = true) :
    ∃ bytes, putWatermark watermark = some bytes ∧ bytes.length ≤ 74 := by
  obtain ⟨id, written, short⟩ := putString_writes (length_le_of_validString valid) (by decide)
  refine ⟨_, by simp only [putWatermark, written, Option.bind_eq_bind, Option.bind_some]; rfl, ?_⟩
  simp only [kMaximumAlarmIdBytes] at short
  simp only [putI64, putU64, List.length_append, length_putNat]
  omega

/-- A terminal record is written, in at most 163 bytes. -/
theorem putTerminal_writes {terminal : TerminalOccurrence}
    (valid : validString terminal.occurrenceId kMaximumOccurrenceIdBytes = true) :
    ∃ bytes, putTerminal terminal = some bytes ∧ bytes.length ≤ 163 := by
  obtain ⟨id, written, short⟩ := putString_writes (length_le_of_validString valid) (by decide)
  refine ⟨_, by simp only [putTerminal, written, Option.bind_eq_bind, Option.bind_some]; rfl, ?_⟩
  simp only [kMaximumOccurrenceIdBytes] at short
  simp only [putU8, List.length_append, length_putNat]
  omega

theorem length_putOptionalI64_le (value : Option Int64) : (putOptionalI64 value).length ≤ 9 := by
  cases value <;> simp [putOptionalI64, putBool, putI64, putU64]

/-- A valid occurrence is written, in at most 330 bytes. -/
theorem putOptionalActive_writes {active : Option ActiveOccurrence}
    (valid : ∀ a ∈ active, validActive a = true) :
    ∃ bytes, putOptionalActive active = some bytes ∧ bytes.length ≤ 330 := by
  cases active with
  | none => exact ⟨_, rfl, by decide⟩
  | some active =>
      have valid := valid active rfl
      simp only [validActive, Bool.and_eq_true] at valid
      obtain ⟨⟨⟨⟨alarmId, occurrenceId⟩, bootId⟩, -⟩, -⟩ := valid
      obtain ⟨id, idWritten, idShort⟩ :=
        putString_writes (length_le_of_validString alarmId) (by decide)
      obtain ⟨occurrence, occurrenceWritten, occurrenceShort⟩ :=
        putString_writes (length_le_of_validString occurrenceId) (by decide)
      obtain ⟨boot, bootWritten, bootShort⟩ :=
        putString_writes (length_le_of_validOptionalString bootId) (by decide)
      have deadline := length_putOptionalI64_le active.snoozeDeadlineMonotonicSeconds
      refine ⟨_, by
        simp only [putOptionalActive, putActive, idWritten, occurrenceWritten, bootWritten,
          Option.bind_eq_bind, Option.bind_some]; rfl, ?_⟩
      simp only [kMaximumAlarmIdBytes] at idShort
      simp only [kMaximumOccurrenceIdBytes] at occurrenceShort
      simp only [kMaximumBootIdBytes] at bootShort
      simp only [putI64, putU64, putU8, putBool, List.length_append, length_putNat]
      omega

/-- A full journal still is within 8000 bytes, so that the record is within its own bound. -/
theorem writeOccurrenceState_writes {state : PersistentAlarmState} (valid : ValidJournal state) :
    ∃ bytes, writeOccurrenceState state = some bytes ∧ bytes.length ≤ 8000 := by
  obtain ⟨active, activeWritten, activeShort⟩ := putOptionalActive_writes valid.active
  obtain ⟨terminal, terminalWritten, terminalShort⟩ :=
    mapM_writes fun t ht => putTerminal_writes (valid.terminal t ht)
  obtain ⟨watermarks, watermarksWritten, watermarksShort⟩ :=
    mapM_writes fun w hw => putWatermark_writes (valid.watermarks w hw)
  have terminalCount := valid.terminalCount
  have watermarkCount := valid.watermarkCount
  simp only [kRecentTerminalRetention] at terminalCount
  simp only [kTerminalHighWatermarkCapacity] at watermarkCount
  refine ⟨_, by
    simp only [writeOccurrenceState, activeWritten, terminalWritten, watermarksWritten,
      Option.bind_eq_bind, Option.bind_some]; rfl, ?_⟩
  simp only [putU16, List.length_append, length_putNat]
  omega

/-- Whatever the validator accepts can be encoded. -/
theorem encodeRecord_total {snapshot : ScheduleSnapshot} (generation : UInt64)
    (valid : validateSnapshot snapshot = true) :
    ∃ bytes, encodeRecord snapshot generation = some bytes := by
  obtain ⟨schedule, journal⟩ := validateSnapshot_iff.mp valid
  obtain ⟨timezone, timezoneWritten, timezoneShort⟩ :=
    putString_writes (length_le_of_validString schedule.timezone) (by decide)
  obtain ⟨alarms, alarmsWritten, alarmsShort⟩ :=
    mapM_writes fun a ha => putAlarm_writes (schedule.alarms a ha)
  obtain ⟨state, stateWritten, stateShort⟩ := writeOccurrenceState_writes journal
  have count := schedule.count
  simp only [kMaximumStoredAlarms] at count
  simp only [kMaximumTimezoneVersionBytes] at timezoneShort
  have fits : (putU64 snapshot.revision ++ timezone ++
      putU16 (UInt16.ofNat snapshot.alarms.length) ++ alarms.flatten ++ state).length +
        kHeaderSize ≤ kMaximumStorageRecordBytes := by
    simp only [putU64, putU16, kHeaderSize, kMaximumStorageRecordBytes, List.length_append,
      length_putNat]
    omega
  exact ⟨_, by
    simp only [encodeRecord, valid, Bool.not_true, Bool.false_eq_true, if_false, timezoneWritten,
      alarmsWritten, stateWritten, guard, if_pos fits, Option.bind_eq_bind, Option.bind_some,
      Option.pure_def]
    rfl⟩

end DawnDock
