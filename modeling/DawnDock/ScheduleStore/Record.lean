import DawnDock.Library.ByteCodec
import DawnDock.ScheduleStore.Snapshot

/-!
The storage record: `encode_record`, `decode_record` and
`intact_future_schema_generation` of `schedule_store.cpp`, byte for byte.

A record is a 24-byte header (magic, schema, reserved, generation, payload size,
CRC) followed by the payload. Schema 2 protects the header fields and the
payload with one CRC; schema 1 protected the payload only and had no timezone
version.
-/

namespace DawnDock

open ByteCodec

/-! ### Writer

Numbers are little-endian; a list or a text is behind its 16-bit length. -/

def putU8 (value : UInt8) : Bytes := putNat 1 value.toNat
def putU16 (value : UInt16) : Bytes := putNat 2 value.toNat
def putU32 (value : UInt32) : Bytes := putNat 4 value.toNat
def putU64 (value : UInt64) : Bytes := putNat 8 value.toNat
def putI64 (value : Int64) : Bytes := putU64 value.toUInt64
def putBool (value : Bool) : Bytes := putNat 1 value.toNat

/-- A 16-bit length and the bytes; fails on a longer string. -/
def putString (value : Text) : Option Bytes :=
  if value.length > 65535 then none else some (putU16 (UInt16.ofNat value.length) ++ value)

/-- The presence flag, and the number when there is one. -/
def putOptionalI64 (value : Option Int64) : Bytes :=
  putBool value.isSome ++ (match value with | none => [] | some deadline => putI64 deadline)

/-- The reason as it is stored. -/
def TerminalReason.toByte : TerminalReason → UInt8
  | .dismissed => 0
  | .alarmDisabled => 1
  | .timedOut => 2
  | .forwardJump => 3
  | .invalidTime => 4
  | .prolongedPowerOff => 5

/-- The fields of the active occurrence, in the order of the record. -/
def putActive (active : ActiveOccurrence) : Option Bytes := do
  let alarmId ← putString active.alarmId
  let occurrenceId ← putString active.occurrenceId
  let lastRecoveryBootId ← putString active.lastRecoveryBootId
  return alarmId ++ occurrenceId ++ putI64 active.scheduledUtcSeconds ++
    putI64 active.firstRingUtcSeconds ++ putI64 active.firstRingMonotonicSeconds ++
    putOptionalI64 active.snoozeDeadlineMonotonicSeconds ++ putU8 active.snoozeCount ++
    putBool active.recoveredAfterReboot ++ lastRecoveryBootId

def putTerminal (terminal : TerminalOccurrence) : Option Bytes := do
  let occurrenceId ← putString terminal.occurrenceId
  return occurrenceId ++ putU8 terminal.reason.toByte

def putWatermark (watermark : TerminalHighWatermark) : Option Bytes := do
  let alarmId ← putString watermark.alarmId
  return alarmId ++ putI64 watermark.scheduledUtcSeconds

/-- The presence flag, and the occurrence when there is one. -/
def putOptionalActive : Option ActiveOccurrence → Option Bytes
  | none => some (putBool false)
  | some active => do
      let bytes ← putActive active
      return putBool true ++ bytes

/-- The active occurrence, the terminal records and the watermarks. -/
def writeOccurrenceState (state : PersistentAlarmState) : Option Bytes := do
  let active ← putOptionalActive state.active
  let terminal ← state.terminal.mapM putTerminal
  let watermarks ← state.terminalHighWatermarks.mapM putWatermark
  return active ++
    putU16 (UInt16.ofNat state.terminal.length) ++ terminal.flatten ++
    putU16 (UInt16.ofNat state.terminalHighWatermarks.length) ++ watermarks.flatten

/-- One alarm of the schedule. -/
def putAlarm (alarm : StoredAlarmDefinition) : Option Bytes := do
  let id ← putString alarm.id
  return id ++ putU64 alarm.scheduleRevision ++ putBool alarm.enabled ++
    putI64 alarm.scheduledUtcSeconds

/-! ### CRC -/

/-- One shift of the reflected CRC-32 register; the mask is all ones exactly
when the low bit is set. -/
def crcShift (crc : UInt32) : UInt32 := (crc >>> 1) ^^^ (0xedb88320 &&& (0 - (crc &&& 1)))

/-- One byte after another through the CRC register. -/
def updateCrc32 (crc : UInt32) (bytes : Bytes) : UInt32 :=
  bytes.foldl (fun crc byte => Nat.iterate crcShift 8 (crc ^^^ byte.toUInt32)) crc

def crc32 (bytes : Bytes) : UInt32 := ~~~(updateCrc32 0xffffffff bytes)

def kMagic : Bytes := [0x44, 0x44, 0x53, 0x54]
def kHeaderSize : Nat := 24

/-- The CRC of a schema-2 record: schema to payload size, then the payload. -/
def currentRecordCrc (bytes : Bytes) : UInt32 :=
  let crc := updateCrc32 0xffffffff ((bytes.drop kMagic.length).take 16)
  ~~~(updateCrc32 crc (bytes.drop kHeaderSize))

/-! ### Encoder -/

/-- The protected header fields in front of a payload of the given size. -/
def protectedHeader (generation : UInt64) (payloadSize : Nat) : Bytes :=
  putU16 kCurrentStorageSchemaVersion ++ putU16 0 ++ putU64 generation ++
    putU32 (UInt32.ofNat payloadSize)

/-- A snapshot as a record; `none` where it is not valid or its record is too long. -/
def encodeRecord (snapshot : ScheduleSnapshot) (generation : UInt64) : Option Bytes :=
  if !validateSnapshot snapshot then none
  else do
    let timezone ← putString snapshot.timezoneRulesVersion
    let alarms ← snapshot.alarms.mapM putAlarm
    let state ← writeOccurrenceState snapshot.occurrenceState
    let payload := putU64 snapshot.revision ++ timezone ++
      putU16 (UInt16.ofNat snapshot.alarms.length) ++ alarms.flatten ++ state
    guard (payload.length + kHeaderSize ≤ kMaximumStorageRecordBytes)
    let integrity := protectedHeader generation payload.length ++ payload
    return kMagic ++ protectedHeader generation payload.length ++ putU32 (crc32 integrity) ++
      payload

/-! ### Decoder -/

def readU8 : Reader UInt8 := do return UInt8.ofNat (← natural 1)
def readU16 : Reader UInt16 := do return UInt16.ofNat (← natural 2)
def readU32 : Reader UInt32 := do return UInt32.ofNat (← natural 4)
def readU64 : Reader UInt64 := do return UInt64.ofNat (← natural 8)
def readI64 : Reader Int64 := do return (← readU64).toInt64

/-- Whether there is a number, and the number. -/
def readOptionalI64 : Reader (Option Int64) := do
  if ← boolean then return some (← readI64) else return none

/-- The reason that a byte stands for. -/
def TerminalReason.ofByte? : UInt8 → Option TerminalReason
  | 0 => some .dismissed
  | 1 => some .alarmDisabled
  | 2 => some .timedOut
  | 3 => some .forwardJump
  | 4 => some .invalidTime
  | 5 => some .prolongedPowerOff
  | _ => none

/-- The fields of the active occurrence, as `putActive` writes them. -/
def readActive : Reader ActiveOccurrence := do
  let alarmId ← text 2
  let occurrenceId ← text 2
  let scheduledUtcSeconds ← readI64
  let firstRingUtcSeconds ← readI64
  let firstRingMonotonicSeconds ← readI64
  let snoozeDeadlineMonotonicSeconds ← readOptionalI64
  let snoozeCount ← readU8
  let recoveredAfterReboot ← boolean
  let lastRecoveryBootId ← text 2
  return { alarmId, occurrenceId, scheduledUtcSeconds, firstRingUtcSeconds,
           firstRingMonotonicSeconds, snoozeDeadlineMonotonicSeconds, snoozeCount,
           recoveredAfterReboot, lastRecoveryBootId }

def readOptionalActive : Reader (Option ActiveOccurrence) := do
  if ← boolean then return some (← readActive) else return none

/-- A reason; a byte that stands for none fails the record. -/
def readTerminalReason : Reader TerminalReason := do
  match TerminalReason.ofByte? (← readU8) with
  | none => failure
  | some reason => return reason

def readTerminal : Reader TerminalOccurrence := do
  let occurrenceId ← text 2
  let reason ← readTerminalReason
  return { occurrenceId, reason }

def readWatermark : Reader TerminalHighWatermark := do
  let alarmId ← text 2
  let scheduledUtcSeconds ← readI64
  return { alarmId, scheduledUtcSeconds }

/-- A 16-bit count, rejected above `maximum`, and that many items. -/
def readCounted {α : Type} (maximum : Nat) (item : Reader α) : Reader (List α) := do
  let count ← readU16
  guard (count.toNat ≤ maximum)
  times item count.toNat

/-- The state of the occurrences; both lists are bounded by their capacity. -/
def readOccurrenceState : Reader PersistentAlarmState := do
  let active ← readOptionalActive
  let terminal ← readCounted kRecentTerminalRetention readTerminal
  let terminalHighWatermarks ← readCounted kTerminalHighWatermarkCapacity readWatermark
  return { active, terminal, terminalHighWatermarks }

def readAlarm : Reader StoredAlarmDefinition := do
  let id ← text 2
  let scheduleRevision ← readU64
  let enabled ← boolean
  let scheduledUtcSeconds ← readI64
  return { id, scheduleRevision, enabled, scheduledUtcSeconds }

/-- The marker a schema-1 record's timezone version is replaced by:
`legacy-v1-unpinned`. -/
def legacyTimezone : Text :=
  ['l', 'e', 'g', 'a', 'c', 'y', '-', 'v', '1', '-', 'u', 'n', 'p', 'i', 'n', 'n', 'e', 'd'].map
    fun c => UInt8.ofNat c.toNat

/-- The payload of a record of this schema. -/
def readSnapshot (schema : UInt16) : Reader ScheduleSnapshot := do
  let revision ← readU64
  let timezoneRulesVersion ← if schema = kCurrentStorageSchemaVersion then text 2
    else pure legacyTimezone
  let alarms ← readCounted kMaximumStoredAlarms readAlarm
  let occurrenceState ← readOccurrenceState
  return { revision, timezoneRulesVersion, alarms, occurrenceState }

/-- What stands between the magic and the payload. -/
structure RecordHeader where
  schema : UInt16
  reserved : UInt16
  generation : UInt64
  payloadSize : UInt32
  expectedCrc : UInt32
deriving DecidableEq

def readHeader : Reader RecordHeader := do
  let schema ← readU16
  let reserved ← readU16
  let generation ← readU64
  let payloadSize ← readU32
  let expectedCrc ← readU32
  return { schema, reserved, generation, payloadSize, expectedCrc }

/-- The checks both record readers make before they look at the schema: size,
magic, a zero reserved field, a nonzero generation and the payload size. -/
def intactHeader (bytes : Bytes) : Option RecordHeader := do
  guard (kHeaderSize ≤ bytes.length ∧ bytes.length ≤ kMaximumStorageRecordBytes ∧
    bytes.take kMagic.length = kMagic)
  let (header, _) ← readHeader.run (bytes.drop kMagic.length)
  guard (header.reserved = 0 ∧ header.generation ≠ 0 ∧
    header.payloadSize.toNat = bytes.length - kHeaderSize)
  return header

/-- A record that was read, and whether it was one of schema 1. -/
structure DecodedRecord where
  snapshot : ScheduleSnapshot
  generation : UInt64
  migrated : Bool
deriving DecidableEq

/-- An intact record of schema 1 or 2 with a valid snapshot and nothing behind it. -/
def decodeRecord (bytes : Bytes) : Option DecodedRecord := do
  let header ← intactHeader bytes
  guard (header.schema = 1 ∨ header.schema = kCurrentStorageSchemaVersion)
  let payload := bytes.drop kHeaderSize
  let actualCrc := if header.schema = 1 then crc32 payload else currentRecordCrc bytes
  guard (actualCrc = header.expectedCrc)
  let (snapshot, remaining) ← (readSnapshot header.schema).run payload
  guard (remaining = [] ∧ validateSnapshot snapshot = true)
  return { snapshot, generation := header.generation,
           migrated := header.schema ≠ kCurrentStorageSchemaVersion }

/-- The generation of an intact record of a later schema. -/
def intactFutureSchemaGeneration (bytes : Bytes) : Option UInt64 := do
  let header ← intactHeader bytes
  guard (kCurrentStorageSchemaVersion < header.schema ∧
    currentRecordCrc bytes = header.expectedCrc)
  return header.generation

end DawnDock
