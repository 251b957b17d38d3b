import Mathlib.Logic.Function.Iterate
import DawnDock.Library.Checksum
import DawnDock.ScheduleStore.Canonical
import DawnDock.ScheduleStore.Register

/-!
A single flipped bit in a record. A shift of the CRC register loses nothing
(`crcShift_injective`), so one changed byte under the CRC always changes it; a flip
of the magic or of the CRC itself is seen directly, and no flip turns schema 2 into
schema 1. Neither record reader accepts the damaged bytes (`flipBit_rejected`), and
a load falls back to the other slot (`single_bit_flip_contained`).
-/

namespace DawnDock

open ByteCodec Checksum

/-! ### The CRC register -/

theorem crcShift_toBitVec (crc : UInt32) :
    (crcShift crc).toBitVec = crc.toBitVec >>> 1 ^^^
      if crc.toBitVec.getLsbD 0 then 0xedb88320#32 else 0#32 := by
  have mask : (crc &&& 1).toBitVec =
      BitVec.setWidth 32 (BitVec.ofBool (crc.toBitVec.getLsbD 0)) := by
    rw [UInt32.toBitVec_and]
    exact BitVec.and_one_eq_setWidth_ofBool_getLsbD
  rw [crcShift, UInt32.toBitVec_xor, UInt32.toBitVec_and, UInt32.toBitVec_sub, mask]
  cases crc.toBitVec.getLsbD 0 <;> simp

/-- The top bit of the polynomial keeps the bit that was shifted out, so a shift
loses nothing. -/
theorem crcShift_injective : Function.Injective crcShift := by
  intro x y same
  have same := congrArg UInt32.toBitVec same
  rw [crcShift_toBitVec, crcShift_toBitVec] at same
  have top (z : BitVec 32) :
      (z >>> 1 ^^^ if z.getLsbD 0 then 0xedb88320#32 else 0#32).getLsbD 31 = z.getLsbD 0 := by
    cases low : z.getLsbD 0 <;> simp
  have low : x.toBitVec.getLsbD 0 = y.toBitVec.getLsbD 0 := by rw [← top, same, top]
  rw [low] at same
  have shifted : x.toBitVec >>> 1 = y.toBitVec >>> 1 := (BitVec.xor_left_inj _).mp same
  apply UInt32.toBitVec_inj.mp
  apply BitVec.eq_of_getLsbD_eq
  intro i _
  cases i with
  | zero => exact low
  | succ i =>
      have := congrArg (·.getLsbD i) shifted
      simpa [BitVec.getLsbD_ushiftRight, Nat.add_comm] using this

theorem updateCrc32_detecting :
    Detecting fun (crc : UInt32) (byte : UInt8) =>
      Nat.iterate crcShift 8 (crc ^^^ byte.toUInt32) where
  register byte _ _ same := by
    have same := congrArg UInt32.toBitVec (crcShift_injective.iterate 8 same)
    rw [UInt32.toBitVec_xor, UInt32.toBitVec_xor] at same
    exact UInt32.toBitVec_inj.mp ((BitVec.xor_left_inj _).mp same)
  symbol crc _ _ same := by
    have same := congrArg UInt32.toBitVec (crcShift_injective.iterate 8 same)
    rw [UInt32.toBitVec_xor, UInt32.toBitVec_xor] at same
    exact UInt8.toUInt32_inj.mp (UInt32.toBitVec_inj.mp ((BitVec.xor_right_inj _).mp same))

/-- One changed byte changes the CRC. -/
theorem crc32_set_ne {message : Bytes} {index : Nat} {old new : UInt8}
    (found : message[index]? = some old) (changed : new ≠ old) :
    crc32 (message.set index new) ≠ crc32 message := by
  intro same
  exact updateCrc32_detecting.foldl_set_ne found changed _ (UInt32.not_inj.mp same)

/-! ### One changed byte -/

theorem putU32_injective : Function.Injective putU32 := by
  intro x y same
  have numbers := congrArg natOf same
  rw [putU32, putU32, natOf_putNat_of_lt x.toNat_lt, natOf_putNat_of_lt y.toNat_lt] at numbers
  exact UInt32.toNat_inj.mp numbers

/-- When a changed byte leaves the header intact, the CRC no longer matches: the
byte stands under the CRC, or it is one of the CRC's own. -/
theorem currentRecordCrc_set_ne {generation : UInt64} {payload : Bytes} {index : Nat}
    {old new : UInt8} (found : (assembleRecord generation payload)[index]? = some old)
    (changed : new ≠ old) {header : RecordHeader}
    (intact : intactHeader ((assembleRecord generation payload).set index new) = some header) :
    currentRecordCrc ((assembleRecord generation payload).set index new) ≠ header.expectedCrc := by
  have record := of_intactHeader intact
  rw [record.currentRecordCrc]
  have layout := record.layout
  have length : (protectedHeader generation payload.length).length = header.fields.length := by
    rw [length_protectedHeader, header.length_fields]
  generalize ((assembleRecord generation payload).set index new).drop kHeaderSize = payload'
    at layout ⊢
  unfold assembleRecord at layout found
  generalize protectedHeader generation payload.length = fields at *
  have crcLength : (putU32 (crc32 (fields ++ payload))).length =
      (putU32 header.expectedCrc).length := by simp [putU32]
  simp only [List.append_assoc] at layout found
  rcases set_append_eq found layout rfl with ⟨found, magic, -⟩ | ⟨_, found, -, layout⟩
  · exact absurd magic.symm (set_ne_self found changed)
  rcases set_append_eq found layout.symm length with ⟨inFields, fieldsSet, rest⟩ |
    ⟨_, beyondFields, sameFields, rest⟩
  · obtain ⟨crc, rfl⟩ := List.append_inj rest crcLength.symm
    have inside := (List.getElem?_eq_some_iff.mp inFields).1
    rw [fieldsSet, putU32_injective crc, ← List.set_append_left _ _ inside]
    exact crc32_set_ne (by rwa [List.getElem?_append_left inside]) changed
  rw [sameFields]
  rcases set_append_eq beyondFields rest.symm crcLength with ⟨inCrc, crc, rfl⟩ |
    ⟨inner, inPayload, crc, rfl⟩
  · intro same
    rw [← same] at crc
    exact set_ne_self inCrc changed crc.symm
  · rw [putU32_injective crc]
    have beyond : fields.length ≤ fields.length + inner := Nat.le_add_right ..
    have found : (fields ++ payload)[fields.length + inner]? = some old := by
      rwa [List.getElem?_append_right beyond, Nat.add_sub_cancel_left]
    have differs := crc32_set_ne found changed
    rwa [List.set_append_right _ _ beyond, Nat.add_sub_cancel_left] at differs

/-! ### One flipped bit -/

/-- The bytes with the bit at `position` flipped, counted from the low bit of the
first byte. -/
def flipBit (bytes : Bytes) (position : Nat) : Bytes :=
  bytes.modify (position / 8) (· ^^^ UInt8.ofNat (2 ^ (position % 8)))

theorem flipBit_eq_set {bytes : Bytes} {position : Nat} {old : UInt8}
    (found : bytes[position / 8]? = some old) :
    flipBit bytes position =
      bytes.set (position / 8) (old ^^^ UInt8.ofNat (2 ^ (position % 8))) := by
  rw [flipBit, List.modify_eq_set_getElem?, found]
  rfl

theorem flippedByte_ne (byte : UInt8) (position : Nat) :
    byte ^^^ UInt8.ofNat (2 ^ (position % 8)) ≠ byte := by
  have mask : ∀ bit < 8, UInt8.ofNat (2 ^ bit) ≠ 0 := by decide
  intro same
  apply mask (position % 8) (Nat.mod_lt _ (by decide))
  apply UInt8.toBitVec_inj.mp
  have same := congrArg UInt8.toBitVec same
  rw [UInt8.toBitVec_xor] at same
  exact (BitVec.xor_right_inj byte.toBitVec).mp (same.trans BitVec.xor_zero.symm)

/-- No flip turns the current schema into schema 1. -/
theorem flipBit_schema {generation : UInt64} {payload : Bytes} {position : Nat}
    {header : RecordHeader}
    (intact : intactHeader (flipBit (assembleRecord generation payload) position) = some header) :
    header.schema ≠ 1 := by
  intro schema
  have original : (assembleRecord generation payload)[4]? = some 2 := rfl
  have damaged : (flipBit (assembleRecord generation payload) position)[4]? = some 1 := by
    rw [(of_intactHeader intact).layout, RecordHeader.fields, schema]
    rfl
  have flips : ∀ bit < 8, (2 : UInt8) ^^^ UInt8.ofNat (2 ^ bit) ≠ 1 := by decide
  rw [flipBit, List.getElem?_modify, original] at damaged
  have byte := Option.some.inj damaged
  split at byte
  · exact flips _ (Nat.mod_lt _ (by decide)) byte
  · exact absurd byte (by decide)

/-- Neither record reader accepts a record with a flipped bit. -/
theorem flipBit_rejected {snapshot : ScheduleSnapshot} {generation : UInt64} {bytes : Bytes}
    (written : encodeRecord snapshot generation = some bytes) {position : Nat}
    (inside : position < 8 * bytes.length) :
    decodeRecord (flipBit bytes position) = none ∧
      intactFutureSchemaGeneration (flipBit bytes position) = none := by
  obtain ⟨payload, rfl, -, -, -⟩ := encodeRecord_eq_some written
  have found := List.getElem?_eq_getElem (l := assembleRecord generation payload)
    (i := position / 8) (by omega)
  have mismatch {header : RecordHeader}
      (intact : intactHeader (flipBit (assembleRecord generation payload) position) = some header) :
      currentRecordCrc (flipBit (assembleRecord generation payload) position) ≠
        header.expectedCrc := by
    rw [flipBit_eq_set found] at intact ⊢
    exact currentRecordCrc_set_ne found (flippedByte_ne _ position) intact
  constructor
  · rw [Option.eq_none_iff_forall_ne_some]
    intro decoded accepted
    simp only [decodeRecord, Option.bind_eq_bind, Option.bind_eq_some_iff] at accepted
    obtain ⟨header, intact, _, -, _, crc, -⟩ := accepted
    have crc := of_guard_eq_some crc
    rw [if_neg (flipBit_schema intact)] at crc
    exact mismatch intact crc
  · rw [Option.eq_none_iff_forall_ne_some]
    intro future accepted
    simp only [intactFutureSchemaGeneration, Option.bind_eq_bind, Option.bind_eq_some_iff]
      at accepted
    obtain ⟨header, intact, _, checked, -⟩ := accepted
    exact mismatch intact (of_guard_eq_some checked).2

/-! ### The load after the flip -/

theorem slotRecord_of_intactFuture {bytes : Bytes} {generation : UInt64}
    (later : intactFutureSchemaGeneration bytes = some generation) :
    slotRecord (some bytes) = .future generation := by
  rw [slotRecord, later]

theorem slotRecord_of_unreadable {content : Option Bytes}
    (undecodable : content.bind decodeRecord = none)
    (notLater : content.bind intactFutureSchemaGeneration = none) :
    slotRecord content = .absent ∨ slotRecord content = .invalid := by
  cases content with
  | none => exact .inl rfl
  | some bytes =>
      rw [Option.bind_some] at undecodable notLater
      exact .inr (by rw [slotRecord, notLater, undecodable])

/-- What is loaded when the other of two slots holds bytes no reader accepts. -/
def fallbackLoad (slot : StorageSlot) : SlotRecord → LoadResult
  | .record decoded =>
      { status := .loaded, snapshot := decoded.snapshot, generation := decoded.generation
        source := slot, migrated := decoded.migrated, corruptionDetected := true }
  | .future generation => { status := .unsupportedSchema, generation }
  | .absent | .invalid => { status := .corrupt }

theorem load_of_invalid {slots : Slots} {slot : StorageSlot}
    (invalid : slotRecord (slots.get slot) = .invalid) :
    load slots {} = fallbackLoad (opposite slot) (slotRecord (slots.get (opposite slot))) := by
  have scanned : load slots {} =
      scanRecords (slotRecord (slots.get .a)) (slotRecord (slots.get .b)) := rfl
  cases slot with
  | a =>
      rw [scanned, invalid, opposite]
      cases slotRecord (slots.get .b) <;> rfl
  | b =>
      rw [scanned, invalid, opposite]
      cases slotRecord (slots.get .a) <;> rfl

/-- A record with a flipped bit is never loaded. The load returns the other slot's
record and reports the corruption; with no such record it fails, as corrupt unless
the other slot holds an intact record of a later schema. -/
theorem single_bit_flip_contained {snapshot : ScheduleSnapshot} {generation : UInt64}
    {bytes : Bytes} (written : encodeRecord snapshot generation = some bytes) {position : Nat}
    (inside : position < 8 * bytes.length) (slots : Slots) (slot : StorageSlot) :
    let damaged := slots.set slot (flipBit bytes position)
    let other := slots.get (opposite slot)
    decodeRecord (flipBit bytes position) = none ∧
      intactFutureSchemaGeneration (flipBit bytes position) = none ∧
      (∀ decoded, other.bind decodeRecord = some decoded →
        load damaged {} =
          { status := .loaded, snapshot := decoded.snapshot, generation := decoded.generation
            source := opposite slot, migrated := decoded.migrated, corruptionDetected := true }) ∧
      (other.bind decodeRecord = none → other.bind intactFutureSchemaGeneration = none →
        load damaged {} = { status := .corrupt }) ∧
      (∀ future, other.bind intactFutureSchemaGeneration = some future →
        load damaged {} = { status := .unsupportedSchema, generation := future }) := by
  intro damaged other
  obtain ⟨undecodable, notLater⟩ := flipBit_rejected written inside
  have invalid : slotRecord (damaged.get slot) = .invalid := by
    rw [Slots.get_set_self, slotRecord, notLater, undecodable]
  have loaded : load damaged {} = fallbackLoad (opposite slot) (slotRecord other) := by
    rw [load_of_invalid invalid, Slots.get_set_of_ne _ _ (opposite_ne slot)]
  refine ⟨undecodable, notLater, fun decoded holds => ?_, fun empty noLater => ?_,
    fun future holds => ?_⟩
  · obtain ⟨content, present, accepted⟩ := Option.bind_eq_some_iff.mp holds
    rw [loaded, present, slotRecord_of_decode accepted, fallbackLoad]
  · rw [loaded]
    rcases slotRecord_of_unreadable empty noLater with absent | invalid
    · rw [absent, fallbackLoad]
    · rw [invalid, fallbackLoad]
  · obtain ⟨content, present, later⟩ := Option.bind_eq_some_iff.mp holds
    rw [loaded, present, slotRecord_of_intactFuture later, fallbackLoad]

/-- A payload without alarms or journal, under the timezone version `U`. -/
def emptyPayload : Bytes := [1, 0, 0, 0, 0, 0, 0, 0, 1, 0, 0x55, 0, 0, 0, 0, 0, 0, 0]

def emptySchedule : ScheduleSnapshot := { revision := 1, timezoneRulesVersion := [0x55] }

/-- The low bit of the schema: the record claims a later schema, and the load
falls back to the other slot. -/
theorem single_bit_flip_contained_schema :
    load ⟨some (flipBit (assembleRecord 7 emptyPayload) 32), some (assembleRecord 6 emptyPayload)⟩
      {} =
        { status := .loaded, snapshot := emptySchedule, generation := 6, source := .b
          migrated := false, corruptionDetected := true } :=
  have written : encodeRecord emptySchedule 7 = some (assembleRecord 7 emptyPayload) := by
    decide +kernel
  (single_bit_flip_contained written (by decide)
    ⟨some (assembleRecord 7 emptyPayload), some (assembleRecord 6 emptyPayload)⟩ .a).2.2.1
      ⟨emptySchedule, 6, false⟩ (by decide +kernel)

end DawnDock
