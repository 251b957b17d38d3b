import DawnDock.Library.Collect
import DawnDock.Library.Tzif
import DawnDock.TzifRules.Adapter
import Mathlib.Data.List.Induction

/-!
What the adapter reads are the record's version-2 tables.

Each reader returns the field at its position; `readTable_fields` carries that over a
counted table, and `parseRecord_reads` over the record: the times, type indices and
offsets the adapter works on are `Tzif.transitionTime`, `Tzif.transitionType` and
`Tzif.utoff`, in order.
-/

namespace DawnDock

open ByteCodec
open Collect (of_bind_eq_ok)

/-! ### Fields -/

theorem bigEndian_concat (bytes : Bytes) (byte : UInt8) :
    Tzif.bigEndian (bytes ++ [byte]) = 256 * Tzif.bigEndian bytes + byte.toNat := by
  simp [Tzif.bigEndian]

theorem bigEndian_lt (bytes : Bytes) : Tzif.bigEndian bytes < 256 ^ bytes.length := by
  induction bytes using List.reverseRecOn with
  | nil => simp [Tzif.bigEndian]
  | append_singleton bytes byte ih =>
      have := byte.toNat_lt
      rw [bigEndian_concat, List.length_append, List.length_singleton, pow_succ]
      omega

/-- Shifting in a byte does not lose bits as long as the value fits in 64. -/
theorem toNat_shiftIn {bytes : Bytes} (short : bytes.length ≤ 8) :
    (shiftIn bytes).toNat = Tzif.bigEndian bytes := by
  induction bytes using List.reverseRecOn with
  | nil => rfl
  | append_singleton bytes byte ih =>
      rw [List.length_append, List.length_singleton] at short
      have prior := ih (by omega)
      have small : Tzif.bigEndian bytes < 256 ^ 7 :=
        (bigEndian_lt bytes).trans_le (Nat.pow_le_pow_right (by decide) (by omega))
      have byte_lt : byte.toNat < 2 ^ 8 := byte.toNat_lt
      have step : shiftIn (bytes ++ [byte]) = shiftIn bytes <<< 8 ||| byte.toUInt64 := by
        simp [shiftIn]
      have shifted : (shiftIn bytes <<< 8).toNat = Tzif.bigEndian bytes <<< 8 := by
        rw [UInt64.toNat_shiftLeft, prior, Nat.shiftLeft_eq, Nat.shiftLeft_eq]
        exact Nat.mod_eq_of_lt (by simp only [UInt64.reduceToNat, Nat.reduceMod]; omega)
      rw [step, UInt64.toNat_or, shifted, UInt8.toNat_toUInt64,
        ← Nat.shiftLeft_add_eq_or_of_lt byte_lt, Nat.shiftLeft_eq, bigEndian_concat]
      omega

section Readers

variable {reader after : BigEndianReader}

/-- The reader `count` bytes on. -/
def BigEndianReader.advance (reader : BigEndianReader) (count : Nat) : BigEndianReader :=
  { reader with position := reader.position + count }

@[simp] theorem advance_data (count : Nat) : (reader.advance count).data = reader.data := rfl

@[simp] theorem advance_position (count : Nat) :
    (reader.advance count).position = reader.position + count := rfl

@[simp] theorem advance_advance (first second : Nat) :
    (reader.advance first).advance second = reader.advance (first + second) := by
  simp [BigEndianReader.advance, Nat.add_assoc]

theorem of_unsigned {count : Nat} {value : UInt64} (short : count ≤ 8)
    (h : reader.unsigned count = some (value, after)) :
    value.toNat = Tzif.unsignedField reader.data reader.position count ∧
      after = reader.advance count := by
  unfold BigEndianReader.unsigned at h
  split at h
  · cases h
  · cases h
    refine ⟨toNat_shiftIn ?_, rfl⟩
    rw [List.length_take]
    omega

theorem unsignedField_lt (record : Tzif.Record) (start width : Nat) :
    Tzif.unsignedField record start width < 256 ^ width := by
  refine (bigEndian_lt _).trans_le (Nat.pow_le_pow_right (by decide) ?_)
  rw [List.length_take]
  omega

theorem of_i64 {value : Int64} (h : reader.i64 = some (value, after)) :
    value.toInt = Tzif.signedField reader.data reader.position 8 ∧ after = reader.advance 8 := by
  obtain ⟨⟨raw, after⟩, read, same⟩ := Option.map_eq_some_iff.mp h
  cases same
  obtain ⟨field, advanced⟩ := of_unsigned (by decide) read
  refine ⟨?_, advanced⟩
  show raw.toBitVec.toInt = _
  rw [BitVec.toInt_eq_toNat_bmod, UInt64.toNat_toBitVec, field, Tzif.signedField]

theorem of_i32 {value : Int32} (h : reader.i32 = some (value, after)) :
    value.toInt = Tzif.signedField reader.data reader.position 4 ∧ after = reader.advance 4 := by
  obtain ⟨⟨raw, after⟩, read, same⟩ := Option.map_eq_some_iff.mp h
  cases same
  obtain ⟨field, advanced⟩ := of_unsigned (by decide) read
  refine ⟨?_, advanced⟩
  have small := unsignedField_lt reader.data reader.position 4
  show raw.toUInt32.toBitVec.toInt = _
  rw [BitVec.toInt_eq_toNat_bmod, UInt32.toNat_toBitVec, UInt64.toNat_toUInt32, field,
    Nat.mod_eq_of_lt (by omega), Tzif.signedField]

theorem of_u8 {value : UInt8} (h : reader.u8 = some (value, after)) :
    value.toNat = Tzif.unsignedField reader.data reader.position 1 ∧
      after = reader.advance 1 := by
  obtain ⟨⟨raw, after⟩, read, same⟩ := Option.map_eq_some_iff.mp h
  cases same
  obtain ⟨field, advanced⟩ := of_unsigned (by decide) read
  have small := unsignedField_lt reader.data reader.position 1
  refine ⟨?_, advanced⟩
  rw [UInt64.toNat_toUInt8, field, Nat.mod_eq_of_lt (by omega)]

theorem of_skipDesignation (h : skipDesignation reader = some after) :
    after = reader.advance 2 := by
  simp only [skipDesignation, Option.bind_eq_bind, Option.bind_eq_some_iff] at h
  obtain ⟨⟨_, _⟩, flag, ⟨_, _⟩, designation, last⟩ := h
  obtain ⟨-, rfl⟩ := of_u8 flag
  obtain ⟨-, rfl⟩ := of_u8 designation
  cases last
  rfl

end Readers

/-! ### Headers -/

/-- The counts as the record format names them. -/
def Counts.described (counts : Counts) : Tzif.Counts where
  isut := counts.isut
  isstd := counts.isstd
  leap := counts.leap
  time := counts.time
  type := counts.type
  char := counts.character

theorem of_readCounts {data : Bytes} {start : Nat} {counts : Counts} {after : BigEndianReader}
    (h : readCounts { data, position := start + 20 } = some (counts, after)) :
    counts.described = Tzif.countsAt data start ∧ after = ⟨data, start + 44⟩ := by
  simp only [readCounts, BigEndianReader.u32, Option.bind_eq_bind, Option.bind_eq_some_iff] at h
  obtain ⟨⟨isut, _⟩, h0, ⟨isstd, _⟩, h1, ⟨leap, _⟩, h2, ⟨time, _⟩, h3, ⟨type, _⟩, h4,
    ⟨character, _⟩, h5, last⟩ := h
  obtain ⟨isut_eq, rfl⟩ := of_unsigned (by decide) h0
  obtain ⟨isstd_eq, rfl⟩ := of_unsigned (by decide) h1
  obtain ⟨leap_eq, rfl⟩ := of_unsigned (by decide) h2
  obtain ⟨time_eq, rfl⟩ := of_unsigned (by decide) h3
  obtain ⟨type_eq, rfl⟩ := of_unsigned (by decide) h4
  obtain ⟨character_eq, rfl⟩ := of_unsigned (by decide) h5
  cases last
  refine ⟨?_, rfl⟩
  simp only [Counts.described, Tzif.countsAt, isut_eq, isstd_eq, leap_eq, time_eq, type_eq,
    character_eq, advance_data, advance_position, Nat.add_assoc]

theorem of_blockByteLength {counts : Counts} {versionOne : Bool} {length : Nat}
    (h : blockByteLength counts versionOne = some length) :
    length = 44 + counts.described.dataLength (if versionOne then 4 else 8) := by
  obtain ⟨-, same⟩ := Option.ite_none_right_eq_some.mp h
  rw [← Option.some.inj same]
  cases versionOne <;>
    simp only [kHeaderBytes, Tzif.Counts.dataLength, Counts.described, if_true,
      Bool.false_eq_true, if_false] <;> omega

/-- The version-2 header is found where the version-1 block ends. -/
theorem of_secondBlock {zoneName : Text} {data : Bytes} {counts : Counts}
    {reader : BigEndianReader} (h : secondBlock zoneName data = .ok (counts, reader)) :
    counts.described = Tzif.version2Counts data ∧ reader = ⟨data, Tzif.tablesStart data⟩ ∧
      counts.type ≠ 0 := by
  unfold secondBlock at h
  split at h
  · cases h
  split at h
  · cases h
  split at h
  · cases h
  split at h
  · cases h
  rename_i firstCounts _ first
  split at h
  · cases h
  rename_i secondStart length
  split at h
  · cases h
  split at h
  · cases h
  split at h
  · cases h
  split at h
  · cases h
  rename_i found _ second
  split at h
  · cases h
  split at h
  · cases h
  rename_i some_types
  split at h
  · cases h
  cases h
  obtain ⟨firstDescribed, -⟩ := @of_readCounts data 0 _ _ first
  have start : secondStart = Tzif.version2Start data := by
    rw [of_blockByteLength length, firstDescribed]
    rfl
  obtain ⟨described, behind⟩ := of_readCounts second
  rw [start] at described behind
  exact ⟨described, behind, by simpa using some_types⟩

/-! ### Tables -/

section Table

variable {α : Type}
  {entry : Nat → List α → BigEndianReader → Except TzifParseIssue (α × BigEndianReader)}

theorem readTable_succ {remaining : Nat} {entries all : List α} {reader after : BigEndianReader}
    (h : readTable entry (remaining + 1) entries reader = .ok (all, after)) :
    ∃ value middle, entry entries.length entries reader = .ok (value, middle) ∧
      readTable entry remaining (entries ++ [value]) middle = .ok (all, after) := by
  obtain ⟨⟨value, middle⟩, read, rest⟩ := of_bind_eq_ok h
  exact ⟨value, middle, read, rest⟩

/-- Entries of one width, each showing the field at its position. -/
theorem readTable_fields {β : Type} (width : Nat) (shown : α → β) (field : Bytes → Nat → β)
    (reads : ∀ i entries reader value after, entry i entries reader = .ok (value, after) →
      shown value = field reader.data reader.position ∧ after = reader.advance width)
    {remaining : Nat} {entries all : List α} {reader after : BigEndianReader}
    (h : readTable entry remaining entries reader = .ok (all, after)) :
    all.map shown = entries.map shown ++
        (List.range remaining).map (fun i => field reader.data (reader.position + width * i)) ∧
      after = reader.advance (width * remaining) := by
  induction remaining generalizing entries reader with
  | zero =>
      cases h
      simp [BigEndianReader.advance]
  | succ remaining ih =>
      obtain ⟨value, middle, read, rest⟩ := readTable_succ h
      obtain ⟨value_eq, rfl⟩ := reads _ _ _ _ _ read
      obtain ⟨all_eq, after_eq⟩ := ih rest
      refine ⟨?_, ?_⟩
      · rw [all_eq, List.range_succ_eq_map, List.map_append, List.append_assoc]
        simp only [List.map_cons, List.map_nil, value_eq, List.map_map, Function.comp_def,
          List.singleton_append, advance_data, advance_position, Nat.mul_zero, Nat.add_zero,
          Nat.mul_succ, Nat.add_assoc, Nat.add_comm width]
      · rw [after_eq, advance_advance, Nat.mul_succ, Nat.add_comm width]

/-- What each entry keeps of the entries before it holds of the table. -/
theorem readTable_invariant (Kept : List α → Prop)
    (keeps : ∀ i entries reader value after, entry i entries reader = .ok (value, after) →
      Kept entries → Kept (entries ++ [value]))
    {remaining : Nat} {entries all : List α} {reader after : BigEndianReader}
    (h : readTable entry remaining entries reader = .ok (all, after)) (start : Kept entries) :
    Kept all := by
  induction remaining generalizing entries reader with
  | zero =>
      cases h
      exact start
  | succ remaining ih =>
      obtain ⟨value, middle, read, rest⟩ := readTable_succ h
      exact ih rest (keeps _ _ _ _ _ read start)

end Table

section Entries

variable {zoneName : Text} {i : Nat} {reader after : BigEndianReader}

theorem of_transitionTime {times : List Int64} {value : Int64}
    (h : transitionTime zoneName i times reader = .ok (value, after)) :
    value.toInt = Tzif.signedField reader.data reader.position 8 ∧ after = reader.advance 8 ∧
      ∀ last ∈ times.getLast?, last < value := by
  unfold transitionTime at h
  split at h
  · cases h
  rename_i read
  split at h
  · cases h
  rename_i later
  cases h
  obtain ⟨field, advanced⟩ := of_i64 read
  refine ⟨field, advanced, fun last mem => ?_⟩
  simp only [Option.any_eq_true, not_exists, not_and, decide_eq_true_eq] at later
  exact Int64.not_le.mp (later last mem)

theorem of_typeIndex {typeCount : Nat} {indices : List UInt8} {value : UInt8}
    (h : typeIndex zoneName typeCount i indices reader = .ok (value, after)) :
    value.toNat = Tzif.unsignedField reader.data reader.position 1 ∧ after = reader.advance 1 ∧
      value.toNat < typeCount := by
  unfold typeIndex at h
  split at h
  · cases h
  rename_i read
  split at h
  · cases h
  rename_i known
  cases h
  obtain ⟨field, advanced⟩ := of_u8 read
  exact ⟨field, advanced, Nat.not_le.mp known⟩

theorem of_localTimeType {types : List Int32} {value : Int32}
    (h : localTimeType zoneName i types reader = .ok (value, after)) :
    value.toInt = Tzif.signedField reader.data reader.position 4 ∧ after = reader.advance 6 := by
  unfold localTimeType at h
  split at h
  · cases h
  rename_i read
  split at h
  · cases h
  rename_i skipped
  split at h
  · cases h
  cases h
  obtain ⟨field, rfl⟩ := of_i32 read
  exact ⟨field, (of_skipDesignation skipped).trans (advance_advance 4 2)⟩

end Entries

/-- The tables in memory are those of the record. -/
structure ZoneTables.Describes (tables : ZoneTables) (data : Bytes) : Prop where
  times : tables.times.map Int64.toInt =
    (List.range (Tzif.version2Counts data).time).map (Tzif.transitionTime data)
  typeIndices : tables.typeIndices.map UInt8.toNat =
    (List.range (Tzif.version2Counts data).time).map (Tzif.transitionType data)
  types : tables.types.map Int32.toInt =
    (List.range (Tzif.version2Counts data).type).map (Tzif.utoff data)
  known : ∀ index ∈ tables.typeIndices, index.toNat < (Tzif.version2Counts data).type
  someType : (Tzif.version2Counts data).type ≠ 0
  ordered : tables.times.Pairwise (· < ·)

/-- A list in order, continued by something larger. -/
theorem pairwise_concat {times : List Int64} {value : Int64} (ordered : times.Pairwise (· < ·))
    (larger : ∀ last ∈ times.getLast?, last < value) : (times ++ [value]).Pairwise (· < ·) := by
  refine List.pairwise_append.mpr ⟨ordered, List.pairwise_singleton .., ?_⟩
  rintro earlier mem _ (_ | ⟨_, ⟨⟩⟩)
  obtain rfl | ⟨front, last, rfl⟩ := List.eq_nil_or_concat' times
  · cases mem
  have last_lt := larger last (by simp)
  obtain mem | mem := List.mem_append.mp mem
  · exact Int64.lt_trans
      ((List.pairwise_append.mp ordered).2.2 earlier mem last (List.mem_singleton_self _)) last_lt
  · rwa [List.mem_singleton.mp mem]

theorem validOffset_of_localTimeType {zoneName : Text} {i : Nat} {types : List Int32}
    {reader after : BigEndianReader} {value : Int32}
    (h : localTimeType zoneName i types reader = .ok (value, after)) :
    validOffset value = true := by
  unfold localTimeType at h
  split at h
  · cases h
  split at h
  · cases h
  split at h
  · cases h
  rename_i valid
  cases h
  rwa [Bool.not_eq_true', Bool.not_eq_false] at valid

/-- The tables behind the header are the record's. -/
theorem readTables_describes {zoneName : Text} {data : Bytes} {counts : Counts}
    {reader : BigEndianReader} {tables : ZoneTables}
    (found : secondBlock zoneName data = .ok (counts, reader))
    (read : readTables zoneName counts reader = .ok tables) :
    tables.Describes data ∧ ∀ offset ∈ tables.types, validOffset offset = true := by
  rw [and_comm]
  obtain ⟨described, rfl, some_type⟩ := of_secondBlock found
  obtain ⟨⟨times, _⟩, times_read, h⟩ := of_bind_eq_ok read
  obtain ⟨⟨typeIndices, _⟩, indices_read, h⟩ := of_bind_eq_ok h
  obtain ⟨⟨types, _⟩, types_read, last⟩ := of_bind_eq_ok h
  cases last
  have time : counts.time = (Tzif.version2Counts data).time := congrArg Tzif.Counts.time described
  have type : counts.type = (Tzif.version2Counts data).type := congrArg Tzif.Counts.type described
  have ordered := readTable_invariant (List.Pairwise (· < ·))
    (fun _ _ _ _ _ read ordered => pairwise_concat ordered (of_transitionTime read).2.2)
    times_read .nil
  have known := readTable_invariant (fun indices => ∀ index ∈ indices,
      index.toNat < counts.type)
    (fun _ _ _ _ _ read kept index mem => by
      obtain mem | mem := List.mem_append.mp mem
      · exact kept index mem
      · rw [List.mem_singleton.mp mem]
        exact (of_typeIndex read).2.2)
    indices_read (by simp)
  have valid := readTable_invariant (fun types => ∀ offset ∈ types, validOffset offset = true)
    (fun _ _ _ _ _ read kept offset mem => by
      obtain mem | mem := List.mem_append.mp mem
      · exact kept offset mem
      · rw [List.mem_singleton.mp mem]
        exact validOffset_of_localTimeType read)
    types_read (by simp)
  refine ⟨valid, ?_⟩
  obtain ⟨times_eq, rfl⟩ := readTable_fields 8 Int64.toInt
    (fun data position => Tzif.signedField data position 8)
    (fun _ _ _ _ _ read => ⟨(of_transitionTime read).1, (of_transitionTime read).2.1⟩) times_read
  obtain ⟨indices_eq, rfl⟩ := readTable_fields 1 UInt8.toNat
    (fun data position => Tzif.unsignedField data position 1)
    (fun _ _ _ _ _ read => ⟨(of_typeIndex read).1, (of_typeIndex read).2.1⟩) indices_read
  obtain ⟨types_eq, -⟩ := readTable_fields 6 Int32.toInt
    (fun data position => Tzif.signedField data position 4)
    (fun _ _ _ _ _ read => of_localTimeType read) types_read
  simp only [List.map_nil, List.nil_append, advance_data, advance_position, Nat.one_mul,
    advance_advance, time, type] at times_eq indices_eq types_eq ordered known some_type
  exact {
    times := times_eq
    typeIndices := indices_eq
    types := by
      rw [types_eq]
      refine List.map_congr_left fun i _ => ?_
      rw [Tzif.utoff]
      congr 1
      omega
    known
    someType := some_type
    ordered }

theorem parseRecord_reads {zoneName : Text} {data : Bytes} {zone : ParsedTzifZone}
    (h : parseRecord zoneName data = .ok zone) :
    ∃ tables : ZoneTables, zone = parsedZone zoneName tables ∧ tables.Describes data ∧
      ∀ offset ∈ tables.types, validOffset offset = true := by
  obtain ⟨⟨counts, reader⟩, found, h⟩ := of_bind_eq_ok h
  obtain ⟨tables, read, last⟩ := of_bind_eq_ok h
  cases last
  exact ⟨tables, rfl, readTables_describes found read⟩

end DawnDock
