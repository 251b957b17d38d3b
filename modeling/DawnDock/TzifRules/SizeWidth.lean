import DawnDock.TzifRules.Tables

/-!
Where `parse_tzif_zone` reads, for a `size_t` of 64 and of 32 bits.

`Sized` is the parser once more, with `size_t` arithmetic wrapping at its width and with
every access to the record and to the tables by its index: an index that is not in range
ends the run with `Stop.outOfRange`, which the source leaves undefined.
-/

namespace DawnDock

open ByteCodec

/-- The widths of `size_t`: the hosts' and the ESP32's. -/
inductive SizeWidth where
  | bits64 | bits32
deriving DecidableEq, Repr

def SizeWidth.modulus : SizeWidth → Nat
  | bits64 => 2 ^ 64
  | bits32 => 2 ^ 32

def SizeWidth.add (width : SizeWidth) (a b : Nat) : Nat := (a + b) % width.modulus

def SizeWidth.sub (width : SizeWidth) (a b : Nat) : Nat :=
  (a + (width.modulus - b)) % width.modulus

inductive Stop where
  | outOfRange (index : Nat)
  | issue (issue : TzifParseIssue)
deriving DecidableEq, Repr

namespace Sized

/-- `values[index]`. -/
def entryAt {α : Type} (values : List α) (index : Nat) : Except Stop α :=
  match values[index]? with
  | some value => .ok value
  | none => .error (.outOfRange index)

def reject {α : Type} (zoneName : Text) (status : TzifParseStatus) (detail : Nat := 0) :
    Except Stop α :=
  .error (.issue (issueFor zoneName status detail))

section Width

variable (width : SizeWidth)

/-- The loop all the integer readers share. -/
def shiftIn (data : Bytes) (position count : Nat) : Except Stop UInt64 :=
  (List.range count).foldlM (fun value i => do
    let byte ← entryAt data (width.add position i)
    pure (value <<< 8 ||| byte.toUInt64)) 0

/-- A failed read leaves the reader where it is. -/
def unsigned (reader : BigEndianReader) (count : Nat) :
    Except Stop (Option UInt64 × BigEndianReader) :=
  if width.add reader.position count > reader.data.length then pure (none, reader)
  else do
    let value ← shiftIn width reader.data reader.position count
    pure (some value, { reader with position := width.add reader.position count })

def u32 (reader : BigEndianReader) : Except Stop (Option UInt64 × BigEndianReader) :=
  unsigned width reader 4

def i64 (reader : BigEndianReader) : Except Stop (Option Int64 × BigEndianReader) := do
  let (value, reader) ← unsigned width reader 8
  pure (value.map (·.toInt64), reader)

def i32 (reader : BigEndianReader) : Except Stop (Option Int32 × BigEndianReader) := do
  let (raw, reader) ← u32 width reader
  pure (raw.map (·.toUInt32.toInt32), reader)

def u8 (reader : BigEndianReader) : Except Stop (Option UInt8 × BigEndianReader) := do
  let (value, reader) ← unsigned width reader 1
  pure (value.map (·.toUInt8), reader)

def hasTzifMagic (data : Bytes) (offset : Nat) : Except Stop Bool :=
  if width.add offset 4 > data.length then pure false
  else do
    let first ← entryAt data offset
    let second ← entryAt data (width.add offset 1)
    let third ← entryAt data (width.add offset 2)
    let fourth ← entryAt data (width.add offset 3)
    pure ([first, second, third, fourth] == [0x54, 0x5a, 0x69, 0x66])

def fitsSize (value : Nat) : Bool := value ≤ width.modulus - 1

/-- All six reads are made before the first failure is looked at. -/
def readCounts (reader : BigEndianReader) : Except Stop (Option Counts × BigEndianReader) := do
  let (isut, reader) ← u32 width reader
  let (isstd, reader) ← u32 width reader
  let (leap, reader) ← u32 width reader
  let (time, reader) ← u32 width reader
  let (type, reader) ← u32 width reader
  let (character, reader) ← u32 width reader
  pure (do
    let isut ← isut
    let isstd ← isstd
    let leap ← leap
    let time ← time
    let type ← type
    let character ← character
    pure { isut := isut.toNat, isstd := isstd.toNat, leap := leap.toNat, time := time.toNat,
           type := type.toNat, character := character.toNat }, reader)

/-- The sum is made in 64 bits on either target. -/
def blockByteLength (counts : Counts) (versionOne : Bool) : Option Nat :=
  let timeSize := if versionOne then 4 else 8
  let leapSize := if versionOne then 8 else 12
  let total := (kHeaderBytes + counts.time * timeSize + counts.time + counts.type * 6 +
    counts.character + counts.leap * leapSize + counts.isstd + counts.isut) % 2 ^ 64
  if fitsSize width total then some total else none

/-- The checks behind the version-1 block. -/
def secondHeader (zoneName : Text) (data : Bytes) (secondStart : Nat) :
    Except Stop (Counts × BigEndianReader) := do
  let found ← (if width.add secondStart 5 > data.length then pure false
    else hasTzifMagic width data secondStart)
  if !found then reject zoneName .unsupportedVersion
  else do
    let versionChar ← entryAt data (width.add secondStart 4)
    if versionChar != 0x32 && versionChar != 0x33 then reject zoneName .unsupportedVersion
    else if secondStart > width.sub data.length kHeaderBytes then reject zoneName .truncated
    else do
      let (counts, reader) ← readCounts width { data, position := width.add secondStart 20 }
      match counts with
      | none => reject zoneName .truncated
      | some counts =>
        if counts.time > kMaximumTzifTransitions || counts.type > kMaximumTzifTypes ||
            counts.character > kMaximumTzifDesignationBytes then
          reject zoneName .excessiveCounts
        else if counts.type == 0 then reject zoneName .emptyLocalTimeTable
        else if (blockByteLength width counts false).all
            (· > width.sub data.length secondStart) then
          reject zoneName .truncated
        else pure (counts, reader)

def secondBlock (zoneName : Text) (data : Bytes) : Except Stop (Counts × BigEndianReader) :=
  if zoneName.isEmpty || zoneName.length > kMaximumZoneNameBytes then
    reject zoneName .invalidZoneName zoneName.length
  else if data.length > kMaximumTzifRecordBytes then
    reject zoneName .excessiveCounts data.length
  else do
    let recognized ← hasTzifMagic width data 0
    if !recognized then reject zoneName .badMagic
    else do
      let (firstCounts, _) ← readCounts width { data, position := 20 }
      match firstCounts with
      | none => reject zoneName .truncated
      | some firstCounts =>
        match blockByteLength width firstCounts true with
        | none => reject zoneName .excessiveCounts
        | some secondStart => secondHeader width zoneName data secondStart

/-- A `for` loop that reads one entry after another. -/
def readTable {α : Type} (entry : Nat → List α → BigEndianReader →
      Except Stop (α × BigEndianReader)) :
    Nat → List α → BigEndianReader → Except Stop (List α × BigEndianReader)
  | 0, entries, reader => .ok (entries, reader)
  | remaining + 1, entries, reader => do
    let (value, reader) ← entry entries.length entries reader
    readTable entry remaining (entries ++ [value]) reader

def transitionTime (zoneName : Text) (i : Nat) (times : List Int64) (reader : BigEndianReader) :
    Except Stop (Int64 × BigEndianReader) := do
  let (value, reader) ← i64 width reader
  match value with
  | none => reject zoneName .truncated
  | some value =>
    if times.getLast?.any (value ≤ ·) then reject zoneName .badTransitionOrder i
    else pure (value, reader)

def typeIndex (zoneName : Text) (typeCount : Nat) (i : Nat) (_ : List UInt8)
    (reader : BigEndianReader) : Except Stop (UInt8 × BigEndianReader) := do
  let (index, reader) ← u8 width reader
  match index with
  | none => reject zoneName .badLocalTimeType i
  | some index =>
    if index.toNat ≥ typeCount then reject zoneName .badLocalTimeType i
    else pure (index, reader)

def localTimeType (zoneName : Text) (i : Nat) (_ : List Int32) (reader : BigEndianReader) :
    Except Stop (Int32 × BigEndianReader) := do
  let (gmtoff, reader) ← i32 width reader
  let (isdst, reader) ← u8 width reader
  let (abbrind, reader) ← u8 width reader
  match gmtoff, isdst, abbrind with
  | some gmtoff, some _, some _ =>
    if !validOffset gmtoff then reject zoneName .badLocalTimeType i
    else pure (gmtoff, reader)
  | _, _, _ => reject zoneName .truncated

def readTables (zoneName : Text) (counts : Counts) (reader : BigEndianReader) :
    Except Stop ZoneTables := do
  let (times, reader) ← readTable (transitionTime width zoneName) counts.time [] reader
  let (typeIndices, reader) ←
    readTable (typeIndex width zoneName counts.type) counts.time [] reader
  let (types, _) ← readTable (localTimeType width zoneName) counts.type [] reader
  return { times, typeIndices, types }

end Width

/-- The emitting loop over the indices that are left. -/
def emitTransitions (tables : ZoneTables) (runningOffset : Int32) :
    List Nat → Except Stop (List UtcOffsetTransition × Bool)
  | [] => pure ([], false)
  | i :: rest => do
    let index ← entryAt tables.typeIndices i
    let afterOffset ← entryAt tables.types index.toNat
    let time ← entryAt tables.times i
    if time ≥ kTzifTailCutoffUtcSeconds then pure ([], true)
    else if afterOffset == runningOffset then emitTransitions tables runningOffset rest
    else do
      let (transitions, truncatedAtCutoff) ← emitTransitions tables afterOffset rest
      pure ({ atUtcSeconds := time, offsetBeforeSeconds := runningOffset,
              offsetAfterSeconds := afterOffset } :: transitions, truncatedAtCutoff)

/-- `out` after the last check. -/
def parsedZone (zoneName : Text) (tables : ZoneTables) : Except Stop ParsedTzifZone := do
  let initialOffset ← entryAt tables.types 0
  let (transitions, truncatedAtCutoff) ←
    emitTransitions tables initialOffset (List.range tables.times.length)
  pure { zoneName, initialUtcOffsetSeconds := initialOffset, transitions
         sourceTransitionCount := tables.times.length
         emittedTransitionCount := transitions.length, truncatedAtCutoff }

def parseRecord (width : SizeWidth) (zoneName : Text) (data : Bytes) :
    Except Stop ParsedTzifZone := do
  let (counts, reader) ← secondBlock width zoneName data
  let tables ← readTables width zoneName counts reader
  parsedZone zoneName tables

/-- The returned issue and what is left in `out`, or the index of a read that is not in
range. -/
def parseTzifZone (width : SizeWidth) (zoneName : Text) (data : Bytes) :
    Except Nat (TzifParseIssue × ParsedTzifZone) :=
  match parseRecord width zoneName data with
  | .error (.outOfRange index) => .error index
  | .error (.issue issue) => .ok (issue, {})
  | .ok zone => .ok (issueFor zoneName .ok, zone)

end Sized

/-! ### Reads that do not wrap -/

theorem modulus_bits64 : SizeWidth.bits64.modulus = 2 ^ 64 := rfl

theorem modulus_bits32 : SizeWidth.bits32.modulus = 2 ^ 32 := rfl

theorem SizeWidth.le_modulus (width : SizeWidth) : 2 ^ 32 ≤ width.modulus := by
  cases width <;> decide

theorem SizeWidth.add_of_lt {width : SizeWidth} {a b : Nat} (lt : a + b < width.modulus) :
    width.add a b = a + b :=
  Nat.mod_eq_of_lt lt

theorem SizeWidth.add_eq {width : SizeWidth} {a b : Nat} (lt : a + b < 2 ^ 32) :
    width.add a b = a + b :=
  SizeWidth.add_of_lt (lt.trans_le width.le_modulus)

theorem SizeWidth.sub_eq {width : SizeWidth} {a b : Nat} (le : b ≤ a) (lt : a < 2 ^ 32) :
    width.sub a b = a - b := by
  have := width.le_modulus
  have shifted : a + (width.modulus - b) = a - b + width.modulus := by omega
  rw [SizeWidth.sub, shifted, Nat.add_mod_right, Nat.mod_eq_of_lt (by omega)]

/-- A reader whose next fields are found without wrapping around. -/
structure BigEndianReader.Near (reader : BigEndianReader) : Prop where
  short : reader.data.length ≤ kMaximumTzifRecordBytes
  position : reader.position ≤ 2 ^ 20

namespace Sized

variable {width : SizeWidth}

theorem entryAt_eq {α : Type} {values : List α} {index : Nat} (lt : index < values.length) :
    entryAt values index = .ok values[index] := by
  unfold entryAt
  rw [List.getElem?_eq_getElem lt]

theorem shiftIn_eq {data : Bytes} {position count : Nat} (within : position + count ≤ data.length)
    (short : data.length ≤ kMaximumTzifRecordBytes) :
    shiftIn width data position count =
      .ok (DawnDock.shiftIn ((data.drop position).take count)) := by
  unfold kMaximumTzifRecordBytes at short
  induction count with
  | zero => rfl
  | succ count ih =>
      have lt : position + count < data.length := by omega
      have before := ih (by omega)
      unfold shiftIn at before ⊢
      rw [List.range_succ, List.foldlM_append, before]
      have last : (data.drop position).take (count + 1) =
          (data.drop position).take count ++ [data[position + count]] := by
        rw [List.take_add_one, List.getElem?_drop, List.getElem?_eq_getElem lt]
        rfl
      have here : width.add position count = position + count :=
        SizeWidth.add_eq (by omega)
      have byte : entryAt data (width.add position count) = .ok data[position + count] := by
        rw [here]
        exact entryAt_eq lt
      have shifted : DawnDock.shiftIn ((data.drop position).take count ++ [data[position + count]]) =
          DawnDock.shiftIn ((data.drop position).take count) <<< 8 |||
            data[position + count].toUInt64 := by
        simp [DawnDock.shiftIn]
      rw [last, shifted]
      simp only [List.foldlM_cons, byte]
      rfl

/-- A run reads what `read` does, in range, and the reader it leaves is near. -/
def Reads {α : Type} (run : Except Stop (Option α × BigEndianReader))
    (read : Option (α × BigEndianReader)) : Prop :=
  ∃ after, run = .ok (read.map Prod.fst, after) ∧ after.Near ∧
    ∀ value behind, read = some (value, behind) → behind = after

/-- A run that only carries a failure on, in range. -/
def Fails {α : Type} (run : Except Stop (Option α × BigEndianReader)) : Prop :=
  ∃ after, run = .ok (none, after) ∧ after.Near

section Composition

variable {α β : Type} {run : Except Stop (Option α × BigEndianReader)}
  {read : Option (α × BigEndianReader)}
  {next : Option α × BigEndianReader → Except Stop (Option β × BigEndianReader)}

theorem Reads.bind {behind : α × BigEndianReader → Option (β × BigEndianReader)}
    (first : Reads run read)
    (found : ∀ value after, after.Near → Reads (next (some value, after)) (behind (value, after)))
    (lost : ∀ after, after.Near → Fails (next (none, after))) :
    Reads (run >>= next) (read >>= behind) := by
  obtain ⟨after, eq, near, same⟩ := first
  subst eq
  cases read with
  | none =>
      obtain ⟨last, eq, near⟩ := lost after near
      exact ⟨last, eq, near, fun _ _ h => by cases h⟩
  | some here =>
      obtain ⟨value, reader⟩ := here
      obtain rfl := same value reader rfl
      exact found value reader near

theorem Fails.bind (first : Reads run read)
    (rest : ∀ value after, after.Near → Fails (next (value, after))) :
    Fails (run >>= next) := by
  obtain ⟨after, eq, near, -⟩ := first
  subst eq
  exact rest _ after near

/-- A conversion of the value read. -/
theorem Reads.map (reads : Reads run read) (f : α → β) :
    Reads (do let (value, reader) ← run; pure (value.map f, reader))
      (read.map fun (value, after) => (f value, after)) := by
  obtain ⟨after, eq, near, same⟩ := reads
  subst eq
  cases read with
  | none => exact ⟨after, rfl, near, fun _ _ h => by cases h⟩
  | some found => exact ⟨after, rfl, near, fun _ _ h => by cases h; exact same _ _ rfl⟩

end Composition

section Near

variable {reader : BigEndianReader} (near : reader.Near)

include near

theorem reads_unsigned {count : Nat} (small : count ≤ 8) :
    Reads (unsigned width reader count) (reader.unsigned count) := by
  obtain ⟨short, position⟩ := near
  have here : width.add reader.position count = reader.position + count :=
    SizeWidth.add_eq (by omega)
  unfold unsigned BigEndianReader.unsigned
  rw [here]
  split
  · exact ⟨reader, rfl, ⟨short, position⟩, fun _ _ h => by cases h⟩
  · rename_i within
    rw [shiftIn_eq (by omega) short]
    refine ⟨_, rfl, ⟨short, ?_⟩, fun _ _ h => by cases h; rfl⟩
    unfold kMaximumTzifRecordBytes at short
    show reader.position + count ≤ 2 ^ 20
    omega

theorem reads_u32 : Reads (u32 width reader) reader.u32 :=
  reads_unsigned near (by decide)

theorem reads_i64 : Reads (i64 width reader) reader.i64 :=
  (@reads_unsigned width reader near 8 (by decide)).map fun value => value.toInt64

theorem reads_i32 : Reads (i32 width reader) reader.i32 :=
  (@reads_u32 width reader near).map fun raw => raw.toUInt32.toInt32

theorem reads_u8 : Reads (u8 width reader) reader.u8 :=
  (@reads_unsigned width reader near 1 (by decide)).map fun value => value.toUInt8

theorem reads_readCounts : Reads (readCounts width reader) (DawnDock.readCounts reader) := by
  apply (reads_u32 near).bind
  · intro isut after near
    apply (reads_u32 near).bind
    · intro isstd after near
      apply (reads_u32 near).bind
      · intro leap after near
        apply (reads_u32 near).bind
        · intro time after near
          apply (reads_u32 near).bind
          · intro type after near
            apply (reads_u32 near).bind
            · intro character after near
              exact ⟨after, rfl, near, fun _ _ h => by cases h; rfl⟩
            · exact fun after near => ⟨after, rfl, near⟩
          · intro after near
            apply Fails.bind (reads_u32 near)
            exact fun _ after near => ⟨after, rfl, near⟩
        · intro after near
          iterate 2 refine Fails.bind (reads_u32 near) fun _ _ near => ?_
          exact ⟨_, rfl, near⟩
      · intro after near
        iterate 3 refine Fails.bind (reads_u32 near) fun _ _ near => ?_
        exact ⟨_, rfl, near⟩
    · intro after near
      iterate 4 refine Fails.bind (reads_u32 near) fun _ _ near => ?_
      exact ⟨_, rfl, near⟩
  · intro after near
    iterate 5 refine Fails.bind (reads_u32 near) fun _ _ near => ?_
    exact ⟨_, rfl, near⟩

end Near

/-! ### Tables -/

/-- A stop of the source's own. -/
def lift {α : Type} (result : Except TzifParseIssue α) : Except Stop α :=
  result.mapError Stop.issue

theorem lift_bind {α β : Type} {run : Except Stop α} {result : Except TzifParseIssue α}
    {next : α → Except Stop β} {rest : α → Except TzifParseIssue β} (first : run = lift result)
    (behind : ∀ value, result = .ok value → next value = lift (rest value)) :
    run >>= next = lift (result >>= rest) := by
  subst first
  cases result with
  | error issue => rfl
  | ok value => exact behind value rfl

/-- The entry is read in range and as before. -/
def EntryReads {α : Type}
    (sized : Nat → List α → BigEndianReader → Except Stop (α × BigEndianReader))
    (entry : Nat → List α → BigEndianReader → Except TzifParseIssue (α × BigEndianReader)) :
    Prop :=
  ∀ i entries reader, reader.Near → sized i entries reader = lift (entry i entries reader) ∧
    ∀ value after, entry i entries reader = .ok (value, after) → after.Near

theorem transitionTime_reads (zoneName : Text) :
    EntryReads (transitionTime width zoneName) (DawnDock.transitionTime zoneName) := by
  intro i times reader near
  obtain ⟨after, eq, near, same⟩ := @reads_i64 width _ near
  unfold transitionTime DawnDock.transitionTime
  rw [eq]
  cases read : reader.i64 with
  | none => exact ⟨rfl, fun _ _ h => by cases h⟩
  | some found =>
      obtain ⟨value, behind⟩ := found
      obtain rfl := same value behind read
      dsimp only [bind, Except.bind, Option.map]
      split
      · exact ⟨rfl, fun _ _ h => by cases h⟩
      · exact ⟨rfl, fun _ _ h => by cases h; exact near⟩

theorem typeIndex_reads (zoneName : Text) (typeCount : Nat) :
    EntryReads (typeIndex width zoneName typeCount) (DawnDock.typeIndex zoneName typeCount) := by
  intro i indices reader near
  obtain ⟨after, eq, near, same⟩ := @reads_u8 width _ near
  unfold typeIndex DawnDock.typeIndex
  rw [eq]
  cases read : reader.u8 with
  | none => exact ⟨rfl, fun _ _ h => by cases h⟩
  | some found =>
      obtain ⟨index, behind⟩ := found
      obtain rfl := same index behind read
      dsimp only [bind, Except.bind, Option.map]
      split
      · exact ⟨rfl, fun _ _ h => by cases h⟩
      · exact ⟨rfl, fun _ _ h => by cases h; exact near⟩

theorem localTimeType_reads (zoneName : Text) :
    EntryReads (localTimeType width zoneName) (DawnDock.localTimeType zoneName) := by
  intro i types reader near
  obtain ⟨first, gmtoff_eq, near, same⟩ := @reads_i32 width _ near
  obtain ⟨second, isdst_eq, near, same_second⟩ := @reads_u8 width _ near
  obtain ⟨third, abbrind_eq, near, same_third⟩ := @reads_u8 width _ near
  unfold localTimeType DawnDock.localTimeType skipDesignation
  rw [Collect.bind_eq gmtoff_eq <| Collect.bind_eq isdst_eq <| Collect.bind_eq abbrind_eq rfl]
  cases read : reader.i32 with
  | none => exact ⟨rfl, fun _ _ h => by cases h⟩
  | some found =>
      obtain ⟨gmtoff, behind⟩ := found
      obtain rfl := same gmtoff behind read
      cases read_isdst : behind.u8 with
      | none =>
          dsimp only
          rw [read_isdst]
          exact ⟨rfl, fun _ _ h => by cases h⟩
      | some found =>
          obtain ⟨isdst, later⟩ := found
          obtain rfl := same_second isdst later read_isdst
          cases read_abbrind : later.u8 with
          | none =>
              simp only [read_isdst, read_abbrind, Option.bind_eq_bind, Option.bind_some,
                Option.bind_none]
              exact ⟨rfl, fun _ _ h => by cases h⟩
          | some found =>
              obtain ⟨abbrind, last⟩ := found
              obtain rfl := same_third abbrind last read_abbrind
              simp only [read_isdst, read_abbrind, Option.bind_eq_bind, Option.bind_some,
                Option.pure_def, Option.map_some]
              split
              · exact ⟨rfl, fun _ _ h => by cases h⟩
              · exact ⟨rfl, fun _ _ h => by cases h; exact near⟩

theorem readTable_reads {α : Type}
    {sized : Nat → List α → BigEndianReader → Except Stop (α × BigEndianReader)}
    {entry : Nat → List α → BigEndianReader → Except TzifParseIssue (α × BigEndianReader)}
    (reads : EntryReads sized entry) (remaining : Nat) (entries : List α)
    (reader : BigEndianReader) (near : reader.Near) :
    readTable sized remaining entries reader =
        lift (DawnDock.readTable entry remaining entries reader) ∧
      ∀ all after, DawnDock.readTable entry remaining entries reader = .ok (all, after) →
        after.Near := by
  induction remaining generalizing entries reader with
  | zero => exact ⟨rfl, fun _ _ h => by cases h; exact near⟩
  | succ remaining ih =>
      obtain ⟨eq, stays⟩ := reads entries.length entries reader near
      unfold readTable DawnDock.readTable
      rw [eq]
      cases read : entry entries.length entries reader with
      | error issue => exact ⟨rfl, fun _ _ h => by cases h⟩
      | ok found => exact ih (entries ++ [found.1]) found.2 (stays found.1 found.2 read)

theorem readTables_eq (zoneName : Text) (counts : Counts) {reader : BigEndianReader}
    (near : reader.Near) :
    readTables width zoneName counts reader =
      lift (DawnDock.readTables zoneName counts reader) := by
  have times := readTable_reads (@transitionTime_reads width zoneName) counts.time []
  have indices := readTable_reads (@typeIndex_reads width zoneName counts.type)
    counts.time []
  have types := readTable_reads (@localTimeType_reads width zoneName) counts.type []
  apply lift_bind (times _ near).1
  intro found read
  have near := (times _ near).2 _ _ read
  apply lift_bind (indices _ near).1
  intro found read
  have near := (indices _ near).2 _ _ read
  apply lift_bind (types _ near).1
  exact fun _ _ => rfl

/-! ### The emitting loop -/

/-- Every index of the loop is in its table. -/
structure InRange (tables : ZoneTables) : Prop where
  indices : tables.typeIndices.length = tables.times.length
  known : ∀ index ∈ tables.typeIndices, index.toNat < tables.types.length
  types : tables.types ≠ []

theorem emitTransitions_eq {tables : ZoneTables} (inRange : InRange tables)
    (runningOffset : Int32) {start count : Nat} (all : start + count = tables.times.length) :
    emitTransitions tables runningOffset (List.range' start count) =
      .ok (DawnDock.emitTransitions runningOffset (tables.steps.drop start)) := by
  have length : tables.steps.length = tables.times.length := by
    simp [ZoneTables.steps, inRange.indices]
  induction count generalizing start runningOffset with
  | zero =>
      rw [List.drop_eq_nil_of_le (by omega)]
      rfl
  | succ count ih =>
      have lt : start < tables.times.length := by omega
      have index_lt : start < tables.typeIndices.length := by
        rw [inRange.indices]
        exact lt
      have known := inRange.known _ (List.getElem_mem index_lt)
      have step : tables.steps.drop start = (tables.times[start],
          tables.types[tables.typeIndices[start].toNat]) :: tables.steps.drop (start + 1) := by
        rw [List.drop_eq_getElem_cons (by omega)]
        simp [ZoneTables.steps, known]
      rw [List.range'_succ, step, emitTransitions]
      apply Collect.bind_eq (entryAt_eq index_lt)
      apply Collect.bind_eq (entryAt_eq known)
      apply Collect.bind_eq (entryAt_eq lt)
      unfold DawnDock.emitTransitions
      split
      · rfl
      · split
        · exact ih runningOffset (by omega)
        · exact Collect.bind_eq (ih _ (by omega)) rfl

theorem parsedZone_eq {tables : ZoneTables} (inRange : InRange tables) (zoneName : Text) :
    parsedZone zoneName tables = .ok (DawnDock.parsedZone zoneName tables) := by
  have pos := List.length_pos_of_ne_nil inRange.types
  have first : tables.types[0] = tables.initialOffset := by
    rw [ZoneTables.initialOffset, List.headD_eq_head?_getD, List.head?_eq_getElem?,
      List.getElem?_eq_getElem pos]
    rfl
  apply Collect.bind_eq (entryAt_eq pos)
  rw [first, List.range_eq_range']
  exact Collect.bind_eq (emitTransitions_eq inRange _ (Nat.zero_add _)) rfl

/-! ### The headers -/

theorem magic_eq {data : Bytes} {offset : Nat} (within : offset + 4 ≤ data.length) :
    (data.drop offset).take 4 =
      [data[offset], data[offset + 1], data[offset + 2], data[offset + 3]] := by
  rw [List.drop_eq_getElem_cons (by omega), List.drop_eq_getElem_cons (by omega),
    List.drop_eq_getElem_cons (by omega), List.drop_eq_getElem_cons (by omega)]
  rfl

/-- Where the end of the magic does not wrap around, it is compared in range. -/
theorem hasTzifMagic_eq {data : Bytes} {offset : Nat} (lt : offset + 4 < width.modulus) :
    hasTzifMagic width data offset = .ok (DawnDock.hasTzifMagic data offset) := by
  unfold hasTzifMagic DawnDock.hasTzifMagic
  rw [SizeWidth.add_of_lt lt]
  by_cases within : offset + 4 ≤ data.length
  · rw [if_neg (by omega), SizeWidth.add_of_lt (by omega), SizeWidth.add_of_lt (by omega),
      SizeWidth.add_of_lt (by omega), magic_eq within, decide_eq_true within, Bool.true_and]
    apply Collect.bind_eq (entryAt_eq (by omega))
    apply Collect.bind_eq (entryAt_eq (by omega))
    apply Collect.bind_eq (entryAt_eq (by omega))
    exact Collect.bind_eq (entryAt_eq (by omega)) rfl
  · rw [if_pos (by omega), decide_eq_false within, Bool.false_and]
    rfl

/-- The fields of a header are 32-bit. -/
structure Small (counts : Tzif.Counts) : Prop where
  isut : counts.isut < 2 ^ 32
  isstd : counts.isstd < 2 ^ 32
  leap : counts.leap < 2 ^ 32
  time : counts.time < 2 ^ 32
  type : counts.type < 2 ^ 32
  char : counts.char < 2 ^ 32

theorem small_countsAt (data : Bytes) (start : Nat) : Small (Tzif.countsAt data start) where
  isut := unsignedField_lt data _ 4
  isstd := unsignedField_lt data _ 4
  leap := unsignedField_lt data _ 4
  time := unsignedField_lt data _ 4
  type := unsignedField_lt data _ 4
  char := unsignedField_lt data _ 4

theorem blockTotal_eq (counts : Counts) (versionOne : Bool) :
    kHeaderBytes + counts.time * (if versionOne then 4 else 8) + counts.time + counts.type * 6 +
        counts.character + counts.leap * (if versionOne then 8 else 12) + counts.isstd +
        counts.isut =
      44 + counts.described.dataLength (if versionOne then 4 else 8) := by
  cases versionOne <;>
    simp only [kHeaderBytes, Tzif.Counts.dataLength, Counts.described, if_true,
      Bool.false_eq_true, if_false] <;> omega

theorem dataLength_lt {counts : Tzif.Counts} (small : Small counts) (versionOne : Bool) :
    44 + counts.dataLength (if versionOne then 4 else 8) < 2 ^ 40 := by
  obtain ⟨isut, isstd, leap, time, type, char⟩ := small
  cases versionOne <;>
    simp only [Tzif.Counts.dataLength, if_true, Bool.false_eq_true, if_false] <;> omega

section Length

variable {counts : Counts} (small : Small counts.described) (versionOne : Bool)

include small

theorem blockByteLength_eq :
    blockByteLength width counts versionOne =
      if 44 + counts.described.dataLength (if versionOne then 4 else 8) ≤ width.modulus - 1 then
        some (44 + counts.described.dataLength (if versionOne then 4 else 8))
      else none := by
  have lt := dataLength_lt small versionOne
  simp only [blockByteLength, blockTotal_eq, fitsSize, decide_eq_true_eq]
  rw [Nat.mod_eq_of_lt (by omega)]

theorem blockByteLength_some :
    DawnDock.blockByteLength counts versionOne =
      some (44 + counts.described.dataLength (if versionOne then 4 else 8)) := by
  have lt := dataLength_lt small versionOne
  simp only [DawnDock.blockByteLength, blockTotal_eq, DawnDock.fitsSize,
    DawnDock.fitsSize.uint64Limit, decide_eq_true_eq]
  exact if_pos (by omega)

/-- A block that does not fit a `size_t` does not fit the record either. -/
theorem blockLength_cut {rest : Nat} (lt : rest < 2 ^ 31) :
    (blockByteLength width counts false).all (· > rest) =
      (DawnDock.blockByteLength counts false).all (· > rest) := by
  have := width.le_modulus
  rw [blockByteLength_eq small, blockByteLength_some small]
  generalize 44 + counts.described.dataLength (if false then 4 else 8) = length
  by_cases fits : length ≤ width.modulus - 1
  · rw [if_pos fits]
  · rw [if_neg fits]
    exact (decide_eq_true (by omega)).symm

end Length

/-- The first header has all its counts. -/
theorem readCounts_isSome (data : Bytes) :
    (DawnDock.readCounts { data, position := 20 }).isSome ↔ 44 ≤ data.length := by
  constructor
  · intro h
    obtain ⟨⟨counts, after⟩, h⟩ := Option.isSome_iff_exists.mp h
    simp only [DawnDock.readCounts, BigEndianReader.u32, Option.bind_eq_bind,
      Option.bind_eq_some_iff] at h
    obtain ⟨⟨isut, _⟩, h0, ⟨isstd, _⟩, h1, ⟨leap, _⟩, h2, ⟨time, _⟩, h3, ⟨type, _⟩, h4,
      ⟨character, _⟩, h5, last⟩ := h
    obtain ⟨-, rfl⟩ := of_unsigned (by decide) h0
    obtain ⟨-, rfl⟩ := of_unsigned (by decide) h1
    obtain ⟨-, rfl⟩ := of_unsigned (by decide) h2
    obtain ⟨-, rfl⟩ := of_unsigned (by decide) h3
    obtain ⟨-, rfl⟩ := of_unsigned (by decide) h4
    unfold BigEndianReader.unsigned at h5
    split at h5
    · cases h5
    · rename_i within
      simp only [advance_position, advance_data] at within
      omega
  · intro le
    simp (disch := omega) [DawnDock.readCounts, BigEndianReader.u32, BigEndianReader.unsigned,
      if_neg]

end Sized

/-- The version-1 block reaches the last four addresses of a 32-bit `size_t`: the record
passes every check before the block is skipped, and the sum of the block's end with the
length of the magic wraps around. -/
structure SkipWraps (width : SizeWidth) (zoneName : Text) (data : Bytes) : Prop where
  width : width = .bits32
  zoneName : 0 < zoneName.length ∧ zoneName.length ≤ kMaximumZoneNameBytes
  short : data.length ≤ kMaximumTzifRecordBytes
  magic : hasTzifMagic data 0 = true
  header : 44 ≤ data.length
  start : 2 ^ 32 - 4 ≤ Tzif.version2Start data ∧ Tzif.version2Start data < 2 ^ 32

namespace Sized

variable {width : SizeWidth} {zoneName : Text} {data : Bytes}

/-- The comparison of the magic at one of the last addresses. -/
theorem magic_at_the_end {start : Nat} (range : 2 ^ 32 - 5 ≤ start ∧ start < 2 ^ 32)
    (short : data.length ≤ kMaximumTzifRecordBytes) (header : 44 ≤ data.length) :
    (if SizeWidth.bits32.add start 5 > data.length then pure false
      else hasTzifMagic .bits32 data start) =
      if 2 ^ 32 - 4 ≤ start then .error (.outOfRange start) else .ok false := by
  unfold kMaximumTzifRecordBytes at short
  have wrapped : SizeWidth.bits32.add start 5 = start + 5 - 2 ^ 32 := by
    rw [SizeWidth.add, modulus_bits32]
    omega
  rw [wrapped, if_neg (by omega), hasTzifMagic]
  by_cases last : 2 ^ 32 - 4 ≤ start
  · have magic_wrapped : SizeWidth.bits32.add start 4 = start + 4 - 2 ^ 32 := by
      rw [SizeWidth.add, modulus_bits32]
      omega
    have outside : entryAt data start = .error (.outOfRange start) := by
      unfold entryAt
      rw [List.getElem?_eq_none (by omega)]
    rw [magic_wrapped, if_neg (by omega), if_pos last, outside]
    rfl
  · have kept : SizeWidth.bits32.add start 4 = start + 4 :=
      SizeWidth.add_of_lt (by rw [modulus_bits32]; omega)
    rw [kept, if_pos (by omega), if_neg last]
    rfl

/-- The second header with unbounded sizes, as `Adapter` reads it. -/
def unboundedHeader (zoneName : Text) (data : Bytes) (start : Nat) :
    Except TzifParseIssue (Counts × BigEndianReader) :=
  if start + 5 > data.length || !DawnDock.hasTzifMagic data start then
    .error (issueFor zoneName .unsupportedVersion)
  else if data[start + 4]? != some 0x32 && data[start + 4]? != some 0x33 then
    .error (issueFor zoneName .unsupportedVersion)
  else if data.length < kHeaderBytes || start > data.length - kHeaderBytes then
    .error (issueFor zoneName .truncated)
  else
    match DawnDock.readCounts { data, position := start + 20 } with
    | none => .error (issueFor zoneName .truncated)
    | some (counts, reader) =>
      if counts.time > kMaximumTzifTransitions || counts.type > kMaximumTzifTypes ||
          counts.character > kMaximumTzifDesignationBytes then
        .error (issueFor zoneName .excessiveCounts)
      else if counts.type == 0 then .error (issueFor zoneName .emptyLocalTimeTable)
      else if (DawnDock.blockByteLength counts false).all (· > data.length - start) then
        .error (issueFor zoneName .truncated)
      else .ok (counts, reader)

/-- Behind a version-1 block whose end is found without wrapping, the second header is
read in range and as before. -/
theorem secondHeader_eq {start : Nat} (room : start + 5 < width.modulus)
    (short : data.length ≤ kMaximumTzifRecordBytes) (block : 44 ≤ start) :
    secondHeader width zoneName data start = lift (unboundedHeader zoneName data start) := by
  unfold secondHeader unboundedHeader
  rw [SizeWidth.add_of_lt room, hasTzifMagic_eq (by omega)]
  by_cases beyond : start + 5 > data.length
  · rw [if_pos beyond, decide_eq_true beyond, Bool.true_or, if_pos rfl]
    rfl
  rw [if_neg beyond, decide_eq_false beyond, Bool.false_or, Collect.ok_bind]
  cases DawnDock.hasTzifMagic data start with
  | false => rfl
  | true =>
      unfold kMaximumTzifRecordBytes at short
      have lt : start + 4 < data.length := by omega
      have version_eq : width.add start 4 = start + 4 := SizeWidth.add_eq (by omega)
      have rest_eq : width.sub data.length kHeaderBytes = data.length - kHeaderBytes :=
        SizeWidth.sub_eq (by unfold kHeaderBytes; omega) (by omega)
      have counts_eq : width.add start 20 = start + 20 := SizeWidth.add_eq (by omega)
      have behind_eq : width.sub data.length start = data.length - start :=
        SizeWidth.sub_eq (by omega) (by omega)
      have some_ne : ∀ version : UInt8,
          (some data[start + 4] != some version) = (data[start + 4] != version) := fun version => by
        simp [bne]
      have at_least : decide (data.length < kHeaderBytes) = false :=
        decide_eq_false (by unfold kHeaderBytes; omega)
      rw [version_eq, entryAt_eq lt, rest_eq, counts_eq, behind_eq, List.getElem?_eq_getElem lt,
        some_ne, some_ne, at_least, Bool.false_or, if_neg (by decide : ¬ (!true) = true),
        if_neg (by decide : ¬ (!true) = true), Collect.ok_bind]
      by_cases version : (data[start + 4] != 0x32 && data[start + 4] != 0x33) = true
      · rw [if_pos version, if_pos version]
        rfl
      rw [if_neg version, if_neg version]
      by_cases cut : start > data.length - kHeaderBytes
      · rw [if_pos cut, if_pos (decide_eq_true cut)]
        rfl
      rw [if_neg cut, if_neg (by rwa [decide_eq_true_eq])]
      have near : BigEndianReader.Near { data, position := start + 20 } :=
        ⟨short, (by omega : start + 20 ≤ 2 ^ 20)⟩
      obtain ⟨after, run, near, same⟩ := @reads_readCounts width _ near
      rw [run, Collect.ok_bind]
      cases header : DawnDock.readCounts { data, position := start + 20 } with
      | none => rfl
      | some found =>
          obtain ⟨counts, behind⟩ := found
          obtain rfl := same counts behind header
          have small : Small counts.described := (of_readCounts header).1 ▸ small_countsAt data start
          have cut_eq := @blockLength_cut width _ small (data.length - start)
            (by omega)
          dsimp only [Option.map_some]
          rw [cut_eq]
          split
          · rfl
          · split
            · rfl
            · split <;> rfl

/-- The second header is read as before, or the comparison of its magic wraps around. -/
theorem secondHeader_cases {start : Nat} (fits : start ≤ width.modulus - 1) (near : start < 2 ^ 40)
    (short : data.length ≤ kMaximumTzifRecordBytes) (block : 44 ≤ start)
    (header : 44 ≤ data.length) :
    (¬ (width = .bits32 ∧ 2 ^ 32 - 4 ≤ start ∧ start < 2 ^ 32) ∧
        secondHeader width zoneName data start = lift (unboundedHeader zoneName data start)) ∨
      width = .bits32 ∧ (2 ^ 32 - 4 ≤ start ∧ start < 2 ^ 32) ∧
        secondHeader width zoneName data start = .error (.outOfRange start) := by
  by_cases room : start + 5 < width.modulus
  · refine .inl ⟨?_, secondHeader_eq room short block⟩
    rintro ⟨rfl, last, -⟩
    rw [modulus_bits32] at room
    omega
  cases width with
  | bits64 =>
      rw [modulus_bits64] at room
      omega
  | bits32 =>
      rw [modulus_bits32] at room fits
      have outside : start + 5 > data.length := by
        unfold kMaximumTzifRecordBytes at short
        omega
      rw [secondHeader, magic_at_the_end ⟨by omega, by omega⟩ short header]
      by_cases last : 2 ^ 32 - 4 ≤ start
      · rw [if_pos last]
        exact .inr ⟨rfl, ⟨last, by omega⟩, rfl⟩
      · rw [if_neg last, Collect.ok_bind, if_pos (by decide), unboundedHeader, if_pos]
        · exact .inl ⟨fun wraps => last wraps.2.1, rfl⟩
        · rw [Bool.or_eq_true, decide_eq_true_eq]
          exact .inl outside

theorem secondBlock_cases :
    (¬ SkipWraps width zoneName data ∧
        (secondBlock width zoneName data = lift (DawnDock.secondBlock zoneName data) ∨
          width = .bits32 ∧ secondBlock width zoneName data = reject zoneName .excessiveCounts)) ∨
      SkipWraps width zoneName data ∧
        secondBlock width zoneName data = .error (.outOfRange (Tzif.version2Start data)) := by
  unfold secondBlock DawnDock.secondBlock
  by_cases name : (zoneName.isEmpty || zoneName.length > kMaximumZoneNameBytes) = true
  · rw [if_pos name, if_pos name]
    refine .inl ⟨fun wraps => ?_, .inl rfl⟩
    obtain ⟨pos, le⟩ := wraps.zoneName
    rw [Bool.or_eq_true, List.isEmpty_iff, decide_eq_true_eq] at name
    rcases name with rfl | long
    · cases pos
    · omega
  rw [if_neg name, if_neg name]
  by_cases long : data.length > kMaximumTzifRecordBytes
  · rw [if_pos long, if_pos long]
    exact .inl ⟨fun wraps => absurd wraps.short (by omega), .inl rfl⟩
  rw [if_neg long, if_neg long]
  have short := Nat.not_lt.mp long
  have zero_magic : 0 + 4 < width.modulus := by
    have := width.le_modulus
    omega
  rw [hasTzifMagic_eq zero_magic]
  cases magic : DawnDock.hasTzifMagic data 0 with
  | false => exact .inl ⟨fun wraps => absurd wraps.magic (by simp [magic]), .inl rfl⟩
  | true =>
      rw [Collect.ok_bind, if_neg (by decide), if_neg (by decide)]
      have near : BigEndianReader.Near { data, position := 20 } := ⟨short, (by decide : 20 ≤ 2 ^ 20)⟩
      obtain ⟨after, run, near, same⟩ := @reads_readCounts width _ near
      rw [run, Collect.ok_bind]
      cases header : DawnDock.readCounts { data, position := 20 } with
      | none =>
          refine .inl ⟨fun wraps => ?_, .inl rfl⟩
          have := (readCounts_isSome data).mpr wraps.header
          rw [header] at this
          cases this
      | some found =>
          have described := (@of_readCounts data 0 found.1 found.2 header).1
          have small : Small found.1.described := described ▸ small_countsAt data 0
          have start : 44 + found.1.described.dataLength 4 = Tzif.version2Start data := by
            rw [described]
            rfl
          have length := (readCounts_isSome data).mp (by rw [header]; rfl)
          dsimp only [Option.map_some]
          rw [blockByteLength_eq small, blockByteLength_some small, if_pos rfl, start]
          have start_lt : Tzif.version2Start data < 2 ^ 40 := start ▸ dataLength_lt small true
          by_cases fits : Tzif.version2Start data ≤ width.modulus - 1
          · rw [if_pos fits]
            dsimp only
            have block : 44 ≤ Tzif.version2Start data := by
              rw [← start]
              omega
            rcases @secondHeader_cases width zoneName data _ fits start_lt short block length with
              ⟨before, read⟩ | ⟨narrow, range, stopped⟩
            · exact .inl ⟨fun wraps => before ⟨wraps.width, wraps.start⟩, .inl read⟩
            · refine .inr ⟨⟨narrow, ?_, short, magic, length, range⟩, stopped⟩
              rw [Bool.or_eq_true, List.isEmpty_iff, decide_eq_true_eq, not_or] at name
              exact ⟨List.length_pos_of_ne_nil name.1, Nat.not_lt.mp name.2⟩
          · rw [if_neg fits]
            cases width with
            | bits64 =>
                rw [modulus_bits64] at fits
                omega
            | bits32 =>
                refine .inl ⟨fun wraps => fits ?_, .inr ⟨rfl, rfl⟩⟩
                exact Nat.le_sub_one_of_lt wraps.start.2

theorem near_of_secondBlock {counts : Counts} {reader : BigEndianReader}
    (h : DawnDock.secondBlock zoneName data = .ok (counts, reader)) : reader.Near := by
  obtain ⟨-, behind, -⟩ := of_secondBlock h
  unfold DawnDock.secondBlock at h
  split at h
  · cases h
  split at h
  · cases h
  rename_i short
  split at h
  · cases h
  split at h
  · cases h
  rename_i header
  split at h
  · cases h
  rename_i length
  split at h
  · cases h
  rename_i room
  rw [Bool.or_eq_true, decide_eq_true_eq, not_or] at room
  unfold kMaximumTzifRecordBytes at short
  rw [of_blockByteLength length, (@of_readCounts data 0 _ _ header).1] at room
  have start : 44 + (Tzif.countsAt data 0).dataLength 4 + 5 ≤ data.length := Nat.not_lt.mp room.1
  rw [behind]
  refine ⟨Nat.not_lt.mp short, ?_⟩
  show 44 + (Tzif.countsAt data 0).dataLength 4 + 44 ≤ 2 ^ 20
  omega

theorem inRange_of_describes {tables : ZoneTables} (describes : tables.Describes data) :
    InRange tables := by
  have times := congrArg List.length describes.times
  have indices := congrArg List.length describes.typeIndices
  have types := congrArg List.length describes.types
  simp only [List.length_map, List.length_range] at times indices types
  refine ⟨by rw [indices, times], ?_, ?_⟩
  · rw [types]
    exact describes.known
  · intro empty
    rw [empty] at types
    exact describes.someType types.symm

/-- Behind the headers nothing is read out of range. -/
theorem parseRecord_eq (block : secondBlock width zoneName data =
    lift (DawnDock.secondBlock zoneName data)) :
    parseRecord width zoneName data = lift (DawnDock.parseRecord zoneName data) := by
  apply lift_bind block
  intro found headers
  apply lift_bind (readTables_eq zoneName found.1 (near_of_secondBlock headers))
  intro tables read
  have describes := (readTables_describes headers read).1
  exact parsedZone_eq (inRange_of_describes describes) zoneName

theorem parseTzifZone_eq (block : secondBlock width zoneName data =
    lift (DawnDock.secondBlock zoneName data)) :
    parseTzifZone width zoneName data = .ok (DawnDock.parseTzifZone zoneName data) := by
  unfold parseTzifZone DawnDock.parseTzifZone
  rw [parseRecord_eq block]
  cases DawnDock.parseRecord zoneName data <;> rfl

end Sized

section Parser

variable (zoneName : Text) (data : Bytes)

/-- With 64-bit sizes the parser is the one of `Adapter`, which takes sizes as unbounded. -/
theorem parseTzifZone_bits64 :
    Sized.parseTzifZone .bits64 zoneName data = .ok (parseTzifZone zoneName data) := by
  apply Sized.parseTzifZone_eq
  obtain ⟨-, same | ⟨narrow, -⟩⟩ | ⟨wraps, -⟩ :=
    @Sized.secondBlock_cases .bits64 zoneName data
  · exact same
  · cases narrow
  · cases wraps.width

/-- Every read of `parse_tzif_zone` is in range unless skipping the version-1 block wraps
around. -/
theorem reads_in_range_iff (width : SizeWidth) :
    (∀ index, Sized.parseTzifZone width zoneName data ≠ .error index) ↔
      ¬ SkipWraps width zoneName data := by
  obtain ⟨kept, same | ⟨-, excessive⟩⟩ | ⟨wraps, outside⟩ :=
    @Sized.secondBlock_cases width zoneName data
  · refine iff_of_true (fun index failed => ?_) kept
    rw [Sized.parseTzifZone_eq same] at failed
    cases failed
  · refine iff_of_true (fun index failed => ?_) kept
    unfold Sized.parseTzifZone Sized.parseRecord at failed
    rw [excessive] at failed
    cases failed
  · refine iff_of_false (fun inside => inside (Tzif.version2Start data) ?_) (not_not.mpr wraps)
    unfold Sized.parseTzifZone Sized.parseRecord
    rw [outside]
    rfl

end Parser

/-- A header alone, whose designation bytes fill 32 bits. -/
def wrappingRecord : Bytes :=
  [0x54, 0x5a, 0x69, 0x66, 0x32] ++ List.replicate 35 0 ++ [0xff, 0xff, 0xff, 0xd0]

theorem wrappingRecord_read_outside :
    Sized.parseTzifZone .bits32 [0x41] wrappingRecord = .error 4294967292 ∧
      Sized.parseTzifZone .bits64 [0x41] wrappingRecord =
        .ok (issueFor [0x41] .unsupportedVersion, {}) := by
  decide

end DawnDock
