import DawnDock.Library.ByteCodec
import DawnDock.Recurrence.Resolver

/-!
The TZif adapter (`tzif_rules.cpp`): `parse_tzif_zone` turns one record into a chain
of offset transitions, `build_pinned_timezone_rules` assembles the rule sets of one
window.

Sizes are 64 bits wide; the 32-bit counts keep every sum far below that.
-/

namespace DawnDock

open ByteCodec

def kHeaderBytes : Nat := 44
def kMaximumZoneNameBytes : Nat := 64
def kMaximumTzifRecordBytes : Nat := 8192
def kMaximumTzifTransitions : Nat := 250
def kMaximumTzifTypes : Nat := 128
def kMaximumTzifDesignationBytes : Nat := 1024
def kTzifTailCutoffUtcSeconds : Int64 := 2147483647

inductive TzifParseStatus where
  | ok | invalidZoneName | truncated | badMagic | unsupportedVersion | excessiveCounts
  | badLocalTimeType | badTransitionOrder | emptyLocalTimeTable
deriving DecidableEq, Repr

structure TzifParseIssue where
  zoneName : Text
  status : TzifParseStatus
  detailIndex : Nat := 0
deriving DecidableEq, Repr

structure ParsedTzifZone where
  zoneName : Text := []
  initialUtcOffsetSeconds : Int32 := 0
  transitions : List UtcOffsetTransition := []
  sourceTransitionCount : Nat := 0
  emittedTransitionCount : Nat := 0
  truncatedAtCutoff : Bool := false
deriving DecidableEq, Repr

def issueFor (zoneName : Text) (status : TzifParseStatus) (detail : Nat := 0) : TzifParseIssue :=
  { zoneName, status, detailIndex := detail }

/-! ### Reading -/

structure BigEndianReader where
  data : Bytes
  position : Nat

/-- The loop all the integer readers share. -/
def shiftIn (bytes : Bytes) : UInt64 :=
  bytes.foldl (fun value byte => value <<< 8 ||| byte.toUInt64) 0

/-- `count` bytes shifted together, and the reader behind them. -/
def BigEndianReader.unsigned (reader : BigEndianReader) (count : Nat) :
    Option (UInt64 × BigEndianReader) :=
  if reader.position + count > reader.data.length then none
  else
    some (shiftIn ((reader.data.drop reader.position).take count),
      { reader with position := reader.position + count })

def BigEndianReader.u32 (reader : BigEndianReader) : Option (UInt64 × BigEndianReader) :=
  reader.unsigned 4

def BigEndianReader.i64 (reader : BigEndianReader) : Option (Int64 × BigEndianReader) :=
  (reader.unsigned 8).map fun (value, after) => (value.toInt64, after)

def BigEndianReader.i32 (reader : BigEndianReader) : Option (Int32 × BigEndianReader) :=
  reader.u32.map fun (raw, after) => (raw.toUInt32.toInt32, after)

def BigEndianReader.u8 (reader : BigEndianReader) : Option (UInt8 × BigEndianReader) :=
  (reader.unsigned 1).map fun (value, after) => (value.toUInt8, after)

def hasTzifMagic (data : Bytes) (offset : Nat) : Bool :=
  offset + 4 ≤ data.length && (data.drop offset).take 4 == [0x54, 0x5a, 0x69, 0x66]

structure Counts where
  isut : Nat
  isstd : Nat
  leap : Nat
  time : Nat
  type : Nat
  character : Nat
deriving DecidableEq

def readCounts (reader : BigEndianReader) : Option (Counts × BigEndianReader) := do
  let (isut, reader) ← reader.u32
  let (isstd, reader) ← reader.u32
  let (leap, reader) ← reader.u32
  let (time, reader) ← reader.u32
  let (type, reader) ← reader.u32
  let (character, reader) ← reader.u32
  return ({ isut := isut.toNat, isstd := isstd.toNat, leap := leap.toNat, time := time.toNat,
            type := type.toNat, character := character.toNat }, reader)

def fitsSize (value : Nat) : Bool := value ≤ uint64Limit
where uint64Limit : Nat := 2 ^ 64 - 1

/-- v1 blocks store 32-bit transition times and 4-byte leap pairs. -/
def blockByteLength (counts : Counts) (versionOne : Bool) : Option Nat :=
  let timeSize := if versionOne then 4 else 8
  let leapSize := if versionOne then 8 else 12
  let total := kHeaderBytes + counts.time * timeSize + counts.time + counts.type * 6 +
    counts.character + counts.leap * leapSize + counts.isstd + counts.isut
  if fitsSize total then some total else none

def validOffset (offset : Int32) : Bool :=
  offset.toInt64 ≥ -kSecondsPerDay && offset.toInt64 ≤ kSecondsPerDay

/-! ### One record -/

/-- The checks in front of the tables: the counts of the version-2 block and a reader
that stands behind its header. -/
def secondBlock (zoneName : Text) (data : Bytes) :
    Except TzifParseIssue (Counts × BigEndianReader) :=
  if zoneName.isEmpty || zoneName.length > kMaximumZoneNameBytes then
    .error (issueFor zoneName .invalidZoneName zoneName.length)
  else if data.length > kMaximumTzifRecordBytes then
    .error (issueFor zoneName .excessiveCounts data.length)
  else if !hasTzifMagic data 0 then .error (issueFor zoneName .badMagic)
  else
    match readCounts { data, position := 20 } with
    | none => .error (issueFor zoneName .truncated)
    | some (firstCounts, _) =>
      match blockByteLength firstCounts true with
      | none => .error (issueFor zoneName .excessiveCounts)
      | some secondStart =>
        if secondStart + 5 > data.length || !hasTzifMagic data secondStart then
          .error (issueFor zoneName .unsupportedVersion)
        else if data[secondStart + 4]? != some 0x32 && data[secondStart + 4]? != some 0x33 then
          .error (issueFor zoneName .unsupportedVersion)
        else if data.length < kHeaderBytes || secondStart > data.length - kHeaderBytes then
          -- the source subtracts without the first test; the version-1 block it has just
          -- skipped is a header long at least
          .error (issueFor zoneName .truncated)
        else
          match readCounts { data, position := secondStart + 20 } with
          | none => .error (issueFor zoneName .truncated)
          | some (counts, reader) =>
            if counts.time > kMaximumTzifTransitions || counts.type > kMaximumTzifTypes ||
                counts.character > kMaximumTzifDesignationBytes then
              .error (issueFor zoneName .excessiveCounts)
            else if counts.type == 0 then .error (issueFor zoneName .emptyLocalTimeTable)
            else if (blockByteLength counts false).all (· > data.length - secondStart) then
              .error (issueFor zoneName .truncated)
            else .ok (counts, reader)

/-- A `for` loop that reads one entry after another: `entry` sees the index, the
entries so far and the reader. -/
def readTable {α : Type} (entry : Nat → List α → BigEndianReader →
      Except TzifParseIssue (α × BigEndianReader)) :
    Nat → List α → BigEndianReader → Except TzifParseIssue (List α × BigEndianReader)
  | 0, entries, reader => .ok (entries, reader)
  | remaining + 1, entries, reader => do
    let (value, reader) ← entry entries.length entries reader
    readTable entry remaining (entries ++ [value]) reader

def transitionTime (zoneName : Text) (i : Nat) (times : List Int64) (reader : BigEndianReader) :
    Except TzifParseIssue (Int64 × BigEndianReader) :=
  match reader.i64 with
  | none => .error (issueFor zoneName .truncated)
  | some (value, reader) =>
    if times.getLast?.any (value ≤ ·) then .error (issueFor zoneName .badTransitionOrder i)
    else .ok (value, reader)

def typeIndex (zoneName : Text) (typeCount : Nat) (i : Nat) (_ : List UInt8)
    (reader : BigEndianReader) : Except TzifParseIssue (UInt8 × BigEndianReader) :=
  match reader.u8 with
  | none => .error (issueFor zoneName .badLocalTimeType i)
  | some (index, reader) =>
    if index.toNat ≥ typeCount then .error (issueFor zoneName .badLocalTimeType i)
    else .ok (index, reader)

/-- The daylight flag and the designation index, both unused. -/
def skipDesignation (reader : BigEndianReader) : Option BigEndianReader := do
  let (_, reader) ← reader.u8
  let (_, reader) ← reader.u8
  return reader

def localTimeType (zoneName : Text) (i : Nat) (_ : List Int32) (reader : BigEndianReader) :
    Except TzifParseIssue (Int32 × BigEndianReader) :=
  match reader.i32 with
  | none => .error (issueFor zoneName .truncated)
  | some (gmtoff, reader) =>
    match skipDesignation reader with
    | none => .error (issueFor zoneName .truncated)
    | some reader =>
      if !validOffset gmtoff then .error (issueFor zoneName .badLocalTimeType i)
      else .ok (gmtoff, reader)

/-- The three tables the adapter reads. -/
structure ZoneTables where
  times : List Int64
  typeIndices : List UInt8
  types : List Int32

def readTables (zoneName : Text) (counts : Counts) (reader : BigEndianReader) :
    Except TzifParseIssue ZoneTables := do
  let (times, reader) ← readTable (transitionTime zoneName) counts.time [] reader
  let (typeIndices, reader) ← readTable (typeIndex zoneName counts.type) counts.time [] reader
  let (types, _) ← readTable (localTimeType zoneName) counts.type [] reader
  return { times, typeIndices, types }

/-- The emitting loop over the times and the offsets they lead to: the transitions, and
whether it stopped at the cutoff. -/
def emitTransitions (runningOffset : Int32) :
    List (Int64 × Int32) → List UtcOffsetTransition × Bool
  | [] => ([], false)
  | (time, afterOffset) :: rest =>
    if time ≥ kTzifTailCutoffUtcSeconds then ([], true)
    else if afterOffset == runningOffset then emitTransitions runningOffset rest
    else
      let (transitions, truncatedAtCutoff) := emitTransitions afterOffset rest
      ({ atUtcSeconds := time, offsetBeforeSeconds := runningOffset,
         offsetAfterSeconds := afterOffset } :: transitions, truncatedAtCutoff)

/-- `types.front()`; the table is not empty here. -/
def ZoneTables.initialOffset (tables : ZoneTables) : Int32 := tables.types.headD 0

def ZoneTables.steps (tables : ZoneTables) : List (Int64 × Int32) :=
  tables.times.zip (tables.typeIndices.map fun index => tables.types.getD index.toNat 0)

/-- `out` after the last check. -/
def parsedZone (zoneName : Text) (tables : ZoneTables) : ParsedTzifZone :=
  let (transitions, truncatedAtCutoff) := emitTransitions tables.initialOffset tables.steps
  { zoneName, initialUtcOffsetSeconds := tables.initialOffset, transitions
    sourceTransitionCount := tables.times.length
    emittedTransitionCount := transitions.length, truncatedAtCutoff }

def parseRecord (zoneName : Text) (data : Bytes) : Except TzifParseIssue ParsedTzifZone := do
  let (counts, reader) ← secondBlock zoneName data
  let tables ← readTables zoneName counts reader
  return parsedZone zoneName tables

/-- The returned issue and what is left in `out`. -/
def parseTzifZone (zoneName : Text) (data : Bytes) : TzifParseIssue × ParsedTzifZone :=
  match parseRecord zoneName data with
  | .error issue => (issue, {})
  | .ok zone => (issueFor zoneName .ok, zone)

/-! ### The pinned rule set -/

structure TzifAdapterConfig where
  version : Text
  fromUtcSeconds : Int64
  untilUtcSeconds : Int64
  maximumTotalTransitions : Nat

structure TzifAdapterResult where
  version : Text
  zones : List TimezoneRules := []
  issues : List TzifParseIssue := []
  totalEmittedTransitions : Nat := 0
  budgetExceeded : Bool := false

/-- The first loop over the window: every transition up to its start is folded into
the offset. -/
def foldBefore (config : TzifAdapterConfig) (running : Int32) : List UtcOffsetTransition → Int32
  | [] => running
  | transition :: rest =>
    if transition.atUtcSeconds > config.fromUtcSeconds then running
    else foldBefore config transition.offsetAfterSeconds rest

/-- The second loop: the transitions inside the window and the new total, or the total
that broke the budget. -/
def emitWindow (config : TzifAdapterConfig) (emitted : List UtcOffsetTransition) (total : Nat) :
    List UtcOffsetTransition → Except Nat (List UtcOffsetTransition × Nat)
  | [] => .ok (emitted, total)
  | transition :: rest =>
    if transition.atUtcSeconds ≤ config.fromUtcSeconds then emitWindow config emitted total rest
    else if transition.atUtcSeconds > config.untilUtcSeconds then .ok (emitted, total)
    else if total + 1 > config.maximumTotalTransitions then .error (total + 1)
    else emitWindow config (emitted ++ [transition]) (total + 1) rest

/-- The variables of the loop over the zones. -/
structure AdapterState where
  prepared : List TimezoneRules := []
  issues : List TzifParseIssue := []
  total : Nat := 0

/-- One zone; on `error` the whole adapter stops with these issues. -/
def adaptZone (config : TzifAdapterConfig) (state : AdapterState) (zone : Text × Bytes) :
    Except (List TzifParseIssue) AdapterState :=
  let parseIssue := (parseTzifZone zone.1 zone.2).1
  let parsed := (parseTzifZone zone.1 zone.2).2
  if parseIssue.status != .ok then .ok { state with issues := state.issues ++ [parseIssue] }
  else
    match emitWindow config [] state.total parsed.transitions with
    | .error total =>
      .error (state.issues ++ [issueFor parsed.zoneName .excessiveCounts total])
    | .ok (transitions, total) =>
      .ok { state with
            prepared := state.prepared ++
              [{ name := parsed.zoneName, version := config.version
                 initialUtcOffsetSeconds :=
                   foldBefore config parsed.initialUtcOffsetSeconds parsed.transitions
                 transitions }]
            total }

/-- `std::sort` by name. It may order rule sets of one name either way; no result here
depends on it. -/
def sortByName (rules : List TimezoneRules) : List TimezoneRules :=
  rules.mergeSort fun left right => !decide (right.name < left.name)

def buildPinnedTimezoneRules (zones : List (Text × Bytes)) (config : TzifAdapterConfig) :
    TzifAdapterResult :=
  match zones.foldlM (adaptZone config) {} with
  | .error issues => { version := config.version, issues, budgetExceeded := true }
  | .ok state =>
    let zones := sortByName state.prepared
    { version := config.version, zones, issues := state.issues
      totalEmittedTransitions := (zones.map (·.transitions.length)).sum }

end DawnDock
