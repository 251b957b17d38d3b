import DawnDock.Library.AtomicProgram
import DawnDock.ScheduleStore.Record

/-!
`AtomicScheduleStore` over two slots (`schedule_store.cpp`).

Each operation runs inside one storage transaction, so it is one atomic step on
the slots: it loads both of them, decides, and in at most one slot write and one
read-back commits. `savePlan`, `saveOccurrenceStatePlan` and
`migrateToCurrentSchemaPlan` are the decisions the three writers make on the
freshly loaded record; `commitRecord` is the end all three share.

The storage backend is an interface in the source. `StorageFaults` is what it
may do to one operation: refuse the transaction, fail a read, drop or tear the
write, report a write as failed, fail the read-back.
-/

namespace DawnDock

open ByteCodec

/-! ### Slots -/

inductive StorageSlot where
  | a | b
deriving DecidableEq, Repr

def opposite : StorageSlot → StorageSlot
  | .a => .b
  | .b => .a

/-- The contents of both slots; `none` is an empty slot. -/
structure Slots where
  a : Option Bytes := none
  b : Option Bytes := none
deriving DecidableEq

def Slots.get (slots : Slots) : StorageSlot → Option Bytes
  | .a => slots.a
  | .b => slots.b

def Slots.set (slots : Slots) (slot : StorageSlot) (bytes : Bytes) : Slots :=
  match slot with
  | .a => { slots with a := some bytes }
  | .b => { slots with b := some bytes }

@[simp] theorem opposite_opposite (slot : StorageSlot) : opposite (opposite slot) = slot := by
  cases slot <;> rfl

@[simp] theorem opposite_ne (slot : StorageSlot) : opposite slot ≠ slot := by
  cases slot <;> simp [opposite]

@[simp] theorem Slots.get_set_self (slots : Slots) (slot : StorageSlot) (bytes : Bytes) :
    (slots.set slot bytes).get slot = some bytes := by
  cases slot <;> rfl

theorem Slots.get_set_of_ne (slots : Slots) {slot other : StorageSlot} (bytes : Bytes)
    (h : other ≠ slot) : (slots.set slot bytes).get other = slots.get other := by
  cases slot <;> cases other <;> first | rfl | exact absurd rfl h

@[simp] theorem Slots.get_opposite_set (slots : Slots) (slot : StorageSlot) (bytes : Bytes) :
    (slots.set (opposite slot) bytes).get slot = slots.get slot :=
  slots.get_set_of_ne bytes (opposite_ne slot).symm

/-! ### Faults -/

/-- Bytes no reader accepts: they neither decode nor pass the intact check of a
later schema. -/
abbrev TornBytes := { bytes : Bytes //
  decodeRecord bytes = none ∧ intactFutureSchemaGeneration bytes = none }

/-- What became of a slot write. -/
inductive WriteEffect where
  | applied
  | dropped
  | torn (left : TornBytes)

def WriteEffect.apply (slots : Slots) (slot : StorageSlot) (bytes : Bytes) : WriteEffect → Slots
  | .applied => slots.set slot bytes
  | .dropped => slots
  | .torn left => slots.set slot left

/-- How the storage treats one operation; the default is healthy storage. -/
structure StorageFaults where
  transactionRefused : Bool := false
  readFails : Bool := false
  write : WriteEffect := .applied
  writeRefused : Bool := false
  readBackFails : Bool := false

/-! ### Results -/

inductive LoadStatus where
  | empty | loaded | corrupt | unsupportedSchema | ambiguous | ioError
deriving DecidableEq, Repr

inductive StoreStatus where
  | stored | unchanged | revisionConflict | generationConflict | invalidSnapshot
  | corruptStore | ioError | verificationFailed
deriving DecidableEq, Repr

/-- The answers that confirm a commit. -/
def StoreStatus.committed (status : StoreStatus) : Bool := status == .stored || status == .unchanged

/-- A compare-and-set that lost. -/
def StoreStatus.isConflict (status : StoreStatus) : Bool :=
  status == .revisionConflict || status == .generationConflict

structure LoadResult where
  status : LoadStatus := .empty
  snapshot : ScheduleSnapshot := {}
  generation : UInt64 := 0
  source : StorageSlot := .a
  migrated : Bool := false
  corruptionDetected : Bool := false
deriving DecidableEq

structure StoreResult where
  status : StoreStatus := .ioError
  generation : UInt64 := 0
  destination : StorageSlot := .a
deriving DecidableEq, Repr

/-! ### Loading -/

/-- What a slot holds, in the order the loader asks. -/
inductive SlotRecord where
  | absent
  | future (generation : UInt64)
  | invalid
  | record (decoded : DecodedRecord)
deriving DecidableEq

def slotRecord : Option Bytes → SlotRecord
  | none => .absent
  | some bytes =>
      match intactFutureSchemaGeneration bytes with
      | some generation => .future generation
      | none =>
          match decodeRecord bytes with
          | none => .invalid
          | some decoded => .record decoded

/-- The local variables of the loading loop. -/
structure LoadScan where
  result : LoadResult := {}
  anyPresent : Bool := false
  invalidPresent : Bool := false
  ambiguous : Bool := false
  futureGeneration : Option UInt64 := none

/-- One turn of the loop over the slots. -/
def LoadScan.step (scan : LoadScan) (slot : StorageSlot) : SlotRecord → LoadScan
  | .absent => scan
  | .future unsupported =>
      if scan.futureGeneration.all (unsupported > ·) then
        { scan with anyPresent := true, futureGeneration := some unsupported }
      else { scan with anyPresent := true }
  | .invalid => { scan with anyPresent := true, invalidPresent := true }
  | .record decoded =>
      let scan := { scan with anyPresent := true }
      if scan.result.status = .loaded ∧ decoded.generation = scan.result.generation ∧
          (decoded.migrated ≠ scan.result.migrated ∨
            decoded.snapshot ≠ scan.result.snapshot) then
        { scan with ambiguous := true }
      else if scan.result.status ≠ .loaded ∨ decoded.generation > scan.result.generation then
        { scan with
          result :=
            { scan.result with
              status := .loaded, snapshot := decoded.snapshot
              generation := decoded.generation, source := slot, migrated := decoded.migrated }
          ambiguous := false }
      else scan

/-- The verdict after both slots. -/
def LoadScan.conclude (scan : LoadScan) : LoadResult :=
  if scan.futureGeneration.any fun future =>
      scan.result.status ≠ .loaded ∨ future ≥ scan.result.generation then
    { status := .unsupportedSchema, generation := scan.futureGeneration.getD 0 }
  else if scan.ambiguous then { scan.result with status := .ambiguous }
  else if scan.result.status = .loaded then
    { scan.result with corruptionDetected := scan.invalidPresent }
  else if scan.anyPresent then { scan.result with status := .corrupt }
  else scan.result

/-- The loop and its verdict, from what the slots hold. -/
def scanRecords (a b : SlotRecord) : LoadResult := ((LoadScan.step {} .a a).step .b b).conclude

/-- The load of two readable slots. -/
def scanSlots (slots : Slots) : LoadResult :=
  scanRecords (slotRecord slots.a) (slotRecord slots.b)

def loadUnlocked (slots : Slots) (faults : StorageFaults) : LoadResult :=
  if faults.readFails then { status := .ioError } else scanSlots slots

def load (slots : Slots) (faults : StorageFaults) : LoadResult :=
  if faults.transactionRefused then { status := .ioError } else loadUnlocked slots faults

/-! ### Writing -/

/-- `std::numeric_limits<std::uint64_t>::max()`. -/
def uint64Max : UInt64 := 0xffffffffffffffff

/-- What a writer decides from the current record: to answer at once, or to
commit a snapshot under the next generation. -/
inductive WritePlan where
  | answer (result : StoreResult)
  | commit (snapshot : ScheduleSnapshot) (destination : StorageSlot)
deriving DecidableEq

/-- Encode, write the destination slot, read it back and verify. -/
def commitRecord (slots : Slots) (faults : StorageFaults) (current : LoadResult)
    (snapshot : ScheduleSnapshot) (destination : StorageSlot)
    (verify : DecodedRecord → Bool) : StoreResult × Slots :=
  let generation := current.generation + 1
  match encodeRecord snapshot generation with
  | none => (⟨.invalidSnapshot, current.generation, destination⟩, slots)
  | some encoded =>
      let written := faults.write.apply slots destination encoded
      if faults.writeRefused || faults.readBackFails then
        (⟨.ioError, current.generation, destination⟩, written)
      else if ((written.get destination).bind decodeRecord).any fun verified =>
          verified.generation == generation && verify verified then
        (⟨.stored, generation, destination⟩, written)
      else (⟨.verificationFailed, current.generation, destination⟩, written)

/-- The statuses every writer refuses before it looks at the record. -/
def unreadableAnswer (status : LoadStatus) : Option StoreResult :=
  match status with
  | .ioError => some { status := .ioError }
  | .corrupt | .unsupportedSchema | .ambiguous => some { status := .corruptStore }
  | .empty | .loaded => none

def migrateToCurrentSchemaPlan (current : LoadResult) : WritePlan :=
  match unreadableAnswer current.status with
  | some answer => .answer answer
  | none =>
      if current.status = .empty ∨ !current.migrated then
        .answer ⟨.unchanged, current.generation, current.source⟩
      else if current.generation = uint64Max then
        .answer ⟨.invalidSnapshot, current.generation, current.source⟩
      else .commit current.snapshot (opposite current.source)

/-- The revision a schedule save is compared with: 0 for an empty store. -/
def currentRevision (current : LoadResult) : UInt64 :=
  if current.status = .loaded then current.snapshot.revision else 0

/-- The snapshot a schedule save commits: the argument, with the stored journal
carried over when a record exists. -/
def committedSnapshot (current : LoadResult) (snapshot : ScheduleSnapshot) : ScheduleSnapshot :=
  if current.status = .loaded then
    { snapshot with occurrenceState := current.snapshot.occurrenceState }
  else snapshot

def savePlan (current : LoadResult) (snapshot : ScheduleSnapshot) (expectedRevision : UInt64) :
    WritePlan :=
  match unreadableAnswer current.status with
  | some answer => .answer answer
  | none =>
      let revision := currentRevision current
      let committed := committedSnapshot current snapshot
      let acknowledgementLossRetry := expectedRevision ≠ uint64Max ∧ expectedRevision + 1 = revision
      if current.status = .loaded ∧ current.snapshot = committed ∧
          (expectedRevision = revision ∨ acknowledgementLossRetry) then
        .answer ⟨.unchanged, current.generation, current.source⟩
      else if revision ≠ expectedRevision then
        .answer { status := .revisionConflict, generation := current.generation }
      else if committed.revision ≠ expectedRevision + 1 ∨ !validateSnapshot committed then
        .answer { status := .invalidSnapshot, generation := current.generation }
      else if current.generation + 1 = 0 then
        .answer { status := .invalidSnapshot, generation := current.generation }
      else
        .commit committed (if current.status = .loaded then opposite current.source else .a)

def saveOccurrenceStatePlan (current : LoadResult) (occurrenceState : PersistentAlarmState)
    (expectedRevision expectedGeneration : UInt64) : WritePlan :=
  match unreadableAnswer current.status with
  | some answer => .answer answer
  | none =>
      let updated := { current.snapshot with occurrenceState }
      let acknowledgementLossRetry :=
        expectedGeneration ≠ uint64Max ∧ expectedGeneration + 1 = current.generation
      if current.status ≠ .loaded ∨ current.snapshot.revision ≠ expectedRevision then
        .answer ⟨.revisionConflict, current.generation, current.source⟩
      else if !validateSnapshot updated then
        .answer ⟨.invalidSnapshot, current.generation, current.source⟩
      else if updated = current.snapshot ∧
          (current.generation = expectedGeneration ∨ acknowledgementLossRetry) then
        .answer ⟨.unchanged, current.generation, current.source⟩
      else if current.generation ≠ expectedGeneration then
        .answer ⟨.generationConflict, current.generation, current.source⟩
      else if current.generation = uint64Max then
        .answer ⟨.invalidSnapshot, current.generation, current.source⟩
      else .commit updated (opposite current.source)

/-- Carry a plan out. -/
def WritePlan.run (slots : Slots) (faults : StorageFaults) (current : LoadResult)
    (verify : ScheduleSnapshot → DecodedRecord → Bool) : WritePlan → StoreResult × Slots
  | .answer result => (result, slots)
  | .commit snapshot destination =>
      commitRecord slots faults current snapshot destination (verify snapshot)

/-- The read-back check of the two savers. -/
def verifySaved (snapshot : ScheduleSnapshot) (verified : DecodedRecord) : Bool :=
  verified.snapshot = snapshot

/-- The read-back check of the migration, which also asks for the current schema. -/
def verifyMigrated (snapshot : ScheduleSnapshot) (verified : DecodedRecord) : Bool :=
  !verified.migrated && verified.snapshot = snapshot

/-- A writer under its transaction: load, plan, carry the plan out. -/
def runWriter (slots : Slots) (faults : StorageFaults) (plan : LoadResult → WritePlan)
    (verify : ScheduleSnapshot → DecodedRecord → Bool) : StoreResult × Slots :=
  if faults.transactionRefused then ({ status := .ioError }, slots)
  else
    let current := loadUnlocked slots faults
    (plan current).run slots faults current verify

def migrateToCurrentSchema (slots : Slots) (faults : StorageFaults) : StoreResult × Slots :=
  runWriter slots faults migrateToCurrentSchemaPlan verifyMigrated

def save (slots : Slots) (faults : StorageFaults) (snapshot : ScheduleSnapshot)
    (expectedRevision : UInt64) : StoreResult × Slots :=
  runWriter slots faults (savePlan · snapshot expectedRevision) verifySaved

def saveOccurrenceState (slots : Slots) (faults : StorageFaults)
    (occurrenceState : PersistentAlarmState) (expectedRevision expectedGeneration : UInt64) :
    StoreResult × Slots :=
  runWriter slots faults
    (saveOccurrenceStatePlan · occurrenceState expectedRevision expectedGeneration) verifySaved

/-! ### The store as an object -/

inductive StoreCall where
  | load
  | migrateToCurrentSchema
  | save (snapshot : ScheduleSnapshot) (expectedRevision : UInt64)
  | saveOccurrenceState (occurrenceState : PersistentAlarmState)
      (expectedRevision expectedGeneration : UInt64)
deriving DecidableEq

abbrev StoreReply : StoreCall → Type
  | .load => LoadResult
  | .migrateToCurrentSchema => StoreResult
  | .save .. => StoreResult
  | .saveOccurrenceState .. => StoreResult

namespace AtomicScheduleStore

open AtomicProgram

/-! The calls as a client program issues them. -/

def load : Program StoreReply LoadResult := Program.issue StoreCall.load

def migrateToCurrentSchema : Program StoreReply StoreResult :=
  Program.issue StoreCall.migrateToCurrentSchema

def save (snapshot : ScheduleSnapshot) (expectedRevision : UInt64) :
    Program StoreReply StoreResult :=
  Program.issue (StoreCall.save snapshot expectedRevision)

def saveOccurrenceState (occurrenceState : PersistentAlarmState)
    (expectedRevision expectedGeneration : UInt64) : Program StoreReply StoreResult :=
  Program.issue
    (StoreCall.saveOccurrenceState occurrenceState expectedRevision expectedGeneration)

end AtomicScheduleStore

/-- One operation under its transaction. -/
def performStore (faults : StorageFaults) : AtomicProgram.Object StoreReply Slots
  | slots, .load => (load slots faults, slots)
  | slots, .migrateToCurrentSchema => migrateToCurrentSchema slots faults
  | slots, .save snapshot expectedRevision => save slots faults snapshot expectedRevision
  | slots, .saveOccurrenceState state expectedRevision expectedGeneration =>
      saveOccurrenceState slots faults state expectedRevision expectedGeneration

end DawnDock
