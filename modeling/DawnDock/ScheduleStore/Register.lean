import DawnDock.ScheduleStore.RoundTrip
import DawnDock.ScheduleStore.Store

/-!
The store as one register.

A `Register` is what a load of the two slots returns; `performRegister` answers
the store's calls on it without slots, bytes or checksums: a commit replaces the
record, a dropped write leaves it, a torn write damages the slot that does not
hold it. `performStore_simulates` is the refinement: on every content of the two
slots and under every fault, the store answers as the register does, and the
next load returns the register's next content.

* `scanSlots_loaded` and `scanSlots_of_newest` say when a load succeeds: one
  slot's record is newer than what the other slot holds.
* `commitRecord_view` is the step every write goes through.
-/

namespace DawnDock

open ByteCodec AtomicProgram

/-! ### Loading from the newest slot -/

def SlotRecord.isInvalid : SlotRecord → Bool
  | .invalid => true
  | _ => false

/-- What a slot holds cannot stand in the way of a record of the given generation. -/
def SlotRecord.OlderThan (generation : UInt64) : SlotRecord → Prop
  | .absent => True
  | .invalid => True
  | .future other => other < generation
  | .record decoded => decoded.generation < generation

/-- The load of a record from a slot, next to what the other slot holds. -/
def loadedFrom (slot : StorageSlot) (decoded : DecodedRecord) (other : SlotRecord) : LoadResult :=
  { status := .loaded, snapshot := decoded.snapshot, generation := decoded.generation
    source := slot, migrated := decoded.migrated, corruptionDetected := other.isInvalid }

theorem scanRecords_newest_a {decoded : DecodedRecord} {other : SlotRecord}
    (older : other.OlderThan decoded.generation) :
    scanRecords (.record decoded) other = loadedFrom .a decoded other := by
  cases other with
  | absent => simp [scanRecords, LoadScan.step, LoadScan.conclude, loadedFrom, SlotRecord.isInvalid]
  | invalid => simp [scanRecords, LoadScan.step, LoadScan.conclude, loadedFrom, SlotRecord.isInvalid]
  | future generation =>
      have := UInt64.not_le.mpr older
      simp [scanRecords, LoadScan.step, LoadScan.conclude, loadedFrom, SlotRecord.isInvalid, this]
  | record old =>
      have lt : old.generation < decoded.generation := older
      simp [scanRecords, LoadScan.step, LoadScan.conclude, loadedFrom, SlotRecord.isInvalid,
        UInt64.ne_of_lt lt, UInt64.lt_asymm lt]

theorem scanRecords_newest_b {decoded : DecodedRecord} {other : SlotRecord}
    (older : other.OlderThan decoded.generation) :
    scanRecords other (.record decoded) = loadedFrom .b decoded other := by
  cases other with
  | absent => simp [scanRecords, LoadScan.step, LoadScan.conclude, loadedFrom, SlotRecord.isInvalid]
  | invalid => simp [scanRecords, LoadScan.step, LoadScan.conclude, loadedFrom, SlotRecord.isInvalid]
  | future generation =>
      have := UInt64.not_le.mpr older
      simp [scanRecords, LoadScan.step, LoadScan.conclude, loadedFrom, SlotRecord.isInvalid, this]
  | record old =>
      have lt : old.generation < decoded.generation := older
      simp [scanRecords, LoadScan.step, LoadScan.conclude, loadedFrom, SlotRecord.isInvalid,
        (UInt64.ne_of_lt lt).symm, lt]

/-- A record newer than the other slot's content is what a load returns. -/
theorem scanSlots_of_newest {slots : Slots} {slot : StorageSlot} {decoded : DecodedRecord}
    (newest : slotRecord (slots.get slot) = .record decoded)
    (older : (slotRecord (slots.get (opposite slot))).OlderThan decoded.generation) :
    scanSlots slots = loadedFrom slot decoded (slotRecord (slots.get (opposite slot))) := by
  cases slot with
  | a =>
      rw [scanSlots, show slotRecord slots.a = _ from newest]
      exact scanRecords_newest_a older
  | b =>
      rw [scanSlots, show slotRecord slots.b = _ from newest]
      exact scanRecords_newest_b older

theorem LoadScan.conclude_loaded {scan : LoadScan} (loaded : scan.conclude.status = .loaded) :
    scan.result.status = .loaded ∧ scan.ambiguous = false ∧
      ∀ future ∈ scan.futureGeneration, future < scan.result.generation := by
  unfold LoadScan.conclude at loaded
  split at loaded
  · cases loaded
  rename_i older
  split at loaded
  · cases loaded
  rename_i unambiguous
  split at loaded
  · rename_i status
    refine ⟨status, by simpa using unambiguous, fun future h => ?_⟩
    rw [Option.mem_def.mp h] at older
    simpa [status] using older
  · split at loaded <;> first | cases loaded | exact absurd loaded ‹_›

/-- A load succeeds only on a record that is newer than the other slot's content,
or on two copies of one record. -/
theorem scanRecords_loaded {a b : SlotRecord} (loaded : (scanRecords a b).status = .loaded) :
    (∃ decoded, a = .record decoded ∧ b.OlderThan decoded.generation) ∨
      (∃ decoded, b = .record decoded ∧ a.OlderThan decoded.generation) ∨
      ∃ decoded, a = .record decoded ∧ b = .record decoded := by
  obtain ⟨status, unambiguous, older⟩ := LoadScan.conclude_loaded loaded
  cases a with
  | record first =>
      cases b with
      | absent => exact .inl ⟨first, rfl, trivial⟩
      | invalid => exact .inl ⟨first, rfl, trivial⟩
      | future generation =>
          have : generation < first.generation := by simpa [LoadScan.step] using older
          exact .inl ⟨first, rfl, this⟩
      | record second =>
          by_cases same : second.generation = first.generation
          · -- Equal generations are ambiguous unless the records are the same.
            have : first = second := by
              by_contra differ
              have : second.migrated ≠ first.migrated ∨ second.snapshot ≠ first.snapshot := by
                by_contra equal
                simp only [not_or, not_not] at equal
                obtain ⟨migrated, snapshot⟩ := equal
                cases first
                cases second
                simp_all
              simp [LoadScan.step, same, this] at unambiguous
            exact .inr (.inr ⟨first, rfl, by rw [this]⟩)
          · rcases UInt64.lt_or_lt_of_ne same with lt | lt
            · exact .inl ⟨first, rfl, lt⟩
            · exact .inr (.inl ⟨second, rfl, lt⟩)
  | _ =>
      cases b with
      | record second =>
          refine .inr (.inl ⟨second, rfl, ?_⟩)
          first
          | trivial
          | exact (by simpa [LoadScan.step] using older : _ < second.generation)
      | _ =>
          exfalso
          revert status
          simp only [LoadScan.step]
          repeat' split
          all_goals simp

/-- The slot a successful load names holds the record it returns, and the other
slot holds nothing newer; a second record of the same generation is the same one. -/
theorem scanSlots_loaded {slots : Slots} (loaded : (scanSlots slots).status = .loaded) :
    ∃ slot decoded, slotRecord (slots.get slot) = .record decoded ∧
      scanSlots slots = loadedFrom slot decoded (slotRecord (slots.get (opposite slot))) ∧
      ((slotRecord (slots.get (opposite slot))).OlderThan decoded.generation ∨
        slotRecord (slots.get (opposite slot)) = .record decoded) := by
  rcases scanRecords_loaded loaded with ⟨decoded, atA, older⟩ | ⟨decoded, atB, older⟩ |
    ⟨decoded, atA, atB⟩
  · exact ⟨.a, decoded, atA, scanSlots_of_newest (show slotRecord (slots.get .a) = _ from atA) older, .inl older⟩
  · exact ⟨.b, decoded, atB, scanSlots_of_newest (show slotRecord (slots.get .b) = _ from atB) older, .inl older⟩
  · refine ⟨.a, decoded, atA, ?_, .inr atB⟩
    rw [scanSlots, atA, atB, show slotRecord (slots.get (opposite .a)) = _ from atB]
    simp [scanRecords, LoadScan.step, LoadScan.conclude, loadedFrom, SlotRecord.isInvalid]

theorem LoadScan.conclude_empty {scan : LoadScan} (empty : scan.conclude.status = .empty) :
    scan.anyPresent = false := by
  unfold LoadScan.conclude at empty
  split at empty
  · cases empty
  split at empty
  · cases empty
  split at empty
  · rename_i loaded
    exact absurd (empty.symm.trans loaded) (by decide)
  split at empty
  · cases empty
  · rename_i absent
    simpa using absent

theorem LoadScan.step_absent {scan : LoadScan} {slot : StorageSlot} {content : SlotRecord}
    (h : (scan.step slot content).anyPresent = false) :
    scan.anyPresent = false ∧ content = .absent := by
  cases content with
  | absent => exact ⟨h, rfl⟩
  | future generation =>
      simp only [LoadScan.step] at h
      split at h <;> cases h
  | invalid => cases h
  | record decoded =>
      simp only [LoadScan.step] at h
      repeat' split at h
      all_goals cases h

theorem eq_none_of_absent {content : Option Bytes} (h : slotRecord content = .absent) :
    content = none := by
  cases content with
  | none => rfl
  | some bytes =>
      simp only [slotRecord] at h
      repeat' split at h
      all_goals cases h

theorem scanSlots_empty {slots : Slots} (empty : (scanSlots slots).status = .empty) :
    slots = {} := by
  obtain ⟨first, atB⟩ := LoadScan.step_absent (LoadScan.conclude_empty empty)
  obtain ⟨-, atA⟩ := LoadScan.step_absent first
  cases slots
  congr
  · exact eq_none_of_absent atA
  · exact eq_none_of_absent atB

/-! ### The register -/

/-- What a load of the two slots returns. -/
abbrev Register := LoadResult

/-- The register after a commit. -/
def Register.next (current : Register) (snapshot : ScheduleSnapshot)
    (destination : StorageSlot) : Register :=
  { status := .loaded, snapshot, generation := current.generation + 1, source := destination }

/-- The register after a torn write, which spoils the slot that holds no record. -/
def Register.damaged (current : Register) : Register :=
  if current.status = .loaded then { current with corruptionDetected := true }
  else { status := .corrupt }

def Register.write (current : Register) (snapshot : ScheduleSnapshot)
    (destination : StorageSlot) : WriteEffect → Register
  | .applied => current.next snapshot destination
  | .dropped => current
  | .torn _ => current.damaged

/-- The write landed and the caller is told so. -/
def StorageFaults.confirms (faults : StorageFaults) : Bool :=
  match faults.write with
  | .applied => !(faults.writeRefused || faults.readBackFails)
  | _ => false

def Register.commit (faults : StorageFaults) (current : Register) (snapshot : ScheduleSnapshot)
    (destination : StorageSlot) : StoreResult × Register :=
  (if faults.confirms then ⟨.stored, current.generation + 1, destination⟩
    else if faults.writeRefused || faults.readBackFails then
      ⟨.ioError, current.generation, destination⟩
    else ⟨.verificationFailed, current.generation, destination⟩,
    current.write snapshot destination faults.write)

def WritePlan.runOn (faults : StorageFaults) (current : Register) :
    WritePlan → StoreResult × Register
  | .answer result => (result, current)
  | .commit snapshot destination => current.commit faults snapshot destination

/-- A write whose transaction or load fails leaves the register alone. -/
def writeRegister (faults : StorageFaults) (current : Register) (plan : WritePlan) :
    StoreResult × Register :=
  if faults.transactionRefused || faults.readFails then ({ status := .ioError }, current)
  else plan.runOn faults current

def performRegister (faults : StorageFaults) : Object StoreReply Register
  | current, .load =>
      (if faults.transactionRefused || faults.readFails then { status := .ioError } else current,
        current)
  | current, .migrateToCurrentSchema =>
      writeRegister faults current (migrateToCurrentSchemaPlan current)
  | current, .save snapshot expectedRevision =>
      writeRegister faults current (savePlan current snapshot expectedRevision)
  | current, .saveOccurrenceState state expectedRevision expectedGeneration =>
      writeRegister faults current
        (saveOccurrenceStatePlan current state expectedRevision expectedGeneration)

/-! ### What a plan commits -/

/-- A commit writes a valid snapshot under a new generation, into the slot that
does not hold the current record. -/
structure Commits (current : Register) (snapshot : ScheduleSnapshot)
    (destination : StorageSlot) : Prop where
  valid : validateSnapshot snapshot = true
  fresh : current.generation + 1 ≠ 0
  slot : (current.status = .loaded ∧ destination = opposite current.source) ∨
    (current.status = .empty ∧ destination = .a)

theorem unreadableAnswer_eq_none {status : LoadStatus} :
    unreadableAnswer status = none ↔ status = .loaded ∨ status = .empty := by
  cases status <;> simp [unreadableAnswer]

theorem unreadableAnswer_refuses {status : LoadStatus} {result : StoreResult}
    (h : unreadableAnswer status = some result) :
    result.status = .ioError ∨ result.status = .corruptStore := by
  cases status <;> cases h <;> simp

theorem add_one_ne_zero {n : UInt64} (h : n ≠ uint64Max) : n + 1 ≠ 0 := by
  simp only [uint64Max] at h
  grind

theorem savePlan_commit {current : Register} {snapshot committed : ScheduleSnapshot}
    {expectedRevision : UInt64} {destination : StorageSlot}
    (h : savePlan current snapshot expectedRevision = .commit committed destination) :
    Commits current committed destination ∧ committed = committedSnapshot current snapshot ∧
      expectedRevision = currentRevision current ∧ committed.revision = expectedRevision + 1 := by
  simp only [savePlan] at h
  split at h
  · cases h
  rename_i readable
  split at h
  · cases h
  split at h
  · cases h
  rename_i revision
  split at h
  · cases h
  rename_i accepted
  split at h
  · cases h
  rename_i generation
  cases h
  simp only [not_or, not_not, Bool.not_eq_true', Bool.not_eq_false] at accepted revision
  refine ⟨⟨accepted.2, generation, ?_⟩, rfl, revision.symm, accepted.1⟩
  rcases unreadableAnswer_eq_none.mp readable with loaded | empty
  · exact .inl ⟨loaded, if_pos loaded⟩
  · exact .inr ⟨empty, if_neg (by simp [empty])⟩

theorem saveOccurrenceStatePlan_commit {current : Register} {state : PersistentAlarmState}
    {expectedRevision expectedGeneration : UInt64} {snapshot : ScheduleSnapshot}
    {destination : StorageSlot}
    (h : saveOccurrenceStatePlan current state expectedRevision expectedGeneration =
      .commit snapshot destination) :
    Commits current snapshot destination ∧ current.status = .loaded ∧
      snapshot = { current.snapshot with occurrenceState := state } ∧
      expectedRevision = current.snapshot.revision ∧
      expectedGeneration = current.generation := by
  simp only [saveOccurrenceStatePlan] at h
  split at h
  · cases h
  split at h
  · cases h
  rename_i revision
  split at h
  · cases h
  rename_i valid
  split at h
  · cases h
  split at h
  · cases h
  rename_i generation
  split at h
  · cases h
  rename_i room
  cases h
  simp only [not_or, not_not, Bool.not_eq_true', Bool.not_eq_false] at revision valid generation
  exact ⟨⟨valid, add_one_ne_zero room, .inl ⟨revision.1, rfl⟩⟩, revision.1, rfl,
    revision.2.symm, generation.symm⟩

theorem migratePlan_commit {current : Register} {snapshot : ScheduleSnapshot}
    {destination : StorageSlot}
    (h : migrateToCurrentSchemaPlan current = .commit snapshot destination) :
    current.status = .loaded ∧ snapshot = current.snapshot ∧ current.generation + 1 ≠ 0 ∧
      destination = opposite current.source := by
  simp only [migrateToCurrentSchemaPlan] at h
  split at h
  · cases h
  rename_i readable
  split at h
  · cases h
  rename_i migrated
  split at h
  · cases h
  rename_i room
  cases h
  simp only [not_or, Bool.not_eq_true', Bool.not_eq_false] at migrated
  exact ⟨(unreadableAnswer_eq_none.mp readable).resolve_right migrated.1, rfl,
    add_one_ne_zero room, rfl⟩

/-- Only a commit is answered with `stored`. -/
theorem savePlan_answer {current : Register} {snapshot : ScheduleSnapshot}
    {expectedRevision : UInt64} {result : StoreResult}
    (h : savePlan current snapshot expectedRevision = .answer result) :
    result.status ≠ .stored := by
  simp only [savePlan] at h
  split at h
  · rename_i refused
    cases h
    rcases unreadableAnswer_refuses refused with status | status <;> simp [status]
  · repeat' split at h
    all_goals cases h <;> simp

theorem saveOccurrenceStatePlan_answer {current : Register} {state : PersistentAlarmState}
    {expectedRevision expectedGeneration : UInt64} {result : StoreResult}
    (h : saveOccurrenceStatePlan current state expectedRevision expectedGeneration =
      .answer result) : result.status ≠ .stored := by
  simp only [saveOccurrenceStatePlan] at h
  split at h
  · rename_i refused
    cases h
    rcases unreadableAnswer_refuses refused with status | status <;> simp [status]
  · repeat' split at h
    all_goals cases h <;> simp

theorem migratePlan_answer {current : Register} {result : StoreResult}
    (h : migrateToCurrentSchemaPlan current = .answer result) : result.status ≠ .stored := by
  simp only [migrateToCurrentSchemaPlan] at h
  split at h
  · rename_i refused
    cases h
    rcases unreadableAnswer_refuses refused with status | status <;> simp [status]
  · repeat' split at h
    all_goals cases h <;> simp

/-! ### Refinement -/

theorem decodeRecord_of_future {bytes : Bytes} {generation : UInt64}
    (future : intactFutureSchemaGeneration bytes = some generation) :
    decodeRecord bytes = none := by
  simp only [intactFutureSchemaGeneration, Option.bind_eq_bind, Option.bind_eq_some_iff] at future
  obtain ⟨header, intact, _, later, -⟩ := future
  have later := of_guard_eq_some later
  have schema : ¬ (header.schema = 1 ∨ header.schema = kCurrentStorageSchemaVersion) := by
    have := later.1
    simp only [kCurrentStorageSchemaVersion] at this ⊢
    grind
  simp only [decodeRecord, intact, guard, if_neg schema, Option.bind_eq_bind, Option.bind_some]
  rfl

theorem slotRecord_of_decode {bytes : Bytes} {decoded : DecodedRecord}
    (h : decodeRecord bytes = some decoded) : slotRecord (some bytes) = .record decoded := by
  cases future : intactFutureSchemaGeneration bytes with
  | none => simp only [slotRecord, future, h]
  | some generation =>
      rw [decodeRecord_of_future future] at h
      cases h

theorem slotRecord_torn (left : TornBytes) : slotRecord (some left.val) = .invalid := by
  simp only [slotRecord, left.property.1, left.property.2]

theorem decode_of_slotRecord {content : Option Bytes} {decoded : DecodedRecord}
    (h : slotRecord content = .record decoded) : content.bind decodeRecord = some decoded := by
  cases content with
  | none => cases h
  | some bytes =>
      simp only [slotRecord] at h
      split at h
      · cases h
      · split at h
        · cases h
        · cases h
          assumption

theorem validateSnapshot_scanSlots {slots : Slots} (loaded : (scanSlots slots).status = .loaded) :
    validateSnapshot (scanSlots slots).snapshot = true ∧ (scanSlots slots).generation ≠ 0 := by
  obtain ⟨slot, decoded, present, load, -⟩ := scanSlots_loaded loaded
  rw [load]
  obtain ⟨bytes, -, decode⟩ := Option.bind_eq_some_iff.mp (decode_of_slotRecord present)
  exact validateSnapshot_of_decodeRecord decode

theorem migratePlan_commits {slots : Slots} {snapshot : ScheduleSnapshot}
    {destination : StorageSlot}
    (h : migrateToCurrentSchemaPlan (scanSlots slots) = .commit snapshot destination) :
    Commits (scanSlots slots) snapshot destination := by
  obtain ⟨loaded, rfl, fresh, slot⟩ := migratePlan_commit h
  exact ⟨(validateSnapshot_scanSlots loaded).1, fresh, .inl ⟨loaded, slot⟩⟩

theorem slotRecord_encodeRecord {snapshot : ScheduleSnapshot} {generation : UInt64}
    {bytes : Bytes} (written : encodeRecord snapshot generation = some bytes)
    (positive : generation ≠ 0) :
    slotRecord (some bytes) = .record ⟨snapshot, generation, false⟩ :=
  slotRecord_of_decode (decodeRecord_encodeRecord written positive)

theorem lt_add_one {n : UInt64} (h : n + 1 ≠ 0) : n < n + 1 :=
  UInt64.lt_add_one fun top => h (by rw [top]; rfl)

/-- The slot a commit writes holds no record of the new generation yet. -/
theorem Commits.stale {slots : Slots} {snapshot : ScheduleSnapshot} {destination : StorageSlot}
    (commits : Commits (scanSlots slots) snapshot destination) :
    ∀ decoded ∈ (slots.get destination).bind decodeRecord,
      decoded.generation ≠ (scanSlots slots).generation + 1 := by
  intro decoded present
  have increase := lt_add_one commits.fresh
  rcases commits.slot with ⟨loaded, rfl⟩ | ⟨empty, rfl⟩
  · obtain ⟨slot, current, -, load, other⟩ := scanSlots_loaded loaded
    rw [load] at increase present ⊢
    obtain ⟨bytes, content, decode⟩ := Option.bind_eq_some_iff.mp present
    rw [show (loadedFrom slot current _).source = slot from rfl] at content
    rw [content, slotRecord_of_decode decode] at other
    have atMost : decoded.generation ≤ current.generation := by
      rcases other with lt | same
      · exact UInt64.le_of_lt lt
      · cases same
        exact UInt64.le_refl _
    exact UInt64.ne_of_lt (UInt64.lt_of_le_of_lt atMost increase)
  · rw [scanSlots_empty empty] at present
    cases present

/-- What a load returns after the write of a commit. -/
theorem Commits.scanSlots_write {slots : Slots} {snapshot : ScheduleSnapshot}
    {destination : StorageSlot} {encoded : Bytes}
    (commits : Commits (scanSlots slots) snapshot destination)
    (written : encodeRecord snapshot ((scanSlots slots).generation + 1) = some encoded)
    (effect : WriteEffect) :
    scanSlots (effect.apply slots destination encoded) =
      Register.write (scanSlots slots) snapshot destination effect := by
  have increase := lt_add_one commits.fresh
  have encodedRecord := slotRecord_encodeRecord written commits.fresh
  rcases commits.slot with ⟨loaded, rfl⟩ | ⟨empty, rfl⟩
  · obtain ⟨slot, current, present, load, -⟩ := scanSlots_loaded loaded
    have source : (scanSlots slots).source = slot := by rw [load]; rfl
    have generation : (scanSlots slots).generation = current.generation := by rw [load]; rfl
    rw [source]
    have kept (bytes : Bytes) : slotRecord ((slots.set (opposite slot) bytes).get slot) =
        .record current := by rw [Slots.get_opposite_set, present]
    cases effect with
    | dropped => rfl
    | applied =>
        have newest : slotRecord ((slots.set (opposite slot) encoded).get (opposite slot)) =
            .record ⟨snapshot, (scanSlots slots).generation + 1, false⟩ := by
          rw [Slots.get_set_self, encodedRecord]
        have older : (SlotRecord.record current).OlderThan ((scanSlots slots).generation + 1) := by
          simpa only [SlotRecord.OlderThan, generation] using increase
        have loadedNext := scanSlots_of_newest newest (by rwa [opposite_opposite, kept])
        rw [WriteEffect.apply, loadedNext, opposite_opposite, kept]
        rfl
    | torn left =>
        have spoiled : slotRecord ((slots.set (opposite slot) left).get (opposite slot)) =
            .invalid := by rw [Slots.get_set_self, slotRecord_torn]
        have loadedStill := scanSlots_of_newest (kept left) (by rw [spoiled]; trivial)
        rw [WriteEffect.apply, loadedStill, spoiled, Register.write, Register.damaged, load]
        rfl
  · obtain rfl := scanSlots_empty empty
    cases effect with
    | dropped => rfl
    | applied =>
        have newest : slotRecord ((Slots.set {} .a encoded).get .a) =
            .record ⟨snapshot, (scanSlots {}).generation + 1, false⟩ := by
          rw [Slots.get_set_self, encodedRecord]
        exact scanSlots_of_newest newest trivial
    | torn left =>
        have spoiled : slotRecord ((Slots.set {} .a left).get .a) = .invalid := by
          rw [Slots.get_set_self, slotRecord_torn]
        rw [WriteEffect.apply, scanSlots, show slotRecord (Slots.set {} .a left).a = _ from spoiled]
        rfl

theorem commitRecord_view {slots : Slots} {faults : StorageFaults} {snapshot : ScheduleSnapshot}
    {destination : StorageSlot} {verify : DecodedRecord → Bool}
    (commits : Commits (scanSlots slots) snapshot destination)
    (accepts : verify ⟨snapshot, (scanSlots slots).generation + 1, false⟩ = true) :
    ((commitRecord slots faults (scanSlots slots) snapshot destination verify).1,
      scanSlots (commitRecord slots faults (scanSlots slots) snapshot destination verify).2) =
    Register.commit faults (scanSlots slots) snapshot destination := by
  obtain ⟨encoded, written⟩ :=
    encodeRecord_total ((scanSlots slots).generation + 1) commits.valid
  have after := commits.scanSlots_write written faults.write
  simp only [commitRecord, written, Register.commit, ← after]
  by_cases refused : (faults.writeRefused || faults.readBackFails) = true
  · have unconfirmed : faults.confirms = false := by
      unfold StorageFaults.confirms
      split <;> simp [refused]
    rw [if_pos refused, if_pos refused, unconfirmed]
    rfl
  · rw [if_neg refused, if_neg refused]
    have stale := commits.stale
    cases effect : faults.write with
    | applied =>
        have decoded := decodeRecord_encodeRecord written commits.fresh
        have confirmed : faults.confirms = true := by
          simp only [StorageFaults.confirms, effect, refused, Bool.not_false]
        simp only [WriteEffect.apply, Slots.get_set_self, Option.bind_some, decoded, Option.any_some,
          beq_self_eq_true, accepts, Bool.and_self, if_true, confirmed]
    | dropped =>
        have confirmed : faults.confirms = false := by simp only [StorageFaults.confirms, effect]
        have unverified : ((slots.get destination).bind decodeRecord).any (fun verified =>
            verified.generation == (scanSlots slots).generation + 1 && verify verified) = false := by
          cases present : (slots.get destination).bind decodeRecord with
          | none => rfl
          | some old =>
              rw [Option.any_some, beq_eq_false_iff_ne.mpr (stale old present), Bool.false_and]
        simp only [WriteEffect.apply, unverified, confirmed, Bool.false_eq_true, if_false]
    | torn left =>
        have confirmed : faults.confirms = false := by simp only [StorageFaults.confirms, effect]
        simp only [WriteEffect.apply, Slots.get_set_self, Option.bind_some, left.property.1,
          Option.any_none, confirmed, Bool.false_eq_true, if_false]

/-- A writer's plan, carried out on the slots and on the register. -/
theorem WritePlan.run_view {slots : Slots} {faults : StorageFaults} {plan : WritePlan}
    {verify : ScheduleSnapshot → DecodedRecord → Bool}
    (commits : ∀ snapshot destination, plan = .commit snapshot destination →
      Commits (scanSlots slots) snapshot destination)
    (accepts : ∀ snapshot generation, verify snapshot ⟨snapshot, generation, false⟩ = true) :
    ((plan.run slots faults (scanSlots slots) verify).1,
      scanSlots (plan.run slots faults (scanSlots slots) verify).2) =
    plan.runOn faults (scanSlots slots) := by
  cases plan with
  | answer result => rfl
  | commit snapshot destination =>
      exact commitRecord_view (commits snapshot destination rfl) (accepts snapshot _)

theorem runWriter_view {slots : Slots} {faults : StorageFaults} {plan : LoadResult → WritePlan}
    {verify : ScheduleSnapshot → DecodedRecord → Bool}
    (unreadable : plan { status := .ioError } = .answer { status := .ioError })
    (commits : ∀ snapshot destination, plan (scanSlots slots) = .commit snapshot destination →
      Commits (scanSlots slots) snapshot destination)
    (accepts : ∀ snapshot generation, verify snapshot ⟨snapshot, generation, false⟩ = true) :
    writeRegister faults (scanSlots slots) (plan (scanSlots slots)) =
      ((runWriter slots faults plan verify).1, scanSlots (runWriter slots faults plan verify).2) := by
  unfold writeRegister runWriter loadUnlocked
  cases faults.transactionRefused with
  | true => rfl
  | false =>
      cases faults.readFails with
      | true =>
          simp only [Bool.or_true, if_true, Bool.false_eq_true, if_false, unreadable]
          rfl
      | false => exact (WritePlan.run_view commits accepts).symm

/-- The store answers as the register does, and a load returns the register's content. -/
theorem performStore_simulates (faults : StorageFaults) :
    Simulates (performStore faults) (performRegister faults) scanSlots := by
  intro slots c
  cases c with
  | load =>
      simp only [performRegister, performStore, load, loadUnlocked]
      cases faults.transactionRefused <;> cases faults.readFails <;> rfl
  | migrateToCurrentSchema =>
      exact runWriter_view rfl (fun _ _ h => migratePlan_commits h) fun _ _ => by
        simp [verifyMigrated]
  | save snapshot expectedRevision =>
      exact @runWriter_view slots faults (savePlan · snapshot expectedRevision) verifySaved rfl
        (fun _ _ h => (savePlan_commit h).1) fun _ _ => by simp [verifySaved]
  | saveOccurrenceState state expectedRevision expectedGeneration =>
      exact @runWriter_view slots faults
        (saveOccurrenceStatePlan · state expectedRevision expectedGeneration) verifySaved rfl
        (fun _ _ h => (saveOccurrenceStatePlan_commit h).1) fun _ _ => by simp [verifySaved]

/-! ### A writing call by its plan -/

/-- What a writing call decides from the current record. -/
def StoreCall.plan (current : LoadResult) : StoreCall → Option WritePlan
  | .load => none
  | .migrateToCurrentSchema => some (migrateToCurrentSchemaPlan current)
  | .save snapshot expectedRevision => some (savePlan current snapshot expectedRevision)
  | .saveOccurrenceState state expectedRevision expectedGeneration =>
      some (saveOccurrenceStatePlan current state expectedRevision expectedGeneration)

def storeStatus : (c : StoreCall) → StoreReply c → Option StoreStatus
  | .load, _ => none
  | .migrateToCurrentSchema, result => some result.status
  | .save .., result => some result.status
  | .saveOccurrenceState .., result => some result.status

/-- A writing call on the register is its plan, carried out. -/
theorem performRegister_plan {faults : StorageFaults} {current : Register} {c : StoreCall}
    {plan : WritePlan} (admitted : (faults.transactionRefused || faults.readFails) = false)
    (planned : c.plan current = some plan) :
    storeStatus c (performRegister faults current c).1 = some (plan.runOn faults current).1.status ∧
      (performRegister faults current c).2 = (plan.runOn faults current).2 := by
  cases c with
  | load => cases planned
  | migrateToCurrentSchema =>
      cases planned
      simp only [performRegister, storeStatus, writeRegister, admitted, Bool.false_eq_true, if_false,
        and_self]
  | save =>
      cases planned
      simp only [performRegister, storeStatus, writeRegister, admitted, Bool.false_eq_true, if_false,
        and_self]
  | saveOccurrenceState =>
      cases planned
      simp only [performRegister, storeStatus, writeRegister, admitted, Bool.false_eq_true, if_false,
        and_self]

end DawnDock
