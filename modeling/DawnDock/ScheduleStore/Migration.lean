import DawnDock.ScheduleStore.Register
import DawnDock.ScheduleStore.Atomicity
import DawnDock.ScheduleStore.Canonical

/-!
Migration of a schema-1 record (`migrate_to_current_schema`).

A schema-1 record decodes to a snapshot under the legacy timezone marker that
passes the schema-2 validator (`timezone_of_migrated`), so it can always be
encoded again. Over healthy storage the migration writes it once, into the slot
that does not hold the schema-1 record; after that there is nothing to migrate
(`migration_preserves`).
-/

namespace DawnDock

open ByteCodec

/-- A schema-1 payload has no timezone version; its reader puts the marker there. -/
theorem timezone_of_run_readSnapshot {schema : UInt16} {snapshot : ScheduleSnapshot}
    {payload remaining : Bytes} (legacy : schema ≠ kCurrentStorageSchemaVersion)
    (h : (readSnapshot schema).run payload = some (snapshot, remaining)) :
    snapshot.timezoneRulesVersion = legacyTimezone := by
  obtain ⟨revision, _, _, h⟩ := run_bind_eq_some.mp h
  simp only [if_neg legacy] at h
  obtain ⟨timezone, _, marked, h⟩ := run_bind_eq_some.mp h
  obtain ⟨alarms, _, _, h⟩ := run_bind_eq_some.mp h
  obtain ⟨state, _, _, last⟩ := run_bind_eq_some.mp h
  cases marked
  cases last
  rfl

/-- Everything accepted under schema 1 carries the marker. -/
theorem timezone_of_migrated {bytes : Bytes} {decoded : DecodedRecord}
    (accepted : decodeRecord bytes = some decoded) (legacy : decoded.migrated = true) :
    decoded.snapshot.timezoneRulesVersion = legacyTimezone := by
  simp only [decodeRecord, Option.bind_eq_bind, Option.bind_eq_some_iff] at accepted
  obtain ⟨header, _, _, _, _, _, ⟨snapshot, remaining⟩, read, _, _, last⟩ := accepted
  cases last
  exact timezone_of_run_readSnapshot (by simpa using legacy) read

/-- The record a load returns is what its slot decodes to. -/
theorem decodeRecord_of_scanSlots {slots : Slots} (loaded : (scanSlots slots).status = .loaded) :
    (slots.get (scanSlots slots).source).bind decodeRecord =
      some ⟨(scanSlots slots).snapshot, (scanSlots slots).generation, (scanSlots slots).migrated⟩ := by
  obtain ⟨slot, decoded, held, scanned, _⟩ := scanSlots_loaded loaded
  rw [scanned]
  exact decode_of_slotRecord held

theorem migratePlan_legacy {current : LoadResult} (loaded : current.status = .loaded)
    (legacy : current.migrated = true) (room : current.generation ≠ uint64Max) :
    migrateToCurrentSchemaPlan current = .commit current.snapshot (opposite current.source) := by
  simp [migrateToCurrentSchemaPlan, loaded, legacy, room, unreadableAnswer]

/-- A store without a schema-1 record has nothing to migrate. -/
theorem migratePlan_current {current : LoadResult} (loaded : current.status = .loaded)
    (migrated : current.migrated = false) :
    migrateToCurrentSchemaPlan current =
      .answer ⟨.unchanged, current.generation, current.source⟩ := by
  simp [migrateToCurrentSchemaPlan, loaded, migrated, unreadableAnswer]

theorem migrateToCurrentSchema_current {slots : Slots}
    (loaded : (scanSlots slots).status = .loaded) (migrated : (scanSlots slots).migrated = false) :
    migrateToCurrentSchema slots {} =
      (⟨.unchanged, (scanSlots slots).generation, (scanSlots slots).source⟩, slots) := by
  show (migrateToCurrentSchemaPlan (scanSlots slots)).run _ _ _ _ = _
  rw [migratePlan_current loaded migrated]
  rfl

/-- A migration on healthy storage is one slot write, which the next load returns. -/
theorem migrateToCurrentSchema_legacy {slots : Slots}
    (loaded : (scanSlots slots).status = .loaded) (legacy : (scanSlots slots).migrated = true)
    (room : (scanSlots slots).generation ≠ uint64Max) :
    ∃ encoded, migrateToCurrentSchema slots {} =
        (⟨.stored, (scanSlots slots).generation + 1, opposite (scanSlots slots).source⟩,
          slots.set (opposite (scanSlots slots).source) encoded) ∧
      scanSlots (slots.set (opposite (scanSlots slots).source) encoded) =
        Register.next (scanSlots slots) (scanSlots slots).snapshot
          (opposite (scanSlots slots).source) := by
  have planned := migratePlan_legacy loaded legacy room
  have commits := migratePlan_commits planned
  obtain ⟨encoded, written⟩ := encodeRecord_total ((scanSlots slots).generation + 1) commits.valid
  have run : migrateToCurrentSchema slots {} =
      commitRecord slots {} (scanSlots slots) (scanSlots slots).snapshot
        (opposite (scanSlots slots).source) (verifyMigrated (scanSlots slots).snapshot) := by
    show (migrateToCurrentSchemaPlan (scanSlots slots)).run _ _ _ _ = _
    rw [planned]
    rfl
  have readBack := decodeRecord_encodeRecord written commits.fresh
  refine ⟨encoded, ?_, commits.scanSlots_write written .applied⟩
  rw [run]
  simp [commitRecord, written, WriteEffect.apply, readBack, verifyMigrated]

/-- Migration of a loadable schema-1 record below the last generation. The call is
acknowledged; the next load returns the same schedule and journal under the legacy
marker, one generation on, from a record of the current schema; the slot it came
from keeps its bytes; a further call answers `unchanged` and leaves the slots. -/
theorem migration_preserves {slots : Slots} (loaded : (load slots {}).status = .loaded)
    (legacy : (load slots {}).migrated = true)
    (room : (load slots {}).generation.toNat + 1 < 2 ^ 64) :
    let current := load slots {}
    let migrated := migrateToCurrentSchema slots {}
    let next := load migrated.2 {}
    let before := current.snapshot.occurrenceState
    let after := next.snapshot.occurrenceState
    migrated.1.status = .stored ∧
      (next.status = .loaded ∧ next.migrated = false) ∧
      (next.snapshot.revision = current.snapshot.revision ∧
        next.snapshot.alarms = current.snapshot.alarms ∧ after.active = before.active ∧
        after.terminal = before.terminal ∧
        after.terminalHighWatermarks = before.terminalHighWatermarks) ∧
      next.snapshot.timezoneRulesVersion = legacyTimezone ∧
      next.generation.toNat = current.generation.toNat + 1 ∧
      migrated.2.get current.source = slots.get current.source ∧
      migrateToCurrentSchema migrated.2 {} =
        (⟨.unchanged, next.generation, next.source⟩, migrated.2) := by
  have room : (scanSlots slots).generation ≠ uint64Max := by
    intro full
    have : (load slots {}).generation = uint64Max := full
    rw [this] at room
    exact absurd room (by decide)
  obtain ⟨encoded, run, scanned⟩ := migrateToCurrentSchema_legacy loaded legacy room
  have timezone : (scanSlots slots).snapshot.timezoneRulesVersion = legacyTimezone := by
    obtain ⟨bytes, _, decoded⟩ := Option.bind_eq_some_iff.mp (decodeRecord_of_scanSlots loaded)
    exact timezone_of_migrated decoded legacy
  intro current migrated next before after
  have slots_eq : migrated.2 = slots.set (opposite (scanSlots slots).source) encoded :=
    congrArg Prod.snd run
  have next_eq : scanSlots migrated.2 = Register.next (scanSlots slots) (scanSlots slots).snapshot
      (opposite (scanSlots slots).source) := by rw [slots_eq, scanned]
  have next_eq : next = Register.next (scanSlots slots) (scanSlots slots).snapshot
      (opposite (scanSlots slots).source) := next_eq
  have same : next.snapshot = current.snapshot := by rw [next_eq]; rfl
  have nextLoaded : next.status = .loaded := by rw [next_eq]; rfl
  have nextCurrent : next.migrated = false := by rw [next_eq]; rfl
  refine ⟨congrArg (·.1.status) run, ⟨nextLoaded, nextCurrent⟩, ?_, ?_, ?_, ?_, ?_⟩
  · simp only [after, before, same, and_self]
  · rw [same]
    exact timezone
  · have generation : next.generation = (scanSlots slots).generation + 1 := by rw [next_eq]; rfl
    rw [generation]
    exact toNat_add_one (add_one_ne_zero room)
  · rw [slots_eq]
    exact slots.get_opposite_set _ _
  · exact migrateToCurrentSchema_current nextLoaded nextCurrent

/-- A schema-1 record with one alarm, as the first firmware wrote it. -/
def legacyRecord : Bytes :=
  [0x44, 0x44, 0x53, 0x54, 0x01, 0x00, 0x00, 0x00, 0x07, 0x00, 0x00, 0x00, 0x00, 0x00, 0x00, 0x00,
    0x2e, 0x00, 0x00, 0x00, 0x7b, 0x2c, 0x14, 0x58, 0x01, 0x00, 0x00, 0x00, 0x00, 0x00, 0x00, 0x00,
    0x01, 0x00, 0x0c, 0x00, 0x77, 0x65, 0x65, 0x6b, 0x64, 0x61, 0x79, 0x2d, 0x77, 0x61, 0x6b, 0x65,
    0x01, 0x00, 0x00, 0x00, 0x00, 0x00, 0x00, 0x00, 0x01, 0x00, 0xd2, 0x49, 0x6b, 0x00, 0x00, 0x00,
    0x00, 0x00, 0x00, 0x00, 0x00, 0x00]

/-- One legacy slot beside an empty one: generation 7 becomes generation 8. -/
theorem migration_preserves_legacyRecord :
    let migrated := migrateToCurrentSchema { a := some legacyRecord } {}
    migrated.1.status = .stored ∧ migrated.2.a = some legacyRecord ∧
      (load migrated.2 {}).snapshot.alarms.map (·.id) =
        (load { a := some legacyRecord } {}).snapshot.alarms.map (·.id) := by
  have whole := @migration_preserves { a := some legacyRecord } (by decide +kernel)
    (by decide +kernel) (by decide +kernel)
  have source : (load { a := some legacyRecord } {}).source = .a := by decide +kernel
  obtain ⟨stored, _, ⟨_, alarms, _⟩, _, _, kept, _⟩ := whole
  rw [source] at kept
  exact ⟨stored, kept, congrArg _ alarms⟩

end DawnDock
