import DawnDock.App.DiffPartition

/-!
What a schedule diff reports, and what the device would see (`schedule_diff.dart`).

The wire form of a draft carries all of it but the origin label of its provenance
(`toWireAlarm_eq`). A description and the wire form so agree on two drafts if and only if
these do not differ in that label alone.
-/

namespace DawnDock.App

/-- The fields without the origin label. -/
def AlarmFields.unlabelled (fields : AlarmFields) : AlarmFields :=
  { fields with
    provenance := fields.provenance.map fun provenance => { provenance with originLabel := [] } }

/-- Two drafts that differ, and in nothing but the origin label of their provenance. -/
def OriginOnly (before after : AlarmDraft) : Prop :=
  before ≠ after ∧ before.toAlarmFields.unlabelled = after.toAlarmFields.unlabelled

section Wire

variable {δ : Type} {before after : AlarmDraft}

theorem twoDigits_table : ∀ value ≤ 59,
    (AlarmDraft.twoDigits (Int64.ofNat value)).length = 2 ∧
      parseDigits (AlarmDraft.twoDigits (Int64.ofNat value)) = value := by
  decide +kernel

theorem localTime_eq : before.localTime = after.localTime ↔
    before.localHour = after.localHour ∧ before.localMinute = after.localMinute := by
  obtain ⟨hour, hourLe, hourEq⟩ :=
    AlarmDraft.eq_ofNat before.checks.hour.1 before.checks.hour.2 (by decide)
  obtain ⟨minute, minuteLe, minuteEq⟩ :=
    AlarmDraft.eq_ofNat before.checks.minute.1 before.checks.minute.2 (by decide)
  obtain ⟨hour', hourLe', hourEq'⟩ :=
    AlarmDraft.eq_ofNat after.checks.hour.1 after.checks.hour.2 (by decide)
  obtain ⟨minute', minuteLe', minuteEq'⟩ :=
    AlarmDraft.eq_ofNat after.checks.minute.1 after.checks.minute.2 (by decide)
  obtain ⟨hourLength, hourDigits⟩ := twoDigits_table hour (hourLe.trans (by decide))
  obtain ⟨hourLength', hourDigits'⟩ := twoDigits_table hour' (hourLe'.trans (by decide))
  obtain ⟨-, minuteDigits⟩ := twoDigits_table minute minuteLe
  obtain ⟨-, minuteDigits'⟩ := twoDigits_table minute' minuteLe'
  constructor
  · intro same
    rw [AlarmDraft.localTime, AlarmDraft.localTime, hourEq, minuteEq, hourEq', minuteEq'] at same
    obtain ⟨front, minutes⟩ := List.append_inj same (by simp [hourLength, hourLength'])
    obtain ⟨hours, -⟩ := List.append_inj front (hourLength.trans hourLength'.symm)
    have hourSame : hour = hour' := by
      rw [← hourDigits, ← hourDigits', hours]
    have minuteSame : minute = minute' := by
      rw [← minuteDigits, ← minuteDigits', minutes]
    rw [hourEq, hourEq', minuteEq, minuteEq', hourSame, minuteSame]
    exact ⟨rfl, rfl⟩
  · rintro ⟨hours, minutes⟩
    rw [AlarmDraft.localTime, AlarmDraft.localTime, hours, minutes]

theorem toWireDays_eq : before.toWireDays = after.toWireDays ↔ before.days = after.days := by
  constructor
  · intro same
    have injective : Function.Injective fun iso : Int64 => iso - 1 := by
      intro day other equal
      rw [← Int64.sub_add_cancel day 1, ← Int64.sub_add_cancel other 1]
      exact congrArg (· + 1) equal
    apply Finset.image_injective injective
    have members := congrArg List.toFinset same
    rwa [AlarmDraft.toWireDays, AlarmDraft.toWireDays, Finset.sort_toFinset,
      Finset.sort_toFinset] at members
  · intro same
    rw [AlarmDraft.toWireDays, AlarmDraft.toWireDays, same]

theorem source_name_inj {left right : DraftSource} (same : left.name = right.name) :
    left = right := by
  cases left <;> cases right <;> first | rfl | exact absurd same (by decide)

theorem wireEventId_eq :
    (before.wireEventId : Value δ) = after.wireEventId ↔
      before.toAlarmFields.unlabelled.provenance = after.toAlarmFields.unlabelled.provenance := by
  rw [AlarmDraft.wireEventId, AlarmDraft.wireEventId, AlarmFields.unlabelled, AlarmFields.unlabelled]
  cases before.provenance with
  | none =>
      cases after.provenance with
      | none => simp
      | some right => simp
  | some left =>
      cases after.provenance with
      | none => simp
      | some right => simp

theorem numbers_inj {days others : List Int64}
    (same : (days.map fun day => (.number (.int day) : Value δ)) =
      others.map fun day => .number (.int day)) : days = others := by
  apply List.map_injective_iff.mpr _ same
  intro day other equal
  cases equal
  rfl

/-- The wire form is all of a draft but the origin label. -/
theorem toWireAlarm_eq :
    (before.toWireAlarm : Value δ) = after.toWireAlarm ↔
      before.toAlarmFields.unlabelled = after.toAlarmFields.unlabelled := by
  have shape (draft : AlarmDraft) : (draft.toWireAlarm : Value δ) =
      .object (AlarmDraft.wireEntries (.string draft.id) (.string draft.label)
        (.boolean draft.enabled) (.string draft.localTime)
        (.array (draft.toWireDays.map fun day => .number (.int day))) (.string draft.timezone)
        (.number (.int draft.snoozeMinutes)) (.number (.int draft.volume)) (.string draft.sound)
        (.string draft.source.name) draft.wireEventId) := rfl
  rw [shape, shape, Json.object.injEq]
  constructor
  · intro same
    simp only [AlarmDraft.wireEntries, List.cons.injEq, Prod.mk.injEq, true_and, and_true,
      Json.string.injEq, Json.boolean.injEq, Json.array.injEq, Json.number.injEq,
      Number.int.injEq] at same
    obtain ⟨id, label, enabled, time, days, timezone, snooze, volume, sound, source, event⟩ := same
    obtain ⟨hour, minute⟩ := localTime_eq.mp time
    have mask := toWireDays_eq.mp (numbers_inj days)
    have provenance := wireEventId_eq.mp event
    rw [AlarmFields.unlabelled, AlarmFields.unlabelled, AlarmFields.mk.injEq]
    exact ⟨id, label, enabled, hour, minute, mask, timezone, snooze, volume, sound,
      source_name_inj source, provenance⟩
  · intro same
    have event := wireEventId_eq (δ := δ).mpr (congrArg AlarmFields.provenance same)
    rw [AlarmFields.unlabelled, AlarmFields.unlabelled, AlarmFields.mk.injEq] at same
    obtain ⟨id, label, enabled, hour, minute, mask, timezone, snooze, volume, sound, source, -⟩ :=
      same
    rw [id, label, enabled, localTime_eq.mpr ⟨hour, minute⟩, toWireDays_eq.mpr mask, timezone,
      snooze, volume, sound, source, event]

theorem unlabelled_id (fields : AlarmFields) : fields.unlabelled.id = fields.id := rfl

theorem not_originOnly :
    ¬ OriginOnly before after ↔ (before = after ↔ (before.toWireAlarm : Value δ) = after.toWireAlarm)
    := by
  rw [OriginOnly, toWireAlarm_eq, not_and', Classical.not_not]
  constructor
  · intro equal
    refine ⟨?_, equal⟩
    rintro rfl
    rfl
  · exact fun same => same.mpr

/-- The description of two drafts is empty exactly where the device sees no difference, but
for the origin label. -/
theorem describes_wire_iff (same : before.id = after.id) :
    (describeFieldChanges before after = .ok [] ↔
      (before.toWireAlarm : Value δ) = after.toWireAlarm) ↔ ¬ OriginOnly before after := by
  rw [describeFieldChanges_eq_nil same, not_originOnly]

end Wire

/-! ### Diffs -/

/-- The alarm under an id, as the device sees it. -/
def wireUnder (δ : Type) (alarms : List AlarmDraft) (id : DartString) : Option (Value δ) :=
  (alarms.find? fun alarm => alarm.id == id).map AlarmDraft.toWireAlarm

/-- The diff reports what the device would see, and no more. -/
structure ReportsExactly (δ : Type) (committed proposal : List AlarmDraft) (diff : ScheduleDiff) :
    Prop where
  /-- No change is a no-op. -/
  changes : ∀ change ∈ diff.changed,
    (change.before.toWireAlarm : Value δ) ≠ change.after.toWireAlarm
  /-- No difference is hidden. -/
  reported : ∀ id, wireUnder δ committed id ≠ wireUnder δ proposal id →
    id ∈ diff.added.map (·.id) ∨ id ∈ diff.removed.map (·.id) ∨
      id ∈ diff.changed.map (·.after.id)

section Diffs

variable {δ : Type} {committed proposal : List AlarmDraft} {diff : ScheduleDiff}

theorem wireUnder_of_mem (distinct : (committed.map (·.id)).Nodup) {alarm : AlarmDraft}
    (mem : alarm ∈ committed) : wireUnder δ committed alarm.id = some alarm.toWireAlarm := by
  cases found : committed.find? fun other => other.id == alarm.id with
  | none => exact absurd (beq_self_eq_true _) (List.find?_eq_none.mp found alarm mem)
  | some other =>
      have same := List.find?_some found
      have listed := List.mem_of_find?_eq_some found
      rw [wireUnder, found, List.inj_on_of_nodup_map distinct listed mem (beq_iff_eq.mp same)]
      rfl

theorem wireUnder_eq_none {id : DartString} (absent : id ∉ committed.map (·.id)) :
    wireUnder δ committed id = none := by
  rw [wireUnder, Option.map_eq_none_iff, List.find?_eq_none]
  intro alarm mem same
  exact absent (List.mem_map.mpr ⟨alarm, mem, beq_iff_eq.mp same⟩)

/-- A partition hides no difference. -/
theorem Partitions.reported (partition : Partitions committed proposal diff)
    (committedDistinct : (committed.map (·.id)).Nodup)
    (proposalDistinct : (proposal.map (·.id)).Nodup) {id : DartString}
    (differ : wireUnder δ committed id ≠ wireUnder δ proposal id) :
    id ∈ diff.added.map (·.id) ∨ id ∈ diff.removed.map (·.id) ∨
      id ∈ diff.changed.map (·.after.id) := by
  have listed : id ∈ diff.ids := by
    rw [partition.ids]
    by_contra neither
    rw [not_or] at neither
    rw [wireUnder_eq_none neither.1, wireUnder_eq_none neither.2] at differ
    exact differ rfl
  rw [ScheduleDiff.ids, List.mem_append, List.mem_append, List.mem_append] at listed
  rcases listed with ((added | removed) | changed) | unchanged
  · exact .inl added
  · exact .inr (.inl removed)
  · exact .inr (.inr changed)
  · obtain ⟨alarm, known, proposed, rfl⟩ := (partition.unchanged id).mp unchanged
    rw [wireUnder_of_mem committedDistinct known, wireUnder_of_mem proposalDistinct proposed]
      at differ
    exact absurd rfl differ

/-- The changes of a partition are real if and only if no alarm differs in its origin label
alone. -/
theorem Partitions.changes_iff (partition : Partitions committed proposal diff) :
    (∀ change ∈ diff.changed,
        (change.before.toWireAlarm : Value δ) ≠ change.after.toWireAlarm) ↔
      ∀ before ∈ committed, ∀ after ∈ proposal, ¬ OriginOnly before after := by
  constructor
  · intro real before known after proposed only
    have same : before.id = after.id := by
      rw [← unlabelled_id before.toAlarmFields, only.2, unlabelled_id]
    obtain ⟨change, mem, rfl, rfl⟩ :=
      (partition.changed before after).mpr ⟨known, proposed, same, only.1⟩
    exact real change mem (toWireAlarm_eq.mpr only.2)
  · intro none change mem same
    obtain ⟨known, proposed, -, differ⟩ :=
      (partition.changed change.before change.after).mp ⟨change, mem, rfl, rfl⟩
    exact differ ((not_originOnly.mp (none _ known _ proposed)).mpr same)

end Diffs

/-- Descriptions and diffs are about what the device would see if and only if no two drafts
differ in the origin label of their provenance alone. -/
theorem diff_reports_wire_changes (δ : Type) :
    (∀ before after : AlarmDraft, before.id = after.id →
      ((describeFieldChanges before after = .ok [] ↔
        (before.toWireAlarm : Value δ) = after.toWireAlarm) ↔ ¬ OriginOnly before after)) ∧
    ∀ committed proposal expectedRevision diff, (committed.map (·.id)).Nodup →
      diffSchedule committed proposal expectedRevision = .ok diff →
      (ReportsExactly δ committed proposal diff ↔
        ∀ before ∈ committed, ∀ after ∈ proposal, ¬ OriginOnly before after) := by
  constructor
  · intro before after same
    exact describes_wire_iff same
  · intro committed proposal expectedRevision diff distinct made
    have checks := (of_diffSchedule made).valid
    rw [diffSchedule_eq (validateProposal_eq_ok.mpr checks)] at made
    cases made
    have partition := @partitions_partitioned committed proposal expectedRevision distinct checks.ids
    constructor
    · intro exact
      exact partition.changes_iff.mp exact.changes
    · intro none
      constructor
      · exact partition.changes_iff.mpr none
      · intro id differ
        exact partition.reported distinct checks.ids differ

/-- One alarm of two is renamed: the diff reports just that change. -/
theorem diff_reports_wire_changes_renamed :
    let before := imported (utf16 "e1")
    let after : AlarmDraft :=
      { importedFields (utf16 "e1") with label := utf16 "b", valid := by rfl }
    let kept : AlarmDraft := { importedFields (utf16 "e1") with id := utf16 "b", valid := by rfl }
    (describeFieldChanges before after = .ok [] ↔
        (before.toWireAlarm : Value Empty) = after.toWireAlarm) ∧
      describeFieldChanges before after ≠ .ok [] ∧
      ∃ diff, diffSchedule [before, kept] [kept, after] 0 = .ok diff ∧
        diff.changed.map (·.after.id) = [utf16 "a"] ∧ diff.unchanged = [utf16 "b"] ∧
        ReportsExactly Empty [before, kept] [kept, after] diff := by
  intro before after kept
  have none : ∀ first ∈ [before, kept], ∀ second ∈ [kept, after], ¬ OriginOnly first second := by
    simp only [OriginOnly]
    decide
  have made : diffSchedule [before, kept] [kept, after] 0 = .ok _ := diffSchedule_eq (by decide)
  refine ⟨?_, by decide, _, made, ?_, ?_, ?_⟩
  · exact ((diff_reports_wire_changes Empty).1 before after rfl).mpr
      (none _ List.mem_cons_self _ (List.mem_cons_of_mem _ List.mem_cons_self))
  · decide +kernel
  · decide +kernel
  · exact ((diff_reports_wire_changes Empty).2 _ _ _ _ (by decide) made).mpr none

/-- An import, relabelled. -/
def relabelled (originLabel : DartString) : AlarmDraft :=
  { importedFields (utf16 "e1") with
    provenance := some { sourceEventId := utf16 "e1", originLabel }
    valid := by
      rfl }

/-- An import from another provider: the device sees no difference, and the diff reports a
change. -/
theorem relabelled_is_reported :
    ((relabelled (utf16 "ics")).toWireAlarm : Value Empty) =
        (relabelled (utf16 "other")).toWireAlarm ∧
      describeFieldChanges (relabelled (utf16 "ics")) (relabelled (utf16 "other")) ≠ .ok [] ∧
      ∃ diff, diffSchedule [relabelled (utf16 "ics")] [relabelled (utf16 "other")] 0 = .ok diff ∧
        ¬ ∀ change ∈ diff.changed,
          (change.before.toWireAlarm : Value Empty) ≠ change.after.toWireAlarm := by
  have differ : relabelled (utf16 "ics") ≠ relabelled (utf16 "other") := by
    decide
  have only : OriginOnly (relabelled (utf16 "ics")) (relabelled (utf16 "other")) :=
    ⟨differ, rfl⟩
  refine ⟨toWireAlarm_eq.mpr only.2, ?_, ?_⟩
  · have sameId : (relabelled (utf16 "ics")).id = (relabelled (utf16 "other")).id := rfl
    exact mt (describeFieldChanges_eq_nil sameId).mp differ
  · have made : diffSchedule [relabelled (utf16 "ics")] [relabelled (utf16 "other")] 0 = .ok _ :=
      diffSchedule_eq (by decide)
    refine ⟨_, made, ?_⟩
    rw [(partitions_partitioned (by decide) (by decide)).changes_iff]
    intro none
    exact none _ List.mem_cons_self _ List.mem_cons_self only

end DawnDock.App
