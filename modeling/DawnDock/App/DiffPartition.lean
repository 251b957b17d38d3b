import DawnDock.App.ScheduleDiff
import DawnDock.Library.KeyedDiff

/-!
What a schedule diff says of its two sides (`schedule_diff.dart`).

The diff is the keyed difference of the committed schedule and the proposal
(`diffSchedule_eq`, `classes_of_diff`): every id of either side is in one group, the groups
replay to the proposal, and the order of the sides is lost.
-/

namespace DawnDock.App

/-! ### The compared fields -/

/-- What `describeFieldChanges` compares, in the order of the codes. -/
inductive Field where
  | days | enabled | label | localTime | snoozeMinutes | sound | sourceOrProvenance | timezone
  | volume
deriving DecidableEq

namespace Field

def code : Field → DartString
  | .days => utf16 "days"
  | .enabled => utf16 "enabled"
  | .label => utf16 "label"
  | .localTime => utf16 "local-time"
  | .snoozeMinutes => utf16 "snooze-minutes"
  | .sound => utf16 "sound"
  | .sourceOrProvenance => utf16 "source-or-provenance"
  | .timezone => utf16 "timezone"
  | .volume => utf16 "volume"

def all : List Field :=
  [.days, .enabled, .label, .localTime, .snoozeMinutes, .sound, .sourceOrProvenance, .timezone,
    .volume]

/-- The order of the comparisons. -/
def compared : List Field :=
  [.label, .enabled, .localTime, .days, .timezone, .snoozeMinutes, .volume, .sound,
    .sourceOrProvenance]

/-- The field has two values. -/
def Differs (before after : AlarmFields) : Field → Prop
  | .days => before.days ≠ after.days
  | .enabled => before.enabled ≠ after.enabled
  | .label => before.label ≠ after.label
  | .localTime => before.localHour ≠ after.localHour ∨ before.localMinute ≠ after.localMinute
  | .snoozeMinutes => before.snoozeMinutes ≠ after.snoozeMinutes
  | .sound => before.sound ≠ after.sound
  | .sourceOrProvenance => before.source ≠ after.source ∨ before.provenance ≠ after.provenance
  | .timezone => before.timezone ≠ after.timezone
  | .volume => before.volume ≠ after.volume

instance (before after : AlarmFields) : DecidablePred (Differs before after)
  | .days => inferInstanceAs (Decidable (before.days ≠ after.days))
  | .enabled => inferInstanceAs (Decidable (before.enabled ≠ after.enabled))
  | .label => inferInstanceAs (Decidable (before.label ≠ after.label))
  | .localTime => inferInstanceAs (Decidable
      (before.localHour ≠ after.localHour ∨ before.localMinute ≠ after.localMinute))
  | .snoozeMinutes => inferInstanceAs (Decidable (before.snoozeMinutes ≠ after.snoozeMinutes))
  | .sound => inferInstanceAs (Decidable (before.sound ≠ after.sound))
  | .sourceOrProvenance => inferInstanceAs (Decidable
      (before.source ≠ after.source ∨ before.provenance ≠ after.provenance))
  | .timezone => inferInstanceAs (Decidable (before.timezone ≠ after.timezone))
  | .volume => inferInstanceAs (Decidable (before.volume ≠ after.volume))

/-- The codes of the fields that have two values. -/
def changes (before after : AlarmFields) : List DartString :=
  (all.filter (Differs before after ·)).map code

theorem all_sorted : (all.map code).Pairwise (· ≤ ·) := by
  decide +kernel

theorem compared_perm : compared.Perm all := by
  decide

theorem map_code_cons (p : Field → Bool) (field : Field) (rest : List Field) :
    ((field :: rest).filter p).map code =
      (if p field = true then [field.code] else []) ++ (rest.filter p).map code := by
  by_cases passes : p field = true
  · rw [List.filter_cons_of_pos passes, if_pos passes, List.map_cons, List.singleton_append]
  · rw [List.filter_cons_of_neg passes, if_neg passes, List.nil_append]

theorem changes_sorted (before after : AlarmFields) :
    (changes before after).Pairwise (· ≤ ·) :=
  all_sorted.sublist (List.filter_sublist.map code)

theorem mem_all (field : Field) : field ∈ all := by
  cases field <;> decide

theorem changes_eq_nil {before after : AlarmFields} :
    changes before after = [] ↔ ∀ field, ¬ Differs before after field := by
  rw [changes, List.map_eq_nil_iff, List.filter_eq_nil_iff]
  constructor
  · intro none field differs
    exact none field (mem_all field) (decide_eq_true differs)
  · intro none field _ differs
    exact none field (of_decide_eq_true differs)

/-- The fields are all that a draft has besides its id. -/
theorem changes_eq_nil_iff {before after : AlarmFields} (same : before.id = after.id) :
    changes before after = [] ↔ before = after := by
  rw [changes_eq_nil]
  constructor
  · intro none
    have days := not_not.mp (none .days)
    have enabled := not_not.mp (none .enabled)
    have label := not_not.mp (none .label)
    obtain ⟨hour, minute⟩ := not_or.mp (none .localTime)
    have snooze := not_not.mp (none .snoozeMinutes)
    have sound := not_not.mp (none .sound)
    obtain ⟨source, provenance⟩ := not_or.mp (none .sourceOrProvenance)
    have timezone := not_not.mp (none .timezone)
    have volume := not_not.mp (none .volume)
    cases before
    cases after
    rw [AlarmFields.mk.injEq]
    exact ⟨same, label, enabled, not_not.mp hour, not_not.mp minute, days, timezone, snooze, volume,
      sound, not_not.mp source, not_not.mp provenance⟩
  · rintro rfl field
    cases field <;> simp [Differs]

end Field

theorem AlarmDraft.ext_fields {left right : AlarmDraft}
    (same : left.toAlarmFields = right.toAlarmFields) : left = right := by
  cases left
  cases right
  cases same
  rfl

section Describe

variable {before after : AlarmDraft}

/-- The description lists exactly the fields that differ. -/
theorem describeFieldChanges_eq (same : before.id = after.id) :
    describeFieldChanges before after =
      .ok (Field.changes before.toAlarmFields after.toAlarmFields) := by
  have sorted : ((Field.compared.filter
      (Field.Differs before.toAlarmFields after.toAlarmFields ·)).map Field.code).insertionSort
        (· ≤ ·) = Field.changes before.toAlarmFields after.toAlarmFields := by
    apply List.Perm.eq_of_pairwise _ (List.pairwise_insertionSort _ _) (Field.changes_sorted _ _)
    · exact (List.perm_insertionSort _ _).trans ((Field.compared_perm.filter _).map Field.code)
    · intro left right _ _ le ge
      exact Std.le_antisymm le ge
  rw [← sorted, describeFieldChanges, if_neg (not_not.mpr same)]
  simp only [Field.compared, Field.map_code_cons, decide_eq_true_eq, List.append_assoc,
    List.filter_nil, List.map_nil, List.append_nil]
  rfl

theorem describeFieldChanges_eq_nil (same : before.id = after.id) :
    describeFieldChanges before after = .ok [] ↔ before = after := by
  rw [describeFieldChanges_eq same, Except.ok.injEq, Field.changes_eq_nil_iff same]
  constructor
  · exact AlarmDraft.ext_fields
  · rintro rfl
    rfl

/-- A changed alarm can be built of two different drafts with one id. -/
theorem create_eq_ok {change : ChangedAlarm} :
    ChangedAlarm.create before after = .ok change ↔
      change.before = before ∧ change.after = after := by
  unfold ChangedAlarm.create
  constructor
  · intro created
    split at created
    · cases created
    split at created
    · cases created
    · cases created
      exact ⟨rfl, rfl⟩
  · rintro ⟨rfl, rfl⟩
    split
    · rename_i error failed
      rw [change.described] at failed
      cases failed
    rename_i codes described
    rw [change.described] at described
    cases described
    rw [dif_neg change.differs]

end Describe

theorem ChangedAlarm.id_eq (change : ChangedAlarm) : change.before.id = change.after.id := by
  have described := change.described
  rw [describeFieldChanges] at described
  split at described
  · cases described
  · rename_i same
    exact not_not.mp same

theorem ChangedAlarm.fieldCodes_eq (change : ChangedAlarm) :
    change.fieldCodes =
      Field.changes change.before.toAlarmFields change.after.toAlarmFields := by
  have described := change.described
  rw [describeFieldChanges_eq change.id_eq, Except.ok.injEq] at described
  exact described.symm

theorem ChangedAlarm.before_ne_after (change : ChangedAlarm) : change.before ≠ change.after := by
  intro same
  apply change.differs
  rw [change.fieldCodes_eq, Field.changes_eq_nil_iff change.id_eq, same]

theorem create_ok_of_ne {before after : AlarmDraft} (same : before.id = after.id)
    (differ : before ≠ after) :
    ∃ change, ChangedAlarm.create before after = .ok change := by
  obtain ⟨change, created, -⟩ := create_ok (describeFieldChanges_eq same) fun none =>
    differ (AlarmDraft.ext_fields ((Field.changes_eq_nil_iff same).mp none))
  exact ⟨change, created⟩

/-! ### The groups -/

section Groups

variable {baseline proposal : List AlarmDraft} {expectedRevision : Int64}

theorem findBaseline_eq (id : DartString) :
    findBaseline baseline id = KeyedDiff.last (fun alarm : AlarmDraft => alarm.id) baseline id := by
  rw [findBaseline, KeyedDiff.last]
  congr 1
  funext alarm
  change (alarm.id == id) = decide (alarm.id = id)
  rw [Bool.eq_iff_iff, beq_iff_eq, decide_eq_true_eq]

/-- The changed alarm that a draft of the proposal is, if it is one. -/
def changeOf (baseline : List AlarmDraft) (alarm : AlarmDraft) : Option ChangedAlarm :=
  (findBaseline baseline alarm.id).bind fun before => (ChangedAlarm.create before alarm).toOption

/-- The groups of the proposal, alarm by alarm. -/
def groups (baseline proposal : List AlarmDraft) : Classified where
  added := proposal.filter fun alarm => findBaseline baseline alarm.id = none
  changed := proposal.filterMap (changeOf baseline)
  unchanged := proposal.filter fun alarm => findBaseline baseline alarm.id = some alarm

theorem classify_eq (baseline proposal : List AlarmDraft) :
    classify baseline proposal = .ok (groups baseline proposal) := by
  induction proposal with
  | nil => rfl
  | cons alarm rest ih =>
      rw [classify, groups]
      cases found : findBaseline baseline alarm.id with
      | none =>
          have unchanged : ¬ decide (findBaseline baseline alarm.id = some alarm) = true := by
            rw [found, decide_eq_true_eq]
            intro never
            cases never
          have change : changeOf baseline alarm = none := by
            rw [changeOf, found, Option.bind_none]
          rw [List.filter_cons_of_pos (by exact decide_eq_true found),
            List.filterMap_cons_none change, List.filter_cons_of_neg (by exact unchanged)]
          dsimp only
          rw [ih]
          rfl
      | some before =>
          have added : ¬ decide (findBaseline baseline alarm.id = none) = true := by
            rw [found, decide_eq_true_eq]
            intro never
            cases never
          have same := findBaseline_id found
          rw [List.filter_cons_of_neg (by exact added)]
          dsimp only
          rw [describeFieldChanges_eq same, ih]
          change (if Field.changes _ _ = [] then _ else _) = _
          by_cases equal : before = alarm
          · cases equal
            have change : changeOf baseline alarm = none := by
              rw [changeOf, found, Option.bind_some]
              cases created : ChangedAlarm.create alarm alarm with
              | error error => rfl
              | ok change =>
                  obtain ⟨left, right⟩ := create_eq_ok.mp created
                  exact absurd (left.trans right.symm) change.before_ne_after
            rw [if_pos ((Field.changes_eq_nil_iff rfl).mpr rfl),
              List.filterMap_cons_none change,
              List.filter_cons_of_pos (by exact decide_eq_true found)]
            rfl
          · obtain ⟨change, created⟩ := create_ok_of_ne same equal
            have some : changeOf baseline alarm = some change := by
              rw [changeOf, found, Option.bind_some, created]
              rfl
            have unchanged : ¬ decide (findBaseline baseline alarm.id = Option.some alarm) = true := by
              rw [found, decide_eq_true_eq, Option.some.injEq]
              exact equal
            rw [if_neg fun none =>
                equal (AlarmDraft.ext_fields ((Field.changes_eq_nil_iff same).mp none)),
              List.filterMap_cons_some some, List.filter_cons_of_neg (by exact unchanged), created]
            rfl

theorem mem_changeOf (distinct : (baseline.map (·.id)).Nodup) {alarm : AlarmDraft}
    {change : ChangedAlarm} :
    changeOf baseline alarm = some change ↔
      change.after = alarm ∧ change.before ∈ baseline := by
  rw [changeOf, Option.bind_eq_some_iff]
  constructor
  · rintro ⟨before, found, created⟩
    cases made : ChangedAlarm.create before alarm with
    | error error =>
        rw [made] at created
        cases created
    | ok other =>
        rw [made] at created
        cases created
        obtain ⟨rfl, rfl⟩ := create_eq_ok.mp made
        rw [findBaseline_eq] at found
        exact ⟨rfl, (KeyedDiff.mem_of_last found).1⟩
  · rintro ⟨rfl, known⟩
    refine ⟨change.before, ?_, ?_⟩
    · rw [findBaseline_eq, KeyedDiff.last_eq_some distinct]
      exact ⟨known, change.id_eq⟩
    · rw [create_eq_ok.mpr ⟨rfl, rfl⟩]
      rfl

/-- The groups of two sides with distinct ids. -/
theorem classes_groups (committed : (baseline.map (·.id)).Nodup) :
    KeyedDiff.Classes (fun alarm : AlarmDraft => alarm.id) baseline proposal
      (groups baseline proposal).added
      (baseline.filter fun alarm => !(proposal.map (·.id)).contains alarm.id)
      ((groups baseline proposal).changed.map (·.after))
      (groups baseline proposal).unchanged where
  added alarm := by
    rw [groups, List.mem_filter, decide_eq_true_eq, findBaseline_eq, KeyedDiff.last_eq_none]
  removed alarm := by
    rw [List.mem_filter, Bool.not_eq_true', ← Bool.not_eq_true, List.contains_iff_mem]
  replaced alarm := by
    rw [groups, List.mem_map]
    constructor
    · rintro ⟨change, mem, rfl⟩
      obtain ⟨other, proposed, found⟩ := List.mem_filterMap.mp mem
      obtain ⟨rfl, known⟩ := (mem_changeOf committed).mp found
      have listed : change.after.id ∈ baseline.map (·.id) :=
        List.mem_map.mpr ⟨change.before, known, change.id_eq⟩
      refine ⟨proposed, ?_, listed⟩
      intro same
      exact change.before_ne_after (List.inj_on_of_nodup_map committed known same change.id_eq)
    · rintro ⟨proposed, differs, listed⟩
      obtain ⟨before, known, same⟩ := List.mem_map.mp listed
      have differ : before ≠ alarm := fun equal => differs (equal ▸ known)
      obtain ⟨change, created⟩ := create_ok_of_ne same differ
      obtain ⟨rfl, rfl⟩ := create_eq_ok.mp created
      exact ⟨change, List.mem_filterMap.mpr
        ⟨_, proposed, (mem_changeOf committed).mpr ⟨rfl, known⟩⟩, rfl⟩
  kept alarm := by
    rw [groups, List.mem_filter, decide_eq_true_eq, findBaseline_eq,
      KeyedDiff.last_eq_some committed, and_iff_left rfl]

/-- The diff of a valid proposal. -/
def partitioned (baseline proposal : List AlarmDraft) (expectedRevision : Int64) : ScheduleDiff :=
  { expectedRevision
    added := sortById (groups baseline proposal).added
    removed := sortById
      (baseline.filter fun alarm => !(proposal.map (·.id)).contains alarm.id)
    changed := sortChangedById (groups baseline proposal).changed
    unchangedAlarms := sortById (groups baseline proposal).unchanged }

theorem diffSchedule_eq (valid : validateProposal proposal = .ok ()) :
    diffSchedule baseline proposal expectedRevision =
      .ok (partitioned baseline proposal expectedRevision) := by
  rw [diffSchedule, valid]
  change (classify baseline proposal >>= _) = _
  rw [classify_eq]
  rfl

theorem sortChangedById_eq (changed : List ChangedAlarm) :
    sortChangedById changed =
      KeyedDiff.sortByKey (fun change : ChangedAlarm => change.after.id) changed := rfl

/-! ### The order of the sides -/

theorem changed_after_sublist (baseline proposal : List AlarmDraft) :
    ((groups baseline proposal).changed.map (·.after)).Sublist proposal := by
  rw [groups]
  induction proposal with
  | nil => exact .slnil
  | cons alarm rest ih =>
      cases found : changeOf baseline alarm with
      | none =>
          rw [List.filterMap_cons_none found]
          exact ih.cons alarm
      | some change =>
          have after : change.after = alarm := by
            obtain ⟨before, -, created⟩ := Option.bind_eq_some_iff.mp found
            cases made : ChangedAlarm.create before alarm with
            | error error =>
                rw [made] at created
                cases created
            | ok other =>
                rw [made] at created
                cases created
                exact (create_eq_ok.mp made).2
          rw [List.filterMap_cons_some found, List.map_cons, after]
          exact ih.cons_cons alarm

theorem changed_ids_nodup (distinct : (proposal.map (·.id)).Nodup) :
    ((groups baseline proposal).changed.map (·.after.id)).Nodup := by
  have ids := (changed_after_sublist baseline proposal).map (·.id)
  rw [List.map_map] at ids
  exact distinct.sublist ids

/-- The diff does not depend on the order of either side. -/
theorem partitioned_perm {committed proposed : List AlarmDraft}
    (baselinePerm : baseline.Perm committed) (proposalPerm : proposal.Perm proposed)
    (baselineDistinct : (baseline.map (·.id)).Nodup)
    (proposalDistinct : (proposal.map (·.id)).Nodup) :
    partitioned baseline proposal expectedRevision =
      partitioned committed proposed expectedRevision := by
  have found (id : DartString) : findBaseline baseline id = findBaseline committed id := by
    rw [findBaseline_eq, findBaseline_eq, KeyedDiff.last_perm baselinePerm baselineDistinct]
  have changes : changeOf baseline = changeOf committed := by
    funext alarm
    rw [changeOf, changeOf, found]
  have contained (alarm : AlarmDraft) : (proposal.map (·.id)).contains alarm.id =
      (proposed.map (·.id)).contains alarm.id := by
    rw [Bool.eq_iff_iff, List.contains_iff_mem, List.contains_iff_mem,
      (proposalPerm.map _).mem_iff]
  rw [partitioned, partitioned, ScheduleDiff.mk.injEq]
  refine ⟨rfl, ?_, ?_, ?_, ?_⟩
  · apply KeyedDiff.sortByKey_eq_of_perm
    · simp only [groups, found]
      exact proposalPerm.filter _
    · exact proposalDistinct.sublist (List.filter_sublist.map _)
  · apply KeyedDiff.sortByKey_eq_of_perm
    · simp only [contained]
      exact baselinePerm.filter _
    · exact baselineDistinct.sublist (List.filter_sublist.map _)
  · apply KeyedDiff.sortByKey_eq_of_perm
    · rw [groups, groups, changes]
      exact proposalPerm.filterMap _
    · exact changed_ids_nodup proposalDistinct
  · apply KeyedDiff.sortByKey_eq_of_perm
    · simp only [groups, found]
      exact proposalPerm.filter _
    · exact proposalDistinct.sublist (List.filter_sublist.map _)

end Groups

/-! ### The partition -/

namespace ScheduleDiff

/-- The ids of the four groups. -/
def ids (diff : ScheduleDiff) : List DartString :=
  diff.added.map (·.id) ++ diff.removed.map (·.id) ++ diff.changed.map (·.after.id) ++
    diff.unchanged

/-- What a committed alarm is replaced with. -/
def replacement (diff : ScheduleDiff) (alarm : AlarmDraft) : AlarmDraft :=
  match diff.changed.find? fun change => change.before == alarm with
  | some change => change.after
  | none => alarm

/-- The committed schedule without the removed alarms, with the changed ones replaced and
the added ones added. -/
def replay (diff : ScheduleDiff) (committed : List AlarmDraft) : List AlarmDraft :=
  KeyedDiff.replay diff.removed.contains diff.replacement diff.added committed

end ScheduleDiff

/-- What the groups of a diff are. -/
structure Partitions (committed proposal : List AlarmDraft) (diff : ScheduleDiff) : Prop where
  nodup : diff.ids.Nodup
  ids (id : DartString) :
    id ∈ diff.ids ↔ id ∈ committed.map (·.id) ∨ id ∈ proposal.map (·.id)
  added (alarm : AlarmDraft) :
    alarm ∈ diff.added ↔ alarm ∈ proposal ∧ alarm.id ∉ committed.map (·.id)
  removed (alarm : AlarmDraft) :
    alarm ∈ diff.removed ↔ alarm ∈ committed ∧ alarm.id ∉ proposal.map (·.id)
  changed (before after : AlarmDraft) :
    (∃ change ∈ diff.changed, change.before = before ∧ change.after = after) ↔
      before ∈ committed ∧ after ∈ proposal ∧ before.id = after.id ∧ before ≠ after
  unchanged (id : DartString) :
    id ∈ diff.unchanged ↔ ∃ alarm ∈ committed, alarm ∈ proposal ∧ alarm.id = id
  codes : ∀ change ∈ diff.changed,
    change.fieldCodes = (Field.all.filter
      (Field.Differs change.before.toAlarmFields change.after.toAlarmFields ·)).map Field.code

section Partition

variable {committed proposal : List AlarmDraft} {expectedRevision : Int64}

theorem mem_changed_partitioned (distinct : (committed.map (·.id)).Nodup) {change : ChangedAlarm} :
    change ∈ (partitioned committed proposal expectedRevision).changed ↔
      change.before ∈ committed ∧ change.after ∈ proposal := by
  rw [partitioned, sortChangedById_eq, KeyedDiff.mem_sortByKey, groups, List.mem_filterMap]
  constructor
  · rintro ⟨alarm, proposed, found⟩
    obtain ⟨rfl, known⟩ := (mem_changeOf distinct).mp found
    exact ⟨known, proposed⟩
  · rintro ⟨known, proposed⟩
    exact ⟨_, proposed, (mem_changeOf distinct).mpr ⟨rfl, known⟩⟩

/-- The groups stay what they are where they are sorted. -/
theorem classes_partitioned (distinct : (committed.map (·.id)).Nodup) :
    KeyedDiff.Classes (fun alarm : AlarmDraft => alarm.id) committed proposal
      (partitioned committed proposal expectedRevision).added
      (partitioned committed proposal expectedRevision).removed
      ((partitioned committed proposal expectedRevision).changed.map (·.after))
      (partitioned committed proposal expectedRevision).unchangedAlarms where
  added alarm := (KeyedDiff.mem_sortByKey _).trans ((classes_groups distinct).added alarm)
  removed alarm := (KeyedDiff.mem_sortByKey _).trans ((classes_groups distinct).removed alarm)
  replaced alarm := by
    rw [partitioned, sortChangedById_eq,
      ((KeyedDiff.sortByKey_perm _ (groups committed proposal).changed).map _).mem_iff]
    exact (classes_groups distinct).replaced alarm
  kept alarm := (KeyedDiff.mem_sortByKey _).trans ((classes_groups distinct).kept alarm)

/-- The ids in the diff are those of its alarms. -/
theorem ScheduleDiff.ids_perm (diff : ScheduleDiff) :
    diff.ids.Perm ((diff.added ++ diff.removed ++ diff.changed.map (·.after) ++
      diff.unchangedAlarms).map (·.id)) := by
  rw [List.map_append, List.map_append, List.map_append, List.map_map]
  exact (List.Perm.refl _).append (List.perm_insertionSort _ _)

theorem partitioned_nodup (committedDistinct : (committed.map (·.id)).Nodup)
    (proposalDistinct : (proposal.map (·.id)).Nodup) :
    (partitioned committed proposal expectedRevision).ids.Nodup := by
  have sorted {alarms : List AlarmDraft} (distinct : (alarms.map (·.id)).Nodup) :
      ((sortById alarms).map (·.id)).Nodup :=
    ((KeyedDiff.sortByKey_perm _ alarms).map _).nodup_iff.mpr distinct
  rw [(ScheduleDiff.ids_perm _).nodup_iff]
  apply KeyedDiff.keys_nodup (classes_partitioned committedDistinct) proposalDistinct
  · exact sorted (proposalDistinct.sublist (List.filter_sublist.map _))
  · exact sorted (committedDistinct.sublist (List.filter_sublist.map _))
  · rw [List.map_map, partitioned]
    exact ((KeyedDiff.sortByKey_perm _ _).map _).nodup_iff.mpr
      (changed_ids_nodup proposalDistinct)
  · exact sorted (proposalDistinct.sublist (List.filter_sublist.map _))

theorem partitions_partitioned (committedDistinct : (committed.map (·.id)).Nodup)
    (proposalDistinct : (proposal.map (·.id)).Nodup) :
    Partitions committed proposal (partitioned committed proposal expectedRevision) where
  nodup := partitioned_nodup committedDistinct proposalDistinct
  ids id := by
    rw [(ScheduleDiff.ids_perm _).mem_iff]
    exact KeyedDiff.mem_keys (classes_partitioned committedDistinct) id
  added := (classes_partitioned committedDistinct).added
  removed := (classes_partitioned committedDistinct).removed
  changed before after := by
    constructor
    · rintro ⟨change, mem, rfl, rfl⟩
      obtain ⟨known, proposed⟩ := (mem_changed_partitioned committedDistinct).mp mem
      exact ⟨known, proposed, change.id_eq, change.before_ne_after⟩
    · rintro ⟨known, proposed, same, differ⟩
      obtain ⟨change, created⟩ := create_ok_of_ne same differ
      obtain ⟨rfl, rfl⟩ := create_eq_ok.mp created
      exact ⟨change, (mem_changed_partitioned committedDistinct).mpr ⟨known, proposed⟩, rfl, rfl⟩
  unchanged id := by
    rw [ScheduleDiff.unchanged, List.mem_insertionSort, List.mem_map]
    constructor
    · rintro ⟨alarm, mem, rfl⟩
      obtain ⟨proposed, known⟩ := ((classes_partitioned committedDistinct).kept alarm).mp mem
      exact ⟨alarm, known, proposed, rfl⟩
    · rintro ⟨alarm, known, proposed, rfl⟩
      exact ⟨alarm, ((classes_partitioned committedDistinct).kept alarm).mpr ⟨proposed, known⟩, rfl⟩
  codes := fun change _ => change.fieldCodes_eq

/-- A committed alarm is replaced with the one of the proposal that has its id. -/
theorem replacement_eq (committedDistinct : (committed.map (·.id)).Nodup)
    (proposalDistinct : (proposal.map (·.id)).Nodup) {before after : AlarmDraft}
    (known : before ∈ committed) (proposed : after ∈ proposal) (same : after.id = before.id) :
    (partitioned committed proposal expectedRevision).replacement before = after := by
  have replaced {change : ChangedAlarm}
      (mem : change ∈ (partitioned committed proposal expectedRevision).changed)
      (starts : change.before = before) : change.after = after := by
    have listed := ((mem_changed_partitioned committedDistinct).mp mem).2
    apply List.inj_on_of_nodup_map proposalDistinct listed proposed
    rw [same, ← starts, change.id_eq]
  rw [ScheduleDiff.replacement]
  split
  · rename_i change found
    exact replaced (List.mem_of_find?_eq_some found) (by simpa using List.find?_some found)
  · rename_i none
    by_contra differ
    obtain ⟨change, mem, starts, -⟩ :=
      ((partitions_partitioned committedDistinct proposalDistinct).changed before after).mpr
        ⟨known, proposed, same.symm, differ⟩
    exact List.find?_eq_none.mp none change mem (beq_iff_eq.mpr starts)

/-- The replay of a diff is the proposal, as a set. -/
theorem mem_replay (committedDistinct : (committed.map (·.id)).Nodup)
    (proposalDistinct : (proposal.map (·.id)).Nodup) (alarm : AlarmDraft) :
    alarm ∈ (partitioned committed proposal expectedRevision).replay committed ↔
      alarm ∈ proposal := by
  apply KeyedDiff.mem_replay (classes_partitioned committedDistinct)
  · intro before _
    exact List.contains_iff_mem
  · intro before known after proposed same
    exact replacement_eq committedDistinct proposalDistinct known proposed same

/-- Of two sides with distinct ids the diff is a partition that replays to the proposal, and
does not depend on their order; only a proposal over the device's bound is refused. -/
theorem diff_partitions (committed proposal : List AlarmDraft) (expectedRevision : Int64)
    (committedDistinct : (committed.map (·.id)).Nodup)
    (proposalDistinct : (proposal.map (·.id)).Nodup) :
    (kMaxStoredAlarms < proposal.length →
      ∃ message, diffSchedule committed proposal expectedRevision =
        .error (.argumentError message)) ∧
    (proposal.length ≤ kMaxStoredAlarms →
      ∃ diff, diffSchedule committed proposal expectedRevision = .ok diff ∧
        Partitions committed proposal diff ∧
        (∀ alarm, alarm ∈ diff.replay committed ↔ alarm ∈ proposal) ∧
        diff.proposedOrder.Perm proposal ∧
        ∀ reordered proposed, committed.Perm reordered → proposal.Perm proposed →
          diffSchedule reordered proposed expectedRevision = .ok diff) := by
  constructor
  · intro long
    rcases diffSchedule_cases committed proposal expectedRevision with refused | ⟨diff, made⟩
    · exact refused
    · exact absurd (of_diffSchedule made).valid.fits (Nat.not_le.mpr long)
  · intro fits
    have checks : ProposalChecks proposal := ⟨fits, proposalDistinct⟩
    have made := @diffSchedule_eq committed proposal expectedRevision
      (validateProposal_eq_ok.mpr checks)
    refine ⟨_, made, partitions_partitioned committedDistinct proposalDistinct,
      mem_replay committedDistinct proposalDistinct, (of_diffSchedule made).perm, ?_⟩
    intro reordered proposed committedPerm proposalPerm
    rw [partitioned_perm committedPerm proposalPerm committedDistinct proposalDistinct]
    apply diffSchedule_eq
    rw [validateProposal_eq_ok]
    constructor
    · rw [← proposalPerm.length_eq]
      exact fits
    · exact (proposalPerm.map _).nodup_iff.mp proposalDistinct

/-- The draft with the least of everything, under some id. -/
def numbered (number : Fin 40) : AlarmDraft :=
  { importedFields (utf16 "e1") with
    id := List.replicate (number.val + 1) 0x61
    valid := by
      revert number
      decide +kernel }

theorem diff_partitions_example :
    ([numbered 0, numbered 1].map (·.id)).Nodup ∧ ([numbered 2, numbered 1].map (·.id)).Nodup ∧
      ∃ diff, diffSchedule [numbered 0, numbered 1] [numbered 2, numbered 1] 3 = .ok diff ∧
        Partitions [numbered 0, numbered 1] [numbered 2, numbered 1] diff := by
  have committed : ([numbered 0, numbered 1].map (·.id)).Nodup := by
    decide
  have proposal : ([numbered 2, numbered 1].map (·.id)).Nodup := by
    decide
  obtain ⟨diff, made, partition, -⟩ :=
    (diff_partitions [numbered 0, numbered 1] [numbered 2, numbered 1] 3 committed proposal).2
      (by decide)
  exact ⟨committed, proposal, diff, made, partition⟩

/-- A proposal of 33 alarms has no diff. -/
theorem long_proposal_has_no_diff :
    (((List.finRange 33).map fun number => numbered (number.castLE (by decide))).map
        (·.id)).Nodup ∧
      ∀ diff, diffSchedule []
        ((List.finRange 33).map fun number => numbered (number.castLE (by decide))) 0 ≠
          .ok diff := by
  constructor
  · decide +kernel
  · intro diff made
    have fits := (of_diffSchedule made).valid.fits
    rw [List.length_map, List.length_finRange] at fits
    exact absurd fits (by decide)

end Partition

end DawnDock.App
