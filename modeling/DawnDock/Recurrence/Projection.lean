import DawnDock.App.DeviceStatus
import DawnDock.Protocol.TextParity
import DawnDock.Recurrence.Materializer
import DawnDock.Recurrence.Parity

/-!
The next alarm that the phone shows is the first that the device materializes
(`projection_agrees`).

Alarm by alarm the two fail together (`SameAlarm.agrees`), so the phone withholds its next
alarm exactly if the device materializes nothing; and both sort by the instant and then by
the id, whose UTF-16 code units go in the order of its bytes (`projectedBefore_eq`).
-/

namespace DawnDock

/-! ### The same values in both languages -/

/-- The same characters. -/
def SameText (device : Text) (app : App.DartString) : Prop :=
  ∃ text : String, device = utf8 text ∧ app = App.utf16 text

/-- The draft's alarm as the device holds it, under rules of that version. -/
structure SameAlarm (version : String) (device : WeeklyAlarmDefinition) (draft : App.AlarmDraft) :
    Prop where
  id : SameText device.id draft.id
  revision : device.scheduleRevision ≠ 0
  enabled : device.enabled = draft.enabled
  timezone : SameText device.schedule.timezoneName draft.timezone
  schedule : SameSchedule device.schedule (App.WeeklyOccurrenceSchedule.fromAlarm draft version)

/-- The rules provider that looks the name up. -/
def rulesByName (rules : List App.TimezoneRules) (timezone : App.DartString) :
    Option App.TimezoneRules :=
  rules.find? fun candidate => App.utf16 candidate.name == timezone

/-- The resolution an entry comes from. -/
def MaterializedAlarm.occurrence (entry : MaterializedAlarm) : ResolvedOccurrence where
  status := .resolved
  scheduledUtcSeconds := entry.storedAlarm.scheduledUtcSeconds
  localDate := entry.localDate
  resolvedLocalHour := entry.resolvedLocalHour
  resolvedLocalMinute := entry.resolvedLocalMinute
  utcOffsetSeconds := entry.utcOffsetSeconds
  shiftedForGap := entry.shiftedForGap
  ambiguousFold := entry.ambiguousFold

/-- The phone shows the entry: its alarm, instant, local date and time, offset and flags. -/
structure Shows (entry : MaterializedAlarm) (shown : App.ProjectedOccurrence) : Prop where
  id : SameText entry.storedAlarm.id shown.alarm.id
  enabled : entry.storedAlarm.enabled = true
  occurrence : SameOccurrence entry.occurrence shown.occurrence

theorem SameText.ne_nil {device : Text} {app : App.DartString} (same : SameText device app)
    (nonempty : app ≠ []) : device ≠ [] := by
  obtain ⟨text, rfl, rfl⟩ := same
  intro empty
  rw [utf8_eq, ← List.isEmpty_iff, ← Utf16.encode_isEmpty, List.isEmpty_iff] at empty
  exact nonempty empty

/-! ### Rules -/

section

variable {rules : List TimezoneRules} {appRules : List App.TimezoneRules}
  {schedule : WeeklyAlarmSchedule}

theorem findMatchingRules_absent {name : String}
    (same : List.Forall₂ SameRules rules appRules) (absent : name ∉ appRules.map (·.name))
    (named : schedule.timezoneName = utf8 name) : findMatchingRules rules schedule = none := by
  induction same with
  | nil => rfl
  | @cons device app _ _ first _ ih =>
      rw [List.map_cons, List.mem_cons, not_or] at absent
      have other : (device.name == schedule.timezoneName) = false := by
        rw [beq_eq_false_iff_ne, first.name, named, ne_eq, utf8_inj]
        exact Ne.symm absent.1
      rw [findMatchingRules, List.find?_cons, other]
      exact ih absent.2

/-- Both look the zone up alike, up to the version of its rules. -/
theorem findMatchingRules_agrees {name : String}
    (same : List.Forall₂ SameRules rules appRules) (distinct : (appRules.map (·.name)).Nodup)
    (named : schedule.timezoneName = utf8 name) :
    (rulesByName appRules (App.utf16 name) = none ∧ findMatchingRules rules schedule = none) ∨
      ∃ device app, SameRules device app ∧ rulesByName appRules (App.utf16 name) = some app ∧
        findMatchingRules rules schedule =
          if device.version == schedule.timezoneRulesVersion then some device else none := by
  induction same with
  | nil => exact .inl ⟨rfl, rfl⟩
  | @cons device app _ _ first rest ih =>
      rw [List.map_cons, List.nodup_cons] at distinct
      by_cases own : app.name = name
      · subst own
        right
        refine ⟨device, app, first, ?_, ?_⟩
        · rw [rulesByName, List.find?_cons, beq_self_eq_true]
        · have here : (device.name == schedule.timezoneName) = true := by
            rw [beq_iff_eq, first.name, named]
          rw [findMatchingRules, List.find?_cons, here, Bool.true_and]
          cases device.version == schedule.timezoneRulesVersion with
          | true => rfl
          | false => exact findMatchingRules_absent rest distinct.1 named
      · have appOther : (App.utf16 app.name == App.utf16 name) = false := by
          rw [beq_eq_false_iff_ne, ne_eq, utf16_inj]
          exact own
        have other : (device.name == schedule.timezoneName) = false := by
          rw [beq_eq_false_iff_ne, first.name, named, ne_eq, utf8_inj]
          exact own
        rw [rulesByName, List.find?_cons, appOther, findMatchingRules, List.find?_cons, other]
        exact ih distinct.2

end

/-! ### One alarm -/

section

variable {rules : List TimezoneRules} {appRules : List App.TimezoneRules} {version : String}
  {afterUtcSeconds : Int64} {device : WeeklyAlarmDefinition} {draft : App.AlarmDraft}

theorem SameAlarm.valid (same : SameAlarm version device draft) :
    validAlarmDefinition device = true := by
  have nonempty : draft.id ≠ [] := by
    intro empty
    have checked := (App.validate_eq_ok.mp draft.valid).id
    rw [empty] at checked
    cases checked
  simp [validAlarmDefinition, same.id.ne_nil nonempty, same.revision]

/-- A disabled alarm has an entry. -/
theorem SameAlarm.disabled (same : SameAlarm version device draft)
    (disabled : draft.enabled = false) : ∃ entry, entry.storedAlarm.enabled = false ∧
      entry.storedAlarm.id = device.id ∧
      materializeAlarm rules afterUtcSeconds device = .ok entry := by
  have inactive : device.enabled = false := same.enabled.trans disabled
  unfold materializeAlarm
  simp only [same.valid, inactive, Bool.not_true, Bool.not_false, Bool.false_eq_true, if_false,
    if_true]
  exact ⟨_, rfl, rfl, rfl⟩

/-- Rules of another version resolve nothing. -/
theorem resolve_otherVersion {schedule : App.WeeklyOccurrenceSchedule} {found : App.TimezoneRules}
    (other : schedule.timezoneRulesVersion ≠ found.version) :
    (App.resolveNextOccurrence schedule found afterUtcSeconds).status ≠ .resolved := by
  unfold App.resolveNextOccurrence
  split
  · simp
  split
  · simp
  · rename_i usable
    simp only [Bool.or_eq_true, bne_iff_ne, ne_eq, not_or] at usable
    exact absurd (not_not.mp usable.1.2) other

/-- Both resolve an enabled alarm to the same occurrence, or neither does. -/
theorem SameAlarm.agrees (same : SameAlarm version device draft) (enabled : draft.enabled = true)
    (sameRules : List.Forall₂ SameRules rules appRules)
    (distinct : (appRules.map (·.name)).Nodup) :
    (∃ entry shown, materializeAlarm rules afterUtcSeconds device = .ok entry ∧
        App.projectAlarm (rulesByName appRules) afterUtcSeconds version draft = .ok shown ∧
        entry.storedAlarm.id = device.id ∧ Shows entry shown) ∨
      ∃ error detail, materializeAlarm rules afterUtcSeconds device = .error error ∧
        App.projectAlarm (rulesByName appRules) afterUtcSeconds version draft = .error detail := by
  obtain ⟨name, deviceName, appName⟩ := same.timezone
  have active : device.enabled = true := same.enabled.trans enabled
  unfold materializeAlarm App.projectAlarm
  simp only [same.valid, active, Bool.not_true, Bool.false_eq_true, if_false, appName]
  rcases findMatchingRules_agrees sameRules distinct deviceName with
    ⟨appNone, deviceNone⟩ | ⟨found, appFound, pair, appSome, deviceSome⟩
  · rw [appNone, deviceNone]
    exact .inr ⟨_, _, rfl, rfl⟩
  have parity := resolve_parity pair same.schedule afterUtcSeconds
  rw [appSome, deviceSome]
  by_cases matching : found.version = device.schedule.timezoneRulesVersion
  · rw [if_pos (beq_iff_eq.mpr matching)]
    dsimp only
    by_cases resolved :
        (resolveNextOccurrence device.schedule found afterUtcSeconds).status = .resolved
    · have appResolved : (App.resolveNextOccurrence
          (App.WeeklyOccurrenceSchedule.fromAlarm draft version) appFound
          afterUtcSeconds).status = .resolved := by
        rw [parity.status, inApp_eq_resolved]
        exact resolved
      rw [if_neg (not_not.mpr resolved), if_neg (not_not.mpr appResolved)]
      refine .inl ⟨_, _, rfl, rfl, rfl, same.id, rfl, ?_⟩
      exact { parity with status := appResolved }
    · have appUnresolved : ¬ (App.resolveNextOccurrence
          (App.WeeklyOccurrenceSchedule.fromAlarm draft version) appFound
          afterUtcSeconds).status = .resolved := by
        rw [parity.status, inApp_eq_resolved]
        exact resolved
      rw [if_pos resolved, if_pos appUnresolved]
      exact .inr ⟨_, _, rfl, rfl⟩
  · have other : (App.WeeklyOccurrenceSchedule.fromAlarm draft version).timezoneRulesVersion ≠
        appFound.version := by
      intro equal
      apply matching
      rw [pair.version, same.schedule.version, equal]
    rw [if_neg (by simpa using matching)]
    dsimp only
    rw [if_pos (resolve_otherVersion other)]
    exact .inr ⟨_, _, rfl, rfl⟩

end

/-! ### A schedule -/

section

variable {rules : List TimezoneRules} {appRules : List App.TimezoneRules} {version : String}
  {afterUtcSeconds : Int64} {alarms : List WeeklyAlarmDefinition} {drafts : List App.AlarmDraft}

/-- The entries of the enabled alarms are the candidates. -/
structure Agree (alarms : List WeeklyAlarmDefinition) (entries : List MaterializedAlarm)
    (candidates : List App.ProjectedOccurrence) : Prop where
  ids : entries.map (·.storedAlarm.id) = alarms.map (·.id)
  shown : List.Forall₂ Shows (entries.filter (·.storedAlarm.enabled)) candidates

/-- Either both get through the schedule, with the same occurrences, or neither does. -/
theorem schedule_agrees (same : List.Forall₂ (SameAlarm version) alarms drafts)
    (sameRules : List.Forall₂ SameRules rules appRules)
    (distinct : (appRules.map (·.name)).Nodup) :
    (∃ entries candidates, Materializes rules afterUtcSeconds alarms entries ∧
        App.Projects (rulesByName appRules) afterUtcSeconds version (drafts.filter (·.enabled))
          candidates ∧ Agree alarms entries candidates) ∨
      ((∃ alarm ∈ alarms, ∃ error, materializeAlarm rules afterUtcSeconds alarm = .error error) ∧
        ∃ draft ∈ drafts.filter (·.enabled), ∃ detail,
          App.projectAlarm (rulesByName appRules) afterUtcSeconds version draft =
            .error detail) := by
  induction same with
  | nil => exact .inl ⟨[], [], .nil, .nil, rfl, .nil⟩
  | @cons device draft _ _ first _ ih =>
      cases enabled : draft.enabled with
      | false =>
          rw [List.filter_cons_of_neg (by simp [enabled])]
          rcases ih with ⟨entries, candidates, all, appAll, ids, shown⟩ | ⟨⟨alarm, mem, failed⟩, fails⟩
          · obtain ⟨entry, inert, id, here⟩ := first.disabled enabled
            refine .inl ⟨entry :: entries, candidates, .cons here all, appAll, ?_, ?_⟩
            · rw [List.map_cons, List.map_cons, id, ids]
            · rwa [List.filter_cons_of_neg (by simp [inert])]
          · exact .inr ⟨⟨alarm, List.mem_cons_of_mem _ mem, failed⟩, fails⟩
      | true =>
          rw [List.filter_cons_of_pos (by exact enabled)]
          rcases first.agrees enabled sameRules distinct with
            ⟨entry, projected, here, appHere, id, shows⟩ | ⟨error, detail, here, appHere⟩
          swap
          · exact .inr ⟨⟨device, List.mem_cons_self, error, here⟩,
              draft, List.mem_cons_self, detail, appHere⟩
          rcases ih with ⟨entries, candidates, all, appAll, ids, shown⟩ |
            ⟨⟨alarm, mem, failed⟩, other, listed, fails⟩
          · refine .inl ⟨entry :: entries, projected :: candidates, .cons here all,
              .cons appHere appAll, ?_, ?_⟩
            · rw [List.map_cons, List.map_cons, id, ids]
            · rw [List.filter_cons_of_pos (by exact shows.enabled)]
              exact .cons shows shown
          · exact .inr ⟨⟨alarm, List.mem_cons_of_mem _ mem, failed⟩,
              other, List.mem_cons_of_mem _ listed, fails⟩

end

/-! ### The order of the candidates -/

/-- The alarm the device would store for a candidate. -/
def App.ProjectedOccurrence.stored (projected : App.ProjectedOccurrence) :
    StoredAlarmDefinition where
  id := projected.alarm.id.map UInt16.toUInt8
  scheduleRevision := 0
  enabled := true
  scheduledUtcSeconds := projected.scheduledUtcSeconds

/-- ASCII code units go in the order of the bytes. -/
theorem map_toUInt8_lt {first second : App.DartString} (narrow : ∀ u ∈ first, u.toNat < 128)
    (narrow' : ∀ u ∈ second, u.toNat < 128) :
    first.map UInt16.toUInt8 < second.map UInt16.toUInt8 ↔ first < second := by
  induction first generalizing second with
  | nil =>
      cases second with
      | nil => simp
      | cons u rest => simp
  | cons u rest ih =>
      cases second with
      | nil => simp
      | cons v more =>
          obtain ⟨small, narrow⟩ := List.forall_mem_cons.mp narrow
          obtain ⟨small', narrow'⟩ := List.forall_mem_cons.mp narrow'
          have low (w : UInt16) (ascii : w.toNat < 128) : w.toUInt8.toNat = w.toNat := by
            rw [UInt16.toNat_toUInt8]
            omega
          rw [List.map_cons, List.map_cons, List.cons_lt_cons_iff, List.cons_lt_cons_iff,
            ih narrow narrow', UInt8.lt_iff_toNat_lt, UInt16.lt_iff_toNat_lt, ← UInt8.toNat_inj,
            ← UInt16.toNat_inj, low u small, low v small']

theorem App.ProjectedOccurrence.narrow (projected : App.ProjectedOccurrence) :
    ∀ u ∈ projected.alarm.id, u.toNat < 128 :=
  narrow_alarmIdPattern (App.validate_eq_ok.mp projected.alarm.valid).id

theorem projectedBefore_eq (a b : App.ProjectedOccurrence) :
    App.projectedBefore a b = scheduledBefore a.stored b.stored := by
  have ids := map_toUInt8_lt a.narrow b.narrow
  unfold App.projectedBefore scheduledBefore
  by_cases differ : a.scheduledUtcSeconds ≠ b.scheduledUtcSeconds
  · rw [if_pos differ, if_pos (by exact differ)]
    rfl
  · rw [if_neg differ, if_neg (by exact differ)]
    exact decide_eq_decide.mpr ids.symm

theorem SameText.bytes {device : Text} {app : App.DartString} (same : SameText device app)
    (narrow : ∀ u ∈ app, u.toNat < 128) : device = app.map UInt16.toUInt8 := by
  obtain ⟨text, rfl, rfl⟩ := same
  rw [utf8_eq]
  rcases Utf16.ascii_or_wide text.toList with ⟨codes, small, bytes, units⟩ | ⟨-, u, mem, wide⟩
  · rw [bytes, App.utf16, units, List.map_map]
    apply List.map_congr_left
    intro code mem
    have ascii := small code mem
    rw [← UInt8.toNat_inj, Function.comp_apply, UInt16.toNat_toUInt8, UInt8.toNat_ofNat',
      UInt16.toNat_ofNat']
    omega
  · exact absurd (narrow u mem) (Nat.not_lt.mpr wide)

/-- The phone sorts what it shows as the device sorts it. -/
theorem Shows.stored {entry : MaterializedAlarm} {shown : App.ProjectedOccurrence}
    (shows : Shows entry shown) : shown.stored.id = entry.storedAlarm.id ∧
      shown.stored.scheduledUtcSeconds = entry.storedAlarm.scheduledUtcSeconds :=
  ⟨(shows.id.bytes shown.narrow).symm, shows.occurrence.instant⟩

section

variable {rules : List TimezoneRules} {appRules : List App.TimezoneRules}
  {alarms : List WeeklyAlarmDefinition} {drafts : List App.AlarmDraft}

theorem SameText.inj {device : Text} {first second : App.DartString}
    (same : SameText device first) (same' : SameText device second) : first = second := by
  obtain ⟨text, rfl, rfl⟩ := same
  obtain ⟨other, bytes, rfl⟩ := same'
  rw [utf8_inj.mp bytes]

theorem distinct_ids {version : String} (same : List.Forall₂ (SameAlarm version) alarms drafts)
    (distinct : (drafts.map (·.id)).Nodup) : (alarms.map (·.id)).Nodup := by
  induction same with
  | nil => exact List.nodup_nil
  | @cons device draft _ _ first rest ih =>
      rw [List.map_cons, List.nodup_cons] at distinct ⊢
      refine ⟨?_, ih distinct.2⟩
      intro again
      obtain ⟨other, mem, equal⟩ := List.mem_map.mp again
      obtain ⟨otherDraft, listed, pair⟩ := Collect.exists_of_mem_left rest mem
      have ids : otherDraft.id = draft.id := (equal ▸ pair.id).inj first.id
      exact distinct.1 (List.mem_map.mpr ⟨otherDraft, listed, ids⟩)

/-- The comparison reads the instants and the ids. -/
theorem scheduledBefore_congr {a a' b b' : StoredAlarmDefinition}
    (left : a.id = a'.id ∧ a.scheduledUtcSeconds = a'.scheduledUtcSeconds)
    (right : b.id = b'.id ∧ b.scheduledUtcSeconds = b'.scheduledUtcSeconds) :
    scheduledBefore a b = scheduledBefore a' b' := by
  simp only [scheduledBefore, left.1, left.2, right.1, right.2]

/-- The earliest of the candidates is the first enabled entry. -/
theorem Agree.earliest {entries : List MaterializedAlarm}
    {candidates : List App.ProjectedOccurrence} (agree : Agree alarms entries candidates)
    (distinct : (alarms.map (·.id)).Nodup) {shown : App.ProjectedOccurrence}
    (first : (App.sortProjected candidates).head? = some shown) :
    ∃ entry, (sortMaterialized entries).find? (·.storedAlarm.enabled) = some entry ∧
      Shows entry shown := by
  have found : (App.sortProjected candidates).find? (fun _ => true) = some shown := by
    cases sorted : App.sortProjected candidates with
    | nil =>
        rw [sorted] at first
        cases first
    | cons earliest rest =>
        rw [sorted] at first
        exact first
  simp only [App.sortProjected, projectedBefore_eq] at found
  obtain ⟨listed, -, least⟩ := find_insertionSort found
  obtain ⟨entry, mem, shows⟩ := Collect.exists_of_mem_right agree.shown listed
  obtain ⟨mem, -⟩ := List.mem_filter.mp mem
  have some : ((sortMaterialized entries).find? (·.storedAlarm.enabled)).isSome := by
    rw [List.find?_isSome]
    exact ⟨entry, (List.mem_insertionSort _).mpr mem, shows.enabled⟩
  obtain ⟨front, isFirst⟩ := Option.isSome_iff_exists.mp some
  obtain ⟨frontMem, enabled, before⟩ :=
    @find_insertionSort _ MaterializedAlarm.storedAlarm _ entries front isFirst
  -- The two are the least of the same pairs of instant and id.
  obtain ⟨candidate, candidateMem, pair⟩ :=
    Collect.exists_of_mem_left agree.shown (List.mem_filter.mpr ⟨frontMem, enabled⟩)
  have notBefore := least candidate candidateMem rfl
  rw [scheduledBefore_congr pair.stored shows.stored] at notBefore
  have ids : entry.storedAlarm.id = front.storedAlarm.id := by
    rcases scheduledBefore_trichotomy entry.storedAlarm front.storedAlarm with
      earlier | ⟨-, same⟩ | later
    · rw [before entry mem shows.enabled] at earlier
      cases earlier
    · exact same
    · rw [notBefore] at later
      cases later
  rw [← agree.ids] at distinct
  obtain rfl := List.inj_on_of_nodup_map distinct mem frontMem ids
  exact ⟨entry, isFirst, shows⟩

/-- The phone shows a next alarm exactly if one is enabled and the device materializes the
schedule, and it is then the first enabled entry. -/
theorem projection_agrees (version : String) (store : App.DeviceScheduleStore)
    (afterUtcSeconds : Int64)
    (same : List.Forall₂ (SameAlarm version) alarms store.committed)
    (distinct : (store.committed.map (·.id)).Nodup)
    (sameRules : List.Forall₂ SameRules rules appRules)
    (zones : (appRules.map (·.name)).Nodup) :
    let next := (App.projectDeviceStatus store (rulesByName appRules) afterUtcSeconds
      version).nextOccurrence
    let result := materializeNextScheduleEntries alarms rules afterUtcSeconds
    (next.isSome ↔ (∃ draft ∈ store.committed, draft.enabled = true) ∧
        result.status = .materialized) ∧
      ∀ shown ∈ next, ∃ entry, result.alarms.find? (·.storedAlarm.enabled) = some entry ∧
        Shows entry shown := by
  intro next result
  rcases @schedule_agrees _ _ version afterUtcSeconds _ _ same sameRules zones with
    ⟨entries, candidates, all, appAll, agree⟩ | ⟨⟨alarm, mem, error, failed⟩, draft, listed, detail, fails⟩
  · have materialized : result = { alarms := sortMaterialized entries } := all.result
    have projected {shown : App.ProjectedOccurrence} (isNext : shown ∈ next) :
        (App.sortProjected candidates).head? = some shown := by
      obtain ⟨others, appOthers, head⟩ := App.projectDeviceStatus_next.mp isNext
      rwa [Collect.All.unique appAll appOthers]
    constructor
    · rw [materialized]
      refine Iff.trans ?_ (and_iff_left rfl).symm
      constructor
      · intro some
        obtain ⟨shown, isNext⟩ := Option.isSome_iff_exists.mp some
        have mem : shown ∈ App.sortProjected candidates := List.mem_of_head? (projected isNext)
        obtain ⟨draft, listed, -⟩ :=
          Collect.exists_of_mem_right appAll ((List.mem_insertionSort _).mp mem)
        exact ⟨draft, List.mem_filter.mp listed⟩
      · rintro ⟨draft, listed, enabled⟩
        obtain ⟨candidate, mem, -⟩ :=
          Collect.exists_of_mem_left appAll (List.mem_filter.mpr ⟨listed, enabled⟩)
        have mem : candidate ∈ App.sortProjected candidates :=
          (List.mem_insertionSort _).mpr mem
        cases sorted : App.sortProjected candidates with
        | nil =>
            rw [sorted] at mem
            cases mem
        | cons earliest rest =>
            have isNext : next = some earliest :=
              App.projectDeviceStatus_next.mpr ⟨candidates, appAll, by rw [sorted]; rfl⟩
            rw [isNext]
            rfl
    · intro shown isNext
      obtain ⟨entry, found, shows⟩ := agree.earliest (distinct_ids same distinct) (projected isNext)
      exact ⟨entry, by rw [materialized]; exact found, shows⟩
  · have failure : result.status ≠ .materialized := by
      intro success
      obtain ⟨entries, all⟩ := materialize_eq_materialized.mp success
      exact Collect.All.not_error all mem failed
    have withheld : next = none := by
      apply Option.eq_none_iff_forall_ne_some.mpr
      intro shown isNext
      obtain ⟨others, appOthers, -⟩ := App.projectDeviceStatus_next.mp isNext
      exact Collect.All.not_error appOthers listed fails
    rw [withheld]
    simp [failure]

end

/-- 07:00 on Mondays, in a zone without transitions. -/
def mondayAlarm (id : String) (enabled : Bool) : WeeklyAlarmDefinition where
  id := utf8 id
  scheduleRevision := 1
  enabled
  schedule :=
    { localHour := 7, localMinute := 0, isoWeekdayMask := weekdayBit .monday
      timezoneName := utf8 "UTC", timezoneRulesVersion := utf8 "2026a" }

/-- The same alarm on the phone. -/
def mondayFields (id : String) (enabled : Bool) : App.AlarmFields :=
  { App.importedFields (App.utf16 "e1") with id := App.utf16 id, enabled }

def utcRules : TimezoneRules where
  name := utf8 "UTC"
  version := utf8 "2026a"
  initialUtcOffsetSeconds := 0
  transitions := []

theorem sameAlarm_monday {id : String} {enabled : Bool} {draft : App.AlarmDraft}
    (fields : draft.toAlarmFields = mondayFields id enabled) :
    SameAlarm "2026a" (mondayAlarm id enabled) draft := by
  have zone : App.characters? (App.utf16 "UTC") = some "UTC" := App.characters?_utf16 "UTC"
  have mask : (App.WeeklyOccurrenceSchedule.fromAlarm (App.imported (App.utf16 "e1"))
      "2026a").isoWeekdayMask = (weekdayBit .monday).toUInt64.toInt64 := by
    decide
  obtain ⟨_, valid⟩ := draft
  obtain rfl := fields
  constructor
  · exact ⟨id, rfl, rfl⟩
  · change (1 : UInt64) ≠ 0
    decide
  · rfl
  · exact ⟨"UTC", rfl, rfl⟩
  · constructor
    · rfl
    · rfl
    · exact mask
    · change utf8 "UTC" = utf8 ((App.characters? (App.utf16 "UTC")).getD "")
      rw [zone, Option.getD_some]
    · rfl

/-- Two alarms at one instant, and a disabled one: the phone shows the first by id. -/
theorem projection_agrees_tie :
    let store : App.DeviceScheduleStore :=
      { committed := [{ mondayFields "b" true with valid := by rfl },
          { mondayFields "a" true with valid := by rfl },
          { mondayFields "c" false with valid := by rfl }]
        knownRevision := 1, lastReceipt := none }
    let rules : App.TimezoneRules := ⟨"UTC", "2026a", 0, []⟩
    let alarms := [mondayAlarm "b" true, mondayAlarm "a" true, mondayAlarm "c" false]
    ∃ shown, (App.projectDeviceStatus store (rulesByName [rules]) 0 "2026a").nextOccurrence =
        some shown ∧
      ∃ entry, (materializeNextScheduleEntries alarms [utcRules] 0).alarms.find?
          (·.storedAlarm.enabled) = some entry ∧
        entry.storedAlarm.id = utf8 "a" ∧ Shows entry shown := by
  intro store rules alarms
  have same : List.Forall₂ (SameAlarm "2026a") alarms store.committed :=
    .cons (sameAlarm_monday rfl) (.cons (sameAlarm_monday rfl) (.cons (sameAlarm_monday rfl) .nil))
  have sameRules : List.Forall₂ SameRules [utcRules] [rules] :=
    .cons ⟨rfl, rfl, by decide, rfl⟩ .nil
  have least : ((materializeNextScheduleEntries alarms [utcRules] 0).alarms.find?
      (·.storedAlarm.enabled)).map (·.storedAlarm.id) = some (utf8 "a") := by
    decide +kernel
  obtain ⟨shows, first⟩ := projection_agrees "2026a" store 0 same (by decide) sameRules
    (List.nodup_singleton _)
  have some := shows.mpr ⟨⟨_, List.mem_cons_self, rfl⟩, by decide +kernel⟩
  obtain ⟨shown, next⟩ := Option.isSome_iff_exists.mp some
  obtain ⟨entry, found, agrees⟩ := first shown next
  rw [found] at least
  exact ⟨shown, next, entry, found, Option.some.inj least, agrees⟩

end DawnDock
