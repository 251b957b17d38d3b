import DawnDock.App.Values
import Mathlib.Data.Finset.Image
import Mathlib.Data.Finset.Sort

/-!
Alarm drafts (`alarm_draft.dart`) and what the contract gate makes of them
(`sendable_iff`).

A draft is a value of the checked fields. Its constructor takes any provenance, and so
does the gate's bound on the event id not follow: it is the only check of the gate that
a draft can fail.
-/

namespace DawnDock.App

inductive DraftSource where
  | manual | ics
deriving DecidableEq, Repr

/-- The name that `toWireAlarm` and `toMap` write. -/
def DraftSource.name : DraftSource → DartString
  | .manual => utf16 "manual"
  | .ics => utf16 "ics"

structure ImportProvenance where
  sourceEventId : DartString
  originLabel : DartString
deriving DecidableEq

/-- The arguments of a draft's constructor. Weekdays go from 1 on Monday to 7. -/
structure AlarmFields where
  id : DartString
  label : DartString
  enabled : Bool
  localHour : Int64
  localMinute : Int64
  days : Finset Int64
  timezone : DartString
  snoozeMinutes : Int64
  volume : Int64
  sound : DartString
  source : DraftSource
  provenance : Option ImportProvenance
deriving DecidableEq

/-- `_validate` -/
def AlarmFields.validate (fields : AlarmFields) : Except DartError Unit :=
  if !alarmIdPattern fields.id then .error (.argumentValue "id" "not a valid alarm id")
  else if fields.label.isEmpty || utf8Length fields.label > kMaxAlarmLabelBytes then
    .error (.argumentValue "label" "label bound violated")
  else if fields.localHour < 0 || fields.localHour > 23 || fields.localMinute < 0 ||
      fields.localMinute > 59 then
    .error (.argumentValue "localTime" "outside a day")
  else if fields.days = ∅ || fields.days.card > 7 || decide (∃ d ∈ fields.days, d < 1 ∨ d > 7) then
    .error (.argumentValue "days" "weekday mask invalid")
  else if utf8Length fields.timezone < 3 || utf8Length fields.timezone > kMaxTimezoneBytes then
    .error (.argumentValue "timezone" "timezone bound violated")
  else if fields.snoozeMinutes < 1 || fields.snoozeMinutes > 30 then
    .error (.argumentValue "snoozeMinutes" "outside 1..30")
  else if fields.volume < 0 || fields.volume > 100 then
    .error (.argumentValue "volume" "outside 0..100")
  else if fields.sound.isEmpty || utf8Length fields.sound > kMaxSoundBytes then
    .error (.argumentValue "sound" "sound bound violated")
  else if fields.source = .ics && fields.provenance.isNone then
    .error (.argumentError "ics drafts must carry provenance")
  else if fields.source = .manual && fields.provenance.isSome then
    .error (.argumentError "manual drafts must not carry provenance")
  else .ok ()

/-- A draft: fields that the constructor has accepted. -/
structure AlarmDraft extends AlarmFields where
  valid : toAlarmFields.validate = .ok ()
deriving DecidableEq

namespace AlarmDraft

/-- `toString().padLeft(2, '0')` -/
def twoDigits (value : Int64) : DartString :=
  let text := intText value.toInt
  List.replicate (2 - text.length) 0x30 ++ text

def localTime (draft : AlarmDraft) : DartString :=
  twoDigits draft.localHour ++ [0x3a] ++ twoDigits draft.localMinute

/-- The order that the days are sorted by. -/
instance : IsTrans Int64 (· ≤ ·) := inferInstance

def toWireDays (draft : AlarmDraft) : List Int64 := (draft.days.image fun iso => iso - 1).sort

def toWireAlarm {δ : Type} (draft : AlarmDraft) : Value δ :=
  .object
    [(utf16 "id", .string draft.id), (utf16 "label", .string draft.label),
      (utf16 "enabled", .boolean draft.enabled), (utf16 "localTime", .string draft.localTime),
      (utf16 "days", .array (draft.toWireDays.map fun day => .number (.int day))),
      (utf16 "timezone", .string draft.timezone),
      (utf16 "snoozeMinutes", .number (.int draft.snoozeMinutes)),
      (utf16 "volume", .number (.int draft.volume)), (utf16 "sound", .string draft.sound),
      (utf16 "source", .string draft.source.name),
      (utf16 "sourceEventId",
        match draft.provenance with
        | some provenance => .string provenance.sourceEventId
        | none => .null)]

end AlarmDraft

/-- What the constructor has checked. -/
structure DraftChecks (fields : AlarmFields) : Prop where
  id : alarmIdPattern fields.id = true
  label : IsBounded fields.label kMaxAlarmLabelBytes
  hour : 0 ≤ fields.localHour ∧ fields.localHour ≤ 23
  minute : 0 ≤ fields.localMinute ∧ fields.localMinute ≤ 59
  days : fields.days ≠ ∅
  daysCount : fields.days.card ≤ 7
  day : ∀ d ∈ fields.days, 1 ≤ d ∧ d ≤ 7
  timezone : 3 ≤ utf8Length fields.timezone ∧ utf8Length fields.timezone ≤ kMaxTimezoneBytes
  snoozeMinutes : 1 ≤ fields.snoozeMinutes ∧ fields.snoozeMinutes ≤ 30
  volume : 0 ≤ fields.volume ∧ fields.volume ≤ 100
  sound : IsBounded fields.sound kMaxSoundBytes
  provenance : fields.source = .ics ↔ fields.provenance.isSome = true

section Checks

variable {fields : AlarmFields}

theorem not_within {value lower upper : Int64} :
    ¬ (decide (value < lower) || decide (value > upper)) = true ↔ lower ≤ value ∧ value ≤ upper := by
  rw [Bool.or_eq_true, decide_eq_true_eq, decide_eq_true_eq, not_or, Int64.not_lt, gt_iff_lt,
    Int64.not_lt]

theorem not_unbounded {value : DartString} {maximum : Nat} :
    ¬ (value.isEmpty || decide (utf8Length value > maximum)) = true ↔ IsBounded value maximum := by
  rw [Bool.or_eq_true, decide_eq_true_eq, not_or, List.isEmpty_iff, Nat.not_lt, IsBounded]

theorem not_outside_day :
    ¬ (decide (fields.localHour < 0) || decide (fields.localHour > 23) ||
        decide (fields.localMinute < 0) || decide (fields.localMinute > 59)) = true ↔
      (0 ≤ fields.localHour ∧ fields.localHour ≤ 23) ∧
        0 ≤ fields.localMinute ∧ fields.localMinute ≤ 59 := by
  rw [Bool.or_assoc, Bool.or_eq_true, not_or, not_within, not_within]

theorem not_invalid_mask :
    ¬ (decide (fields.days = ∅) || decide (fields.days.card > 7) ||
        decide (∃ d ∈ fields.days, d < 1 ∨ d > 7)) = true ↔
      fields.days ≠ ∅ ∧ fields.days.card ≤ 7 ∧ ∀ d ∈ fields.days, 1 ≤ d ∧ d ≤ 7 := by
  simp only [Bool.or_eq_true, decide_eq_true_eq, not_or, Nat.not_lt, gt_iff_lt, not_exists, not_and,
    Int64.not_lt, and_assoc, ne_eq]

theorem source_carries :
    (¬ (decide (fields.source = .ics) && fields.provenance.isNone) = true ∧
        ¬ (decide (fields.source = .manual) && fields.provenance.isSome) = true) ↔
      (fields.source = .ics ↔ fields.provenance.isSome = true) := by
  cases fields.source with
  | manual =>
      cases fields.provenance with
      | none => decide
      | some provenance => simp
  | ics =>
      cases fields.provenance with
      | none => decide
      | some provenance => simp

theorem validate_eq_ok : fields.validate = .ok () ↔ DraftChecks fields := by
  unfold AlarmFields.validate
  constructor
  · intro valid
    split at valid
    · cases valid
    rename_i id
    split at valid
    · cases valid
    rename_i label
    split at valid
    · cases valid
    rename_i time
    split at valid
    · cases valid
    rename_i mask
    split at valid
    · cases valid
    rename_i timezone
    split at valid
    · cases valid
    rename_i snooze
    split at valid
    · cases valid
    rename_i volume
    split at valid
    · cases valid
    rename_i sound
    split at valid
    · cases valid
    rename_i carried
    split at valid
    · cases valid
    rename_i kept
    rw [Bool.not_eq_true', Bool.not_eq_false] at id
    obtain ⟨hour, minute⟩ := not_outside_day.mp time
    obtain ⟨days, daysCount, day⟩ := not_invalid_mask.mp mask
    rw [Bool.or_eq_true, decide_eq_true_eq, decide_eq_true_eq, not_or, Nat.not_lt, Nat.not_lt]
      at timezone
    exact {
      id := id
      label := not_unbounded.mp label
      hour := hour
      minute := minute
      days := days
      daysCount := daysCount
      day := day
      timezone := timezone
      snoozeMinutes := not_within.mp snooze
      volume := not_within.mp volume
      sound := not_unbounded.mp sound
      provenance := source_carries.mp ⟨carried, kept⟩ }
  · intro checks
    obtain ⟨carried, kept⟩ := source_carries.mpr checks.provenance
    have timezone : ¬ (decide (utf8Length fields.timezone < 3) ||
        decide (utf8Length fields.timezone > kMaxTimezoneBytes)) = true := by
      rw [Bool.or_eq_true, decide_eq_true_eq, decide_eq_true_eq, not_or, Nat.not_lt, Nat.not_lt]
      exact checks.timezone
    rw [checks.id, Bool.not_true, if_neg Bool.false_ne_true,
      if_neg (not_unbounded.mpr checks.label),
      if_neg (not_outside_day.mpr ⟨checks.hour, checks.minute⟩),
      if_neg (not_invalid_mask.mpr ⟨checks.days, checks.daysCount, checks.day⟩),
      if_neg timezone, if_neg (not_within.mpr checks.snoozeMinutes),
      if_neg (not_within.mpr checks.volume), if_neg (not_unbounded.mpr checks.sound),
      if_neg carried, if_neg kept]

end Checks

namespace AlarmDraft

section Wire

variable {δ : Type} (draft : AlarmDraft)

theorem checks : DraftChecks draft.toAlarmFields := validate_eq_ok.mp draft.valid

theorem eq_ofNat {value : Int64} {bound : Nat} (lower : 0 ≤ value)
    (upper : value ≤ Int64.ofNat bound) (small : bound < 2 ^ 63) :
    ∃ n ≤ bound, value = Int64.ofNat n := by
  refine ⟨value.toNatClampNeg, ?_, (Int64.ofNat_toNatClampNeg value lower).symm⟩
  rw [← Int64.toNatClampNeg_ofNat_of_lt small]
  exact Int64.toNatClampNeg_le upper

theorem localTimePattern_twoDigits : ∀ hour ≤ 23, ∀ minute ≤ 59,
    localTimePattern (twoDigits (Int64.ofNat hour) ++ [0x3a] ++ twoDigits (Int64.ofNat minute)) =
      true := by
  decide +kernel

theorem localTime_valid : localTimePattern draft.localTime = true := by
  obtain ⟨hour, hour_le, hour_eq⟩ := eq_ofNat draft.checks.hour.1 draft.checks.hour.2 (by decide)
  obtain ⟨minute, minute_le, minute_eq⟩ :=
    eq_ofNat draft.checks.minute.1 draft.checks.minute.2 (by decide)
  rw [localTime, hour_eq, minute_eq]
  exact localTimePattern_twoDigits hour hour_le minute minute_le

/-- From weekdays of 1 to 7 to those of the wire. -/
theorem wireDay_of_isoDay {day : Int64} (isoDay : 1 ≤ day ∧ day ≤ 7) :
    0 ≤ day - 1 ∧ day - 1 ≤ 6 := by
  have table : ∀ n ≤ 7, 1 ≤ Int64.ofNat n →
      0 ≤ Int64.ofNat n - 1 ∧ Int64.ofNat n - 1 ≤ 6 := by
    decide
  have lower : 0 ≤ day := Int64.le_trans (by decide) isoDay.1
  obtain ⟨n, n_le, rfl⟩ := eq_ofNat lower isoDay.2 (by decide)
  exact table n n_le isoDay.1

theorem toWireDays_range : ∀ day ∈ draft.toWireDays, 0 ≤ day ∧ day ≤ 6 := by
  intro day mem
  rw [toWireDays, Finset.mem_sort, Finset.mem_image] at mem
  obtain ⟨isoDay, mem, rfl⟩ := mem
  exact wireDay_of_isoDay (draft.checks.day isoDay mem)

theorem toWireDays_length : draft.toWireDays.length = draft.days.card := by
  rw [toWireDays, Finset.length_sort, Finset.card_image_of_injective]
  intro day other same
  rw [← Int64.sub_add_cancel day 1, ← Int64.sub_add_cancel other 1]
  exact congrArg (· + 1) same

theorem checkDays_numbers {days seen : List Int64} (range : ∀ day ∈ days, 0 ≤ day ∧ day ≤ 6)
    (nodup : days.Nodup) (fresh : ∀ day ∈ days, day ∉ seen) :
    checkDays seen (days.map fun day => (.number (.int day) : Value δ)) = true := by
  induction days generalizing seen with
  | nil => rfl
  | cons day days ih =>
      rw [List.forall_mem_cons] at range fresh
      rw [List.nodup_cons] at nodup
      have within : ¬ (decide (day < 0) || decide (day > 6)) = true := not_within.mpr range.1
      rw [List.map_cons, checkDays, Bool.eq_false_iff.mpr within, Bool.false_or,
        if_neg (mt List.contains_iff_mem.mp fresh.1)]
      apply ih range.2 nodup.2
      intro other mem
      rw [List.mem_cons, not_or]
      refine ⟨?_, fresh.2 other mem⟩
      rintro rfl
      exact nodup.1 mem

theorem isDays_toWireDays :
    isDays (.array (draft.toWireDays.map fun day => (.number (.int day) : Value δ))) = true := by
  have nonempty : draft.toWireDays ≠ [] := by
    intro empty
    have count := draft.toWireDays_length
    rw [empty, List.length_nil] at count
    exact draft.checks.days (Finset.card_eq_zero.mp count.symm)
  have short : ¬ draft.toWireDays.length > 7 := by
    rw [toWireDays_length, Nat.not_lt]
    exact draft.checks.daysCount
  rw [isDays, List.isEmpty_map, List.length_map, Bool.and_eq_true, Bool.not_eq_true',
    Bool.or_eq_false_iff, List.isEmpty_eq_false_iff, decide_eq_false_iff_not]
  refine ⟨⟨nonempty, short⟩, ?_⟩
  apply checkDays_numbers draft.toWireDays_range
  · exact Finset.sort_nodup _ _
  · intro _ _
    exact List.not_mem_nil

/-- The one check of the gate that the constructor does not make. -/
def EventIdFits (draft : AlarmDraft) : Prop :=
  ∀ provenance ∈ draft.provenance, utf8Length provenance.sourceEventId ≤ kMaxSourceEventIdBytes

theorem source_name (source : DraftSource) :
    (source.name == utf16 "manual" || source.name == utf16 "ics") = true := by
  cases source with
  | manual => rfl
  | ics => rfl

theorem isBounded_decide {value : DartString} {maximum : Nat} (bounded : IsBounded value maximum) :
    (!value.isEmpty && isUtf8Bounded value maximum) = true := by
  rw [Bool.and_eq_true, Bool.not_eq_true', List.isEmpty_eq_false_iff, isUtf8Bounded,
    decide_eq_true_eq]
  exact bounded

theorem timezone_decide :
    (!decide (utf8Length draft.timezone < 3) &&
      isUtf8Bounded draft.timezone kMaxTimezoneBytes) = true := by
  rw [Bool.and_eq_true, Bool.not_eq_true', decide_eq_false_iff_not, Nat.not_lt, isUtf8Bounded,
    decide_eq_true_eq]
  exact draft.checks.timezone

/-- The event id as it stands on the wire. -/
def wireEventId (draft : AlarmDraft) : Value δ :=
  match draft.provenance with
  | some provenance => .string provenance.sourceEventId
  | none => .null

/-- The entries of the wire form, for any values. -/
def wireEntries (id label enabled localTime days timezone snoozeMinutes volume sound source
    sourceEventId : Value δ) : Entries δ :=
  [(utf16 "id", id), (utf16 "label", label), (utf16 "enabled", enabled),
    (utf16 "localTime", localTime), (utf16 "days", days), (utf16 "timezone", timezone),
    (utf16 "snoozeMinutes", snoozeMinutes), (utf16 "volume", volume), (utf16 "sound", sound),
    (utf16 "source", source), (utf16 "sourceEventId", sourceEventId)]

theorem index_wireEntries (id label enabled localTime days timezone snoozeMinutes volume sound
    source sourceEventId : Value δ) :
    (alarmRequiredKeys.map fun key => index (wireEntries id label enabled localTime days timezone
      snoozeMinutes volume sound source sourceEventId) key) =
      [id, label, enabled, localTime, days, timezone, snoozeMinutes, volume, sound, source,
        sourceEventId] := rfl

theorem keysOf_wireEntries (id label enabled localTime days timezone snoozeMinutes volume sound
    source sourceEventId : Value δ) :
    keysOf (wireEntries id label enabled localTime days timezone snoozeMinutes volume sound source
      sourceEventId) = alarmRequiredKeys := rfl

theorem isSourceEventId_wire :
    isSourceEventId (draft.wireEventId : Value δ) = true ↔ draft.EventIdFits := by
  unfold wireEventId EventIdFits
  cases draft.provenance with
  | none => exact iff_of_true rfl nofun
  | some provenance =>
      change isUtf8Bounded provenance.sourceEventId kMaxSourceEventIdBytes = true ↔ _
      rw [isUtf8Bounded, decide_eq_true_eq]
      constructor
      · rintro fits _ ⟨⟩
        exact fits
      · intro fits
        exact fits provenance rfl

/-- The gate accepts the wire form of a draft if and only if its event id fits. -/
theorem validateAlarm_toWireAlarm :
    validateAlarm (draft.toWireAlarm : Value δ) = .accepted ↔ draft.EventIdFits := by
  have checks := draft.checks
  have required : alarmRequiredKeys.all alarmRequiredKeys.contains = true :=
    List.all_eq_true.mpr fun key mem => List.contains_iff_mem.mpr mem
  have reads := index_wireEntries (.string draft.id) (.string draft.label) (.boolean draft.enabled)
    (.string draft.localTime) (.array (draft.toWireDays.map fun day => .number (.int day)))
    (.string draft.timezone) (.number (.int draft.snoozeMinutes)) (.number (.int draft.volume))
    (.string draft.sound) (.string draft.source.name) (draft.wireEventId : Value δ)
  simp only [alarmRequiredKeys, List.map_cons, List.cons.injEq] at reads
  obtain ⟨id, label, enabled, localTime, days, timezone, snoozeMinutes, volume, sound, source,
    eventId, -⟩ := reads
  have whole : (draft.toWireAlarm : Value δ) = .object (wireEntries (.string draft.id)
      (.string draft.label) (.boolean draft.enabled) (.string draft.localTime)
      (.array (draft.toWireDays.map fun day => .number (.int day))) (.string draft.timezone)
      (.number (.int draft.snoozeMinutes)) (.number (.int draft.volume)) (.string draft.sound)
      (.string draft.source.name) draft.wireEventId) := rfl
  have snoozeFits := Bool.eq_false_iff.mpr (not_within.mpr checks.snoozeMinutes)
  have volumeFits := Bool.eq_false_iff.mpr (not_within.mpr checks.volume)
  rw [whole, validateAlarm, id, label, enabled, localTime, days, timezone, snoozeMinutes, volume,
    sound, source, eventId, keysOf_wireEntries, required, draft.isDays_toWireDays,
    ← isSourceEventId_wire]
  simp only [isString, isInt, isBool, checks.id, isBounded_decide checks.label,
    draft.localTime_valid, draft.timezone_decide, snoozeFits, volumeFits,
    isBounded_decide checks.sound, source_name, Bool.not_true, Bool.not_false, Bool.or_self,
    Bool.false_eq_true, if_false]
  cases isSourceEventId (draft.wireEventId : Value δ) with
  | true => exact iff_of_true rfl rfl
  | false => exact iff_of_false nofun nofun

end Wire

end AlarmDraft

end DawnDock.App
