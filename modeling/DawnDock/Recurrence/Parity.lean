import Mathlib.Data.List.Nodup
import DawnDock.Recurrence.Search
import DawnDock.Recurrence.Mirror

/-!
The app and the device resolve alike (`resolve_parity`): on inputs that are the same
values in both languages, the two resolvers return the same status and fields. Most of
the port computes in the same 64-bit words; the narrower types of the firmware are
related to them by widening.
-/

namespace DawnDock

open MachineInt Calendar

/-! ### The same values in both languages -/

/-- A text is empty exactly when its bytes are. -/
theorem isEmpty_utf8 (text : String) : (utf8 text).isEmpty = text.isEmpty := by
  rw [Bool.eq_iff_iff, List.isEmpty_iff, String.isEmpty_iff]
  exact (utf8_inj : utf8 text = utf8 "" ↔ text = "")

/-- The app's name for a status of the firmware. -/
def OccurrenceResolutionStatus.inApp :
    OccurrenceResolutionStatus → App.OccurrenceResolutionStatus
  | resolved => .resolved
  | noOccurrence => .noOccurrence
  | invalidSchedule => .invalidSchedule
  | invalidRules => .invalidRules
  | outOfRange => .outOfRange

/-- A transition with its 32-bit offsets widened. -/
def UtcOffsetTransition.inApp (transition : UtcOffsetTransition) : App.UtcOffsetTransition where
  atUtcSeconds := transition.atUtcSeconds
  offsetBeforeSeconds := transition.offsetBeforeSeconds.toInt64
  offsetAfterSeconds := transition.offsetAfterSeconds.toInt64

/-- The app holds the rules of the device: the texts are UTF-16 where the firmware has bytes,
the offsets are 64 bits wide where it has 32. -/
structure SameRules (device : TimezoneRules) (app : App.TimezoneRules) : Prop where
  name : device.name = utf8 app.name
  version : device.version = utf8 app.version
  initial : app.initialUtcOffsetSeconds = device.initialUtcOffsetSeconds.toInt64
  transitions : app.transitions = device.transitions.map UtcOffsetTransition.inApp

/-- The app asks about the weekly alarm that the device asks about. -/
structure SameSchedule (device : WeeklyAlarmSchedule) (app : App.WeeklyOccurrenceSchedule) :
    Prop where
  hour : app.localHour = device.localHour.toUInt64.toInt64
  minute : app.localMinute = device.localMinute.toUInt64.toInt64
  mask : app.isoWeekdayMask = device.isoWeekdayMask.toUInt64.toInt64
  name : device.timezoneName = utf8 app.timezoneName
  version : device.timezoneRulesVersion = utf8 app.timezoneRulesVersion

/-- Both resolvers answer alike: the status, the instant, the local date and time, the offset
and both flags. -/
structure SameOccurrence (device : ResolvedOccurrence) (app : App.ResolvedOccurrence) :
    Prop where
  status : app.status = device.status.inApp
  instant : app.scheduledUtcSeconds = device.scheduledUtcSeconds
  year : app.localDate.year = device.localDate.year.toInt64
  month : app.localDate.month = device.localDate.month.toUInt64.toInt64
  day : app.localDate.day = device.localDate.day.toUInt64.toInt64
  hour : app.resolvedLocalHour = device.resolvedLocalHour.toUInt64.toInt64
  minute : app.resolvedLocalMinute = device.resolvedLocalMinute.toUInt64.toInt64
  offset : app.utcOffsetSeconds = device.utcOffsetSeconds.toInt64
  shifted : app.shiftedForGap = device.shiftedForGap
  fold : app.ambiguousFold = device.ambiguousFold

/-- No failure of the firmware is a result of the app. -/
theorem inApp_eq_resolved {status : OccurrenceResolutionStatus} :
    status.inApp = .resolved ↔ status = .resolved := by
  cases status <;> decide

/-- A failure carries nothing but its status. -/
theorem SameOccurrence.failure (status : OccurrenceResolutionStatus) :
    SameOccurrence { status := status } { status := status.inApp } :=
  ⟨rfl, rfl, rfl, rfl, rfl, rfl, rfl, rfl, rfl, rfl⟩

/-! ### Offsets -/

/-- Widening loses no offset. -/
theorem toInt64_inj {first second : Int32} : first.toInt64 = second.toInt64 ↔ first = second := by
  rw [← Int64.toInt_inj, Int32.toInt_toInt64, Int32.toInt_toInt64, Int32.toInt_inj]

/-- Widened offsets compare as they did. -/
theorem toInt64_le {first second : Int32} : first.toInt64 ≤ second.toInt64 ↔ first ≤ second := by
  rw [Int64.le_iff_toInt_le, Int32.toInt_toInt64, Int32.toInt_toInt64, Int32.le_iff_toInt_le]

theorem toInt64_lt {first second : Int32} : first.toInt64 < second.toInt64 ↔ first < second := by
  rw [Int64.lt_iff_toInt_lt, Int32.toInt_toInt64, Int32.toInt_toInt64, Int32.lt_iff_toInt_lt]

theorem kInt64Max_eq : App.kInt64Max = Int64.maxValue := by decide

theorem kInt64Min_eq : App.kInt64Min = Int64.minValue := by decide

/-- A widened offset is valid exactly when it was. -/
theorem validUtcOffset_inApp (offset : Int32) :
    App.validUtcOffset offset.toInt64 = validUtcOffset offset := rfl

/-- Both overflow guards let the same sums through. -/
theorem canAdd_inApp (value : Int64) (offset : Int32) :
    App.canAdd value offset.toInt64 = canAdd value offset := by
  have nonneg : offset.toInt64 ≥ 0 ↔ offset ≥ 0 := @toInt64_le 0 offset
  have negative : offset.toInt64 < 0 ↔ offset < 0 := @toInt64_lt offset 0
  unfold App.canAdd canAdd
  simp only [kInt64Max_eq, kInt64Min_eq, nonneg, negative]

/-- By induction on the transitions: each turn of the loop compares the same instants. -/
theorem offsetAtUtcLoop_inApp (utcSeconds : Int64) (offset : Int32)
    (transitions : List UtcOffsetTransition) :
    App.offsetAtUtcLoop utcSeconds offset.toInt64 (transitions.map UtcOffsetTransition.inApp) =
      (offsetAtUtcLoop utcSeconds offset transitions).toInt64 := by
  induction transitions generalizing offset with
  | nil => rfl
  | cons transition rest ih =>
      rw [List.map_cons, App.offsetAtUtcLoop, offsetAtUtcLoop]
      by_cases early : utcSeconds < transition.atUtcSeconds
      · rw [if_pos early]
        exact if_pos early
      · rw [if_neg early]
        exact (if_neg early).trans (ih transition.offsetAfterSeconds)

/-- By induction on the transitions; the offset before each is the one after the last. -/
theorem validTransitions_inApp (previous : Option Int64) (offset : Int32)
    (transitions : List UtcOffsetTransition) :
    App.validTransitions previous offset.toInt64 (transitions.map UtcOffsetTransition.inApp) =
      validTransitions previous offset transitions := by
  induction transitions generalizing previous offset with
  | nil => rfl
  | cons transition rest ih =>
      have differs (first second : Int32) :
          (first.toInt64 != second.toInt64) = (first != second) := by
        rw [Bool.eq_iff_iff, bne_iff_ne, bne_iff_ne, ne_eq, ne_eq, toInt64_inj]
      have equals (first second : Int32) :
          (first.toInt64 == second.toInt64) = (first == second) := by
        rw [Bool.eq_iff_iff, beq_iff_eq, beq_iff_eq, toInt64_inj]
      rw [List.map_cons, App.validTransitions, validTransitions]
      simp only [UtcOffsetTransition.inApp, differs, equals, validUtcOffset_inApp, canAdd_inApp]
      congr 1
      exact ih _ _

section Rules

variable {device : TimezoneRules} {app : App.TimezoneRules} (same : SameRules device app)

include same

/-- Both sides see the same offset at an instant. -/
theorem offsetAtUtc_inApp (utcSeconds : Int64) :
    App.offsetAtUtc app utcSeconds = (offsetAtUtc device utcSeconds).toInt64 := by
  rw [App.offsetAtUtc, same.initial, same.transitions, offsetAtUtcLoop_inApp]
  rfl

/-- Both sides accept the same rules. -/
theorem hasValidTransitionChain_inApp :
    App.hasValidTransitionChain app = hasValidTransitionChain device := by
  rw [App.hasValidTransitionChain, same.initial, same.transitions, validTransitions_inApp]
  rfl

end Rules

/-! ### Mappings -/

/-- A mapping with its offset widened. -/
def LocalMapping.inApp (mapping : LocalMapping) : App.LocalMapping where
  utcSeconds := mapping.utcSeconds
  resolvedLocalSeconds := mapping.resolvedLocalSeconds
  offsetSeconds := mapping.offsetSeconds.toInt64
  shiftedForGap := mapping.shiftedForGap
  ambiguousFold := mapping.ambiguousFold

/-- A gap shifts a local time to the same instant on both sides. -/
theorem mapGap_inApp (localSeconds : Int64) (transition : UtcOffsetTransition) :
    App.mapGap localSeconds transition.inApp =
      (mapGap localSeconds transition).map LocalMapping.inApp := by
  unfold App.mapGap mapGap
  by_cases backward : transition.offsetAfterSeconds ≤ transition.offsetBeforeSeconds
  · rw [if_pos backward]
    exact if_pos (toInt64_le.mpr backward)
  · rw [if_neg backward]
    refine (if_neg fun le => backward (toInt64_le.mp le)).trans ?_
    by_cases inside : (localSeconds ≥ transition.atUtcSeconds +
          transition.offsetBeforeSeconds.toInt64 &&
        localSeconds < transition.atUtcSeconds + transition.offsetAfterSeconds.toInt64) = true
    · rw [if_pos inside]
      exact if_pos inside
    · rw [if_neg inside]
      exact if_neg inside

/-- Both sides try the same offsets, in the same order. -/
theorem distinctOffsets_inApp {device : TimezoneRules} {app : App.TimezoneRules}
    (same : SameRules device app) :
    App.distinctOffsets app = (distinctOffsets device).map Int32.toInt64 := by
  have contains (offsets : List Int32) (offset : Int32) :
      (offsets.map Int32.toInt64).contains offset.toInt64 = offsets.contains offset := by
    rw [Bool.eq_iff_iff, List.contains_iff_mem, List.contains_iff_mem, List.mem_map]
    constructor
    · rintro ⟨other, mem, eq⟩
      rwa [← toInt64_inj.mp eq]
    · exact fun mem => ⟨offset, mem, rfl⟩
  have loop (transitions : List UtcOffsetTransition) (offsets : List Int32) :
      (transitions.map UtcOffsetTransition.inApp).foldl
          (fun offsets transition =>
            if !offsets.contains transition.offsetAfterSeconds then
              offsets ++ [transition.offsetAfterSeconds]
            else offsets)
          (offsets.map Int32.toInt64) =
        (transitions.foldl
          (fun offsets transition => addOffset offsets transition.offsetAfterSeconds)
          offsets).map Int32.toInt64 := by
    induction transitions generalizing offsets with
    | nil => rfl
    | cons transition rest ih =>
        rw [List.map_cons, List.foldl_cons, List.foldl_cons, ← ih]
        congr 1
        simp only [UtcOffsetTransition.inApp, contains, addOffset]
        cases offsets.contains transition.offsetAfterSeconds with
        | true => rfl
        | false => simp
  rw [App.distinctOffsets, same.initial, same.transitions]
  exact loop device.transitions [device.initialUtcOffsetSeconds]

/-- One turn of the last loop of `map_local`. The app counts in 64 bits, so its count is the
device's as long as that is small. -/
theorem tryOffset_inApp {device : TimezoneRules} {app : App.TimezoneRules}
    (same : SameRules device app) {offset : Int32} (bounded : validUtcOffset offset = true)
    (localSeconds : Int64) (found : Option LocalMapping × Nat) :
    App.tryOffset app localSeconds (found.1.map LocalMapping.inApp, Int64.ofNat found.2)
        offset.toInt64 =
      ((tryOffset device localSeconds found offset).1.map LocalMapping.inApp,
        Int64.ofNat (tryOffset device localSeconds found offset).2) := by
  have bounds := validUtcOffset_iff.mp bounded
  have negated : -offset.toInt64 = (-offset).toInt64 := by
    refine (Int32.toInt64_neg_of_ne ?_).symm
    rintro rfl
    exact absurd bounds (by decide)
  have differs (first second : Int32) :
      (first.toInt64 != second.toInt64) = (first != second) := by
    rw [Bool.eq_iff_iff, bne_iff_ne, bne_iff_ne, ne_eq, ne_eq, toInt64_inj]
  have sooner (candidate : Int64) :
      (found.1.map LocalMapping.inApp).all (candidate < ·.utcSeconds) =
        found.1.all (candidate < ·.utcSeconds) := by
    cases found.1 <;> rfl
  unfold App.tryOffset tryOffset
  simp only [negated, canAdd_inApp, offsetAtUtc_inApp same, differs, sooner]
  split
  · rfl
  · split
    · rfl
    · split
      · rw [Int64.ofNat_add]
        rfl
      · rw [Int64.ofNat_add]
        rfl

/-- Distinct numbers below a bound are at most that many. -/
theorem nodup_length_le (bound : Nat) {values : List Nat} (nodup : values.Nodup)
    (below : ∀ value ∈ values, value < bound) : values.length ≤ bound := by
  have le := List.Nodup.length_le_of_subset nodup
    fun value mem => List.mem_range.mpr (below value mem)
  rwa [List.length_range] at le

/-- Accepted offsets are few enough to count in any integer type. -/
theorem length_distinctOffsets {rules : TimezoneRules}
    (accepted : hasValidTransitionChain rules = true) :
    (distinctOffsets rules).length ≤ 172801 := by
  have bounds {offset : Int32} (mem : offset ∈ distinctOffsets rules) :=
    validUtcOffset_iff.mp (distinctOffsets_valid accepted mem)
  have nodup : ((distinctOffsets rules).map fun offset => (offset.toInt + 86400).toNat).Nodup :=
    (nodup_distinctOffsets rules).map_on fun first mem second mem' eq => by
      have := bounds mem
      have := bounds mem'
      exact Int32.toInt_inj.mp (by omega)
  have le := nodup_length_le 172801 nodup fun _ mem => by
    obtain ⟨offset, offset_mem, rfl⟩ := List.mem_map.mp mem
    have := bounds offset_mem
    omega
  rwa [List.length_map] at le

/-- Each offset counts at most once. -/
theorem tryOffset_count_le (rules : TimezoneRules) (localSeconds : Int64) (offsets : List Int32)
    (found : Option LocalMapping × Nat) :
    (offsets.foldl (tryOffset rules localSeconds) found).2 ≤ found.2 + offsets.length := by
  induction offsets generalizing found with
  | nil => exact le_refl _
  | cons offset rest ih =>
      have step : (tryOffset rules localSeconds found offset).2 ≤ found.2 + 1 := by
        unfold tryOffset
        dsimp only
        repeat' split
        all_goals simp
      have := ih (tryOffset rules localSeconds found offset)
      rw [List.foldl_cons, List.length_cons]
      omega

/-- Both sides read a local time as the same instant, shifted and folded alike. -/
theorem mapLocal_inApp {device : TimezoneRules} {app : App.TimezoneRules}
    (same : SameRules device app) (accepted : hasValidTransitionChain device = true)
    (localSeconds : Int64) :
    App.mapLocal app localSeconds = (mapLocal device localSeconds).map LocalMapping.inApp := by
  have gap : app.transitions.findSome? (App.mapGap localSeconds) =
      (device.transitions.findSome? (mapGap localSeconds)).map LocalMapping.inApp := by
    rw [same.transitions, List.findSome?_map, List.map_findSome?]
    exact congrArg (fun f => device.transitions.findSome? f)
      (funext fun transition => mapGap_inApp localSeconds transition)
  have loop (offsets : List Int32) (found : Option LocalMapping × Nat)
      (bounded : ∀ offset ∈ offsets, validUtcOffset offset = true) :
      (offsets.map Int32.toInt64).foldl (App.tryOffset app localSeconds)
          (found.1.map LocalMapping.inApp, Int64.ofNat found.2) =
        ((offsets.foldl (tryOffset device localSeconds) found).1.map LocalMapping.inApp,
          Int64.ofNat (offsets.foldl (tryOffset device localSeconds) found).2) := by
    induction offsets generalizing found with
    | nil => rfl
    | cons offset rest ih =>
        rw [List.map_cons, List.foldl_cons, List.foldl_cons,
          tryOffset_inApp same (bounded offset (List.mem_cons_self ..))]
        exact ih _ fun other mem => bounded other (List.mem_cons_of_mem _ mem)
  have found : ((distinctOffsets device).map Int32.toInt64).foldl
      (App.tryOffset app localSeconds) (none, 0) = _ :=
    loop (distinctOffsets device) (none, 0) fun offset mem => distinctOffsets_valid accepted mem
  have few := tryOffset_count_le device localSeconds (distinctOffsets device) (none, 0)
  have := length_distinctOffsets accepted
  unfold App.mapLocal mapLocal
  rw [gap, distinctOffsets_inApp same]
  cases device.transitions.findSome? (mapGap localSeconds) with
  | some mapping => rfl
  | none =>
      simp only [Option.map_none, found]
      generalize (distinctOffsets device).foldl (tryOffset device localSeconds) (none, 0) = ended
        at few
      have several : decide (Int64.ofNat ended.2 > 1) = decide (ended.2 > 1) :=
        decide_eq_decide.mpr (Int64.ofNat_lt_iff_lt (a := 1) (by decide) (by omega))
      rw [several, Option.map_map, Option.map_map]
      rfl

/-! ### Dates -/

theorem secondsPerDay_eq : App.secondsPerDay = kSecondsPerDay := rfl

theorem floorDiv_inApp (numerator denominator : Int64) :
    App.floorDiv numerator denominator = floorDiv numerator denominator := rfl

/-- A day starts at the same second on both sides, or at none. -/
theorem startOfDaySeconds_inApp (day : Int64) :
    App.startOfDaySeconds day = startOfDaySeconds day := by
  unfold App.startOfDaySeconds startOfDaySeconds
  rw [kInt64Max_eq, kInt64Min_eq]
  rfl

/-- The bit that the app shifts out for a weekday is the one that the firmware tabulates. -/
theorem maskedIndex_inApp : ∀ mask : Fin 256, ∀ index : Fin 7,
    (((UInt8.ofNat mask).toUInt64.toInt64 &&& (1 <<< Int64.ofNat index) == 0) =
      (UInt8.ofNat mask &&& weekdayBit (isoWeekdayOfIndex (Int64.ofNat index)) == 0)) := by
  decide +kernel

/-- The app's weekday is an index of a weekday, before 1970 too. -/
theorem weekdayIndexFromDays_mem (days : Int64) :
    0 ≤ (App.weekdayIndexFromDays days).toInt ∧ (App.weekdayIndexFromDays days).toInt < 7 := by
  have remainder : ((days + 3) % 7).toInt = (days + 3).toInt.tmod 7 := Int64.toInt_mod ..
  have bounds := emod_of_trunc (days + 3).toInt (by decide : (0 : Int) < 7)
  have negative : (days + 3) % 7 < 0 ↔ (days + 3).toInt.tmod 7 < 0 := by
    rw [Int64.lt_iff_toInt_lt, remainder]
    rfl
  unfold App.weekdayIndexFromDays
  simp only [negative]
  split at bounds
  · rename_i below
    have low := Int.lt_tmod_of_pos (days + 3).toInt (by decide : (0 : Int) < 7)
    rw [if_pos below, toInt_add] <;> rw [remainder, show (7 : Int64).toInt = 7 from rfl]
    · omega
    · omega
  · rename_i above
    rw [if_neg above, remainder]
    omega

/-- The mask leaves out the same days on both sides. -/
theorem masked_inApp (mask : UInt8) (day : Int64) :
    (mask.toUInt64.toInt64 &&& (1 <<< App.weekdayIndexFromDays day) == 0) =
      (mask &&& weekdayBit (weekdayFromDays day) == 0) := by
  have mem := weekdayIndexFromDays_mem day
  have index : App.weekdayIndexFromDays day =
      Int64.ofNat (App.weekdayIndexFromDays day).toInt.toNat := by
    rw [← Int64.toInt_inj, Int64.toInt_ofNat_of_lt (by omega)]
    omega
  have same := maskedIndex_inApp ⟨mask.toNat, mask.toNat_lt⟩
    ⟨(App.weekdayIndexFromDays day).toInt.toNat, by omega⟩
  rw [← index, UInt8.ofNat_toNat] at same
  exact same

section Civil

variable {dayOfEra yearOfEra dayOfYear monthPrime : Int64} {days : Int}

/-- A quotient by a literal. -/
theorem toInt_quotient {value divisor : Int64} {number : Int} (literal : divisor.toInt = number)
    (nonneg : 0 ≤ value.toInt) (pos : 0 < number) :
    (value / divisor).toInt = value.toInt / number := by
  rw [← literal] at pos ⊢
  exact toInt_div_of_nonneg nonneg pos

/-- The year in its era, from the day: nothing in the machine expression overflows. -/
theorem yearOfEra_toInt (same : dayOfEra.toInt = Calendar.dayOfEra days) :
    ((dayOfEra - dayOfEra / 1460 + dayOfEra / 36524 - dayOfEra / 146096) / 365).toInt =
      Calendar.yearOfEra days := by
  have mem := dayOfEra_mem days
  rw [← same] at mem
  have first := @toInt_quotient dayOfEra 1460 1460 rfl (by omega) (by decide)
  have second := @toInt_quotient dayOfEra 36524 36524 rfl (by omega) (by decide)
  have third := @toInt_quotient dayOfEra 146096 146096 rfl (by omega) (by decide)
  have inner : (dayOfEra - dayOfEra / 1460 + dayOfEra / 36524 - dayOfEra / 146096).toInt =
      dayOfEra.toInt - dayOfEra.toInt / 1460 + dayOfEra.toInt / 36524 -
        dayOfEra.toInt / 146096 := by
    simp (disch := omega) only [Int64.toInt_sub, Int64.toInt_add, first, second, third,
      bmod_of_fits]
  rw [Calendar.yearOfEra, withoutLeapDays, ← same, ← inner]
  exact toInt_quotient rfl (by rw [inner]; omega) (by decide)

/-- The day in a year that begins in March. -/
theorem dayOfYear_toInt (sameDay : dayOfEra.toInt = Calendar.dayOfEra days)
    (sameYear : yearOfEra.toInt = Calendar.yearOfEra days) :
    (dayOfEra - (365 * yearOfEra + yearOfEra / 4 - yearOfEra / 100)).toInt =
      Calendar.dayOfYear days := by
  have dayMem := dayOfEra_mem days
  have yearMem := yearOfEra_mem days
  have mem := dayOfYear_mem days
  rw [← sameDay] at dayMem
  rw [← sameYear] at yearMem
  simp only [Calendar.dayOfYear, eraYearStart, ← sameDay, ← sameYear] at mem ⊢
  have first := @toInt_quotient yearOfEra 4 4 rfl (by omega) (by decide)
  have second := @toInt_quotient yearOfEra 100 100 rfl (by omega) (by decide)
  simp (disch := omega) only [Int64.toInt_sub, Int64.toInt_add, Int64.toInt_mul,
    show (365 : Int64).toInt = 365 from rfl, first, second, bmod_of_fits]
  -- The year of an era has no fourth century to count.
  omega

/-- The month, counted from March. -/
theorem monthPrime_toInt (same : dayOfYear.toInt = Calendar.dayOfYear days) :
    ((5 * dayOfYear + 2) / 153).toInt = Calendar.monthPrime days := by
  have mem := dayOfYear_mem days
  rw [← same] at mem
  have inner : (5 * dayOfYear + 2).toInt = 5 * dayOfYear.toInt + 2 := by
    simp (disch := omega) only [Int64.toInt_add, Int64.toInt_mul,
      show (5 : Int64).toInt = 5 from rfl, show (2 : Int64).toInt = 2 from rfl, bmod_of_fits]
  rw [Calendar.monthPrime, ← same, ← inner]
  exact toInt_quotient rfl (by rw [inner]; omega) (by decide)

theorem civilDay_toInt (sameDay : dayOfYear.toInt = Calendar.dayOfYear days)
    (sameMonth : monthPrime.toInt = Calendar.monthPrime days) :
    (dayOfYear - (153 * monthPrime + 2) / 5 + 1).toInt = civilDay days := by
  have dayMem := dayOfYear_mem days
  have monthMem := monthPrime_mem days
  have mem := civilDay_mem days
  rw [← sameDay] at dayMem
  rw [← sameMonth] at monthMem
  simp only [civilDay, ← sameMonth, ← sameDay] at mem ⊢
  have inner : (153 * monthPrime + 2).toInt = 153 * monthPrime.toInt + 2 := by
    simp (disch := omega) only [Int64.toInt_add, Int64.toInt_mul,
      show (153 : Int64).toInt = 153 from rfl, show (2 : Int64).toInt = 2 from rfl, bmod_of_fits]
  have fifth := @toInt_quotient (153 * monthPrime + 2) 5 5 rfl (by rw [inner]; omega) (by decide)
  rw [inner] at fifth
  simp (disch := omega) only [Int64.toInt_sub, Int64.toInt_add, fifth,
    show (1 : Int64).toInt = 1 from rfl, bmod_of_fits]

theorem civilMonth_toInt (same : monthPrime.toInt = Calendar.monthPrime days) :
    (if monthPrime < 10 then monthPrime + 3 else monthPrime - 9).toInt = civilMonth days := by
  have mem := monthPrime_mem days
  rw [← same] at mem
  simp only [civilMonth, ← same]
  simp only [Int64.lt_iff_toInt_lt, show (10 : Int64).toInt = 10 from rfl]
  split
  · exact toInt_add (by rw [show (3 : Int64).toInt = 3 from rfl]; omega)
  · exact toInt_sub (by rw [show (9 : Int64).toInt = 9 from rfl]; omega)

end Civil

/-- The phone's date is the calendar's, unless the device cannot hold its year. -/
theorem civilFromDays_inApp {days : Int64} (near : NearDay days) :
    (App.civilFromDays days = none ∧ ¬ CivilYearFits days.toInt) ∨
      ∃ civil, App.civilFromDays days = some civil ∧ CivilYearFits days.toInt ∧
        civil.year.toInt = (Date.ofDayNumber days.toInt).year ∧
        civil.month.toInt = (Date.ofDayNumber days.toInt).month ∧
        civil.day.toInt = (Date.ofDayNumber days.toInt).day := by
  unfold App.civilFromDays
  extract_lets shifted era dayOfEra yearOfEra marchYear dayOfYear monthPrime day month year
  have era_eq : era.toInt = Calendar.era days.toInt := era_toInt near
  have dayOfEra_eq : dayOfEra.toInt = Calendar.dayOfEra days.toInt := dayOfEra_toInt near era_eq
  have yearOfEra_eq : yearOfEra.toInt = Calendar.yearOfEra days.toInt :=
    yearOfEra_toInt dayOfEra_eq
  have dayOfYear_eq : dayOfYear.toInt = Calendar.dayOfYear days.toInt :=
    dayOfYear_toInt dayOfEra_eq yearOfEra_eq
  have monthPrime_eq : monthPrime.toInt = Calendar.monthPrime days.toInt :=
    monthPrime_toInt dayOfYear_eq
  have day_eq : day.toInt = civilDay days.toInt := civilDay_toInt dayOfYear_eq monthPrime_eq
  have month_eq : month.toInt = civilMonth days.toInt := civilMonth_toInt monthPrime_eq
  have year_eq : year.toInt = civilYear days.toInt := by
    have carried : year = yearOfEra + era * 400 + (if month ≤ 2 then 1 else 0) := by
      simp only [year, marchYear]
      split
      · rfl
      · rw [Int64.add_zero]
    rw [carried]
    refine civilYear_toInt near yearOfEra_eq era_eq ?_
    simp only [Int64.le_iff_toInt_le, month_eq, show (2 : Int64).toInt = 2 from rfl]
    split
    · rfl
    · rfl
  have out_of_range : (year < App.kCivilYearMin || year > App.kCivilYearMax) = true ↔
      ¬ CivilYearFits days.toInt := by
    clear_value year
    simp only [Bool.or_eq_true, decide_eq_true_eq, gt_iff_lt, Int64.lt_iff_toInt_lt, year_eq,
      CivilYearFits, Date.ofDayNumber, show App.kCivilYearMin.toInt = -2 ^ 31 from rfl,
      show App.kCivilYearMax.toInt = 2 ^ 31 - 1 from rfl]
    omega
  by_cases fits : CivilYearFits days.toInt
  · rw [if_neg (by simpa only [out_of_range] using not_not.mpr fits)]
    exact .inr ⟨_, rfl, fits, year_eq, month_eq, day_eq⟩
  · rw [if_pos (out_of_range.mpr fits)]
    exact .inl ⟨rfl, fits⟩

/-! ### The search -/

section Search

variable {device : TimezoneRules} {app : App.TimezoneRules} {schedule : WeeklyAlarmSchedule}
  {appSchedule : App.WeeklyOccurrenceSchedule} (same : SameRules device app)
  (sameSchedule : SameSchedule schedule appSchedule)

/-- Two searches over the same dates agree, if they agree on each date. -/
theorem rel_findSome? {α β γ : Type} {related : β → γ → Prop} {f : α → Option β}
    {g : α → Option γ} (dates : List α) (at_date : ∀ date, Option.Rel related (f date) (g date)) :
    Option.Rel related (dates.findSome? f) (dates.findSome? g) := by
  induction dates with
  | nil => exact .none
  | cons date rest ih =>
      have first := at_date date
      rw [List.findSome?_cons, List.findSome?_cons]
      generalize f date = left at *
      generalize g date = right at *
      cases first with
      | none => exact ih
      | some found => exact .some found

/-- What is found agrees, and what stands in where nothing is found. -/
theorem rel_getD {β γ : Type} {related : β → γ → Prop} {left : Option β} {right : Option γ}
    {b : β} {c : γ} (found : Option.Rel related left right) (default : related b c) :
    related (left.getD b) (right.getD c) := by
  cases found with
  | none => exact default
  | some both => exact both

/-- Within a day both languages name the same hour and minute. -/
theorem timeOfDay_inApp {seconds : Int64} (range : 0 ≤ seconds.toInt ∧ seconds.toInt < 86400) :
    seconds / (60 * 60) = (seconds / (60 * 60)).toUInt64.toUInt8.toUInt64.toInt64 ∧
      App.modulo (seconds / 60) 60 =
        (seconds / 60 % 60).toUInt64.toUInt8.toUInt64.toInt64 := by
  have hour : (seconds / (60 * 60)).toInt = seconds.toInt / 3600 :=
    toInt_div_of_nonneg range.1 (by decide)
  have minutes : (seconds / 60).toInt = seconds.toInt / 60 :=
    toInt_div_of_nonneg range.1 (by decide)
  have minute : (seconds / 60 % 60).toInt = seconds.toInt / 60 % 60 := by
    rw [toInt_mod_of_nonneg (by omega), minutes]
    rfl
  refine ⟨toInt64_toUInt8 (by omega), ?_⟩
  have nonneg : ¬ seconds / 60 % 60 < 0 := by
    rw [Int64.lt_iff_toInt_lt, minute]
    simp only [Int64.toInt_zero]
    omega
  rw [App.modulo, if_neg nonneg]
  exact toInt64_toUInt8 (by omega)

include same sameSchedule

/-- One turn of the search: both sides pass over a date, or both answer alike. -/
theorem resolveDate_inApp (accepted : hasValidTransitionChain device = true)
    (valid : schedule.Valid) (afterUtcSeconds day : Int64) :
    Option.Rel SameOccurrence (resolveDate schedule device afterUtcSeconds day)
      (App.resolveDate appSchedule app afterUtcSeconds day) := by
  unfold resolveDate App.resolveDate
  rw [sameSchedule.hour, sameSchedule.minute, sameSchedule.mask, masked_inApp,
    startOfDaySeconds_inApp, kInt64Max_eq]
  split
  · exact .none
  obtain none | ⟨near, start, start_eq, start_toInt⟩ := startOfDaySeconds_cases day
  · simp only [none]
    exact .some (.failure .outOfRange)
  simp only [start_eq]
  have requested_toInt := secondsInRequestedDay_toInt schedule.localHour schedule.localMinute
  generalize schedule.localHour.toUInt64.toInt64 * 60 * 60 +
    schedule.localMinute.toUInt64.toInt64 * 60 = requested at *
  split
  · exact .some (.failure .outOfRange)
  have maps := mapLocal_inApp same accepted (start + requested)
  cases map : mapLocal device (start + requested) with
  | none =>
      rw [map] at maps
      simp only [maps, Option.map_none]
      exact .none
  | some mapping =>
      obtain ⟨appMapping, app_map, utc, resolved, offset, shifted, fold⟩ :
          ∃ appMapping, App.mapLocal app (start + requested) = some appMapping ∧
            appMapping.utcSeconds = mapping.utcSeconds ∧
            appMapping.resolvedLocalSeconds = mapping.resolvedLocalSeconds ∧
            appMapping.offsetSeconds = mapping.offsetSeconds.toInt64 ∧
            appMapping.shiftedForGap = mapping.shiftedForGap ∧
            appMapping.ambiguousFold = mapping.ambiguousFold := by
        rw [map] at maps
        exact ⟨_, maps, rfl, rfl, rfl, rfl, rfl⟩
      simp only [app_map, utc, resolved, offset, shifted, fold]
      by_cases past : mapping.utcSeconds ≤ afterUtcSeconds
      · rw [if_pos past, if_pos past]
        exact .none
      rw [if_neg past, if_neg past, floorDiv_inApp, secondsPerDay_eq]
      by_cases moved : (mapping.shiftedForGap &&
          floorDiv mapping.resolvedLocalSeconds kSecondsPerDay != day) = true
      · rw [if_pos moved, if_pos moved]
        exact .none
      rw [if_neg moved, if_neg moved]
      obtain ⟨none, unfit⟩ | ⟨civil, civil_eq, fits, reads⟩ := civilFromDays_cases near
      · obtain ⟨app_none, -⟩ | ⟨_, -, fits, -⟩ := civilFromDays_inApp near
        · rw [none, app_none]
          exact .some (.failure .outOfRange)
        · exact absurd fits unfit
      obtain ⟨-, unfit⟩ | ⟨appCivil, app_eq, -, year, month, date⟩ := civilFromDays_inApp near
      · exact absurd fits unfit
      rw [civil_eq, app_eq]
      dsimp only
      have seconds : 0 ≤ (mapping.resolvedLocalSeconds -
            floorDiv mapping.resolvedLocalSeconds kSecondsPerDay * kSecondsPerDay).toInt ∧
          (mapping.resolvedLocalSeconds -
            floorDiv mapping.resolvedLocalSeconds kSecondsPerDay * kSecondsPerDay).toInt < 86400 := by
        obtain ⟨local_eq, near_wall⟩ :=
          localSeconds_toInt valid fits start_toInt requested_toInt
        obtain ⟨_, map', mapped⟩ := mapLocal_mapped accepted near_wall
        obtain rfl := Option.some.inj (map.symm.trans map')
        rw [local_eq] at mapped
        have same_day := mapped.same_day valid fun away => moved (by
          rw [Bool.and_eq_true, bne_iff_ne, ne_eq, ← Int64.toInt_inj, floorDiv_toInt]
          exact away)
        have floor_day : floorDiv mapping.resolvedLocalSeconds kSecondsPerDay = day := by
          rw [← Int64.toInt_inj, floorDiv_toInt, same_day]
        rw [floor_day, secondsInDay_toInt fits same_day]
        exact secondsInDay_mem same_day
      obtain ⟨hour_eq, minute_eq⟩ := timeOfDay_inApp seconds
      refine .some ⟨rfl, rfl, ?_, ?_, ?_, hour_eq, minute_eq, rfl, rfl, rfl⟩
      · rw [← Int64.toInt_inj, year, Int32.toInt_toInt64, reads.year]
      · rw [← Int64.toInt_inj, month, toInt64_toInt_uint32, reads.month]
      · rw [← Int64.toInt_inj, date, toInt64_toInt_uint32, reads.day]

omit sameSchedule in

/-- Both sides refuse the same rules for the same schedules. -/
theorem usable_inApp (name : schedule.timezoneName = utf8 appSchedule.timezoneName)
    (version : schedule.timezoneRulesVersion = utf8 appSchedule.timezoneRulesVersion) :
    (appSchedule.timezoneName.isEmpty || appSchedule.timezoneRulesVersion.isEmpty ||
        app.name.isEmpty || app.version.isEmpty || appSchedule.timezoneName != app.name ||
        appSchedule.timezoneRulesVersion != app.version || !App.hasValidTransitionChain app) =
      (schedule.timezoneName.isEmpty || schedule.timezoneRulesVersion.isEmpty ||
        device.name.isEmpty || device.version.isEmpty || schedule.timezoneName != device.name ||
        schedule.timezoneRulesVersion != device.version ||
        !hasValidTransitionChain device) := by
  have differs (first second : String) : (utf8 first != utf8 second) = (first != second) := by
    rw [Bool.eq_iff_iff, bne_iff_ne, bne_iff_ne, ne_eq, ne_eq, utf8_inj]
  rw [name, version, same.name, same.version, isEmpty_utf8, isEmpty_utf8, isEmpty_utf8,
    isEmpty_utf8, differs, differs, hasValidTransitionChain_inApp same]

omit same in

/-- Both sides refuse the same schedules. -/
theorem valid_inApp :
    (decide (appSchedule.localHour > 23) || decide (appSchedule.localMinute > 59) ||
        appSchedule.isoWeekdayMask == 0 ||
        appSchedule.isoWeekdayMask &&& ~~~App.allIsoWeekdays != 0) =
      (decide (schedule.localHour > 23) || decide (schedule.localMinute > 59) ||
        schedule.isoWeekdayMask == 0 ||
        schedule.isoWeekdayMask &&& ~~~kAllIsoWeekdays != 0) := by
  have above : ∀ value limit : Fin 256, ((UInt8.ofNat value).toUInt64.toInt64 >
      (UInt8.ofNat limit).toUInt64.toInt64) = (UInt8.ofNat value > UInt8.ofNat limit) := by
    intro value limit
    rw [gt_iff_lt, gt_iff_lt, Int64.lt_iff_toInt_lt, UInt8.lt_iff_toNat_lt, toInt64_toInt_uint8,
      toInt64_toInt_uint8, Nat.cast_lt]
  have masks : ∀ mask : Fin 256,
      ((UInt8.ofNat mask).toUInt64.toInt64 == 0) = (UInt8.ofNat mask == 0) ∧
      ((UInt8.ofNat mask).toUInt64.toInt64 &&& ~~~App.allIsoWeekdays != 0) =
        (UInt8.ofNat mask &&& ~~~kAllIsoWeekdays != 0) := by
    decide +kernel
  have hour := above ⟨_, schedule.localHour.toNat_lt⟩ 23
  have minute := above ⟨_, schedule.localMinute.toNat_lt⟩ 59
  obtain ⟨zero, high⟩ := masks ⟨_, schedule.isoWeekdayMask.toNat_lt⟩
  simp only [UInt8.ofNat_toNat] at hour minute zero high
  rw [sameSchedule.hour, sameSchedule.minute, sameSchedule.mask, zero, high]
  congr 3
  · exact decide_eq_decide.mpr (iff_of_eq hour)
  · exact decide_eq_decide.mpr (iff_of_eq minute)

/-- The two resolvers agree. -/
theorem resolve_parity (afterUtcSeconds : Int64) :
    SameOccurrence (resolveNextOccurrence schedule device afterUtcSeconds)
      (App.resolveNextOccurrence appSchedule app afterUtcSeconds) := by
  unfold resolveNextOccurrence App.resolveNextOccurrence
  rw [valid_inApp sameSchedule, usable_inApp same sameSchedule.name sameSchedule.version,
    kInt64Max_eq, kInt64Min_eq, offsetAtUtc_inApp same]
  split
  · exact .failure .invalidSchedule
  rename_i valid
  split
  · exact .failure .invalidRules
  rename_i usable
  split
  · exact .failure .outOfRange
  dsimp only
  split
  · exact .failure .outOfRange
  have accepted := (usable_iff.mp usable).2.2.2.2
  rw [floorDiv_inApp, secondsPerDay_eq]
  have found := rel_findSome? (List.range 15) fun dayDelta =>
    resolveDate_inApp same sameSchedule accepted (valid_iff.mp valid) afterUtcSeconds
      (floorDiv (afterUtcSeconds + (offsetAtUtc device afterUtcSeconds).toInt64) kSecondsPerDay +
        Int64.ofNat dayDelta)
  exact rel_getD found (.failure .noOccurrence)

end Search

theorem resolve_parity_spring_gap :
    SameOccurrence (resolveNextOccurrence newYorkAlarm newYorkRules 1772928000)
      (App.resolveNextOccurrence
        { localHour := 2, localMinute := 30, isoWeekdayMask := 64, timezoneName := "NY",
          timezoneRulesVersion := "a" }
        { name := "NY", version := "a", initialUtcOffsetSeconds := -18000,
          transitions := [{ atUtcSeconds := 1772953200, offsetBeforeSeconds := -18000,
                            offsetAfterSeconds := -14400 }] }
        1772928000) :=
  resolve_parity ⟨by decide, by decide, by decide, by decide⟩
    ⟨by decide, by decide, by decide, by decide, by decide⟩ _

end DawnDock
