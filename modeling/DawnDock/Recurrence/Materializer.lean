import DawnDock.Journal.Order
import DawnDock.Library.Collect
import DawnDock.Recurrence.Resolver

/-!
The schedule materializer (`schedule_materializer.cpp`): the weekly alarms of a schedule
with their next instants, in scheduled order.

An alarm without rules, or that the resolver refuses, fails the whole schedule
(`materialize_eq_materialized`).
-/

namespace DawnDock

structure WeeklyAlarmDefinition where
  id : Text
  scheduleRevision : UInt64
  enabled : Bool
  schedule : WeeklyAlarmSchedule
deriving DecidableEq, Repr

inductive MaterializationStatus where
  | materialized | invalidInput | missingTimezoneRules | invalidRules | invalidSchedule | outOfRange
deriving DecidableEq, Repr

structure MaterializedAlarm where
  storedAlarm : StoredAlarmDefinition
  localDate : CivilDate := {}
  resolvedLocalHour : UInt8 := 0
  resolvedLocalMinute : UInt8 := 0
  utcOffsetSeconds : Int32 := 0
  shiftedForGap : Bool := false
  ambiguousFold : Bool := false
deriving DecidableEq, Repr

structure MaterializationFailure where
  alarmId : Text
  resolverStatus : OccurrenceResolutionStatus := .noOccurrence
deriving DecidableEq, Repr

structure MaterializationResult where
  status : MaterializationStatus := .materialized
  alarms : List MaterializedAlarm := []
  failures : List MaterializationFailure := []
deriving DecidableEq, Repr

def mapStatus : OccurrenceResolutionStatus → MaterializationStatus
  | .invalidSchedule => .invalidSchedule
  | .invalidRules => .invalidRules
  | .outOfRange => .outOfRange
  | .noOccurrence => .invalidSchedule
  | .resolved => .materialized

def findMatchingRules (rules : List TimezoneRules) (schedule : WeeklyAlarmSchedule) :
    Option TimezoneRules :=
  rules.find? fun candidate => candidate.name == schedule.timezoneName &&
    candidate.version == schedule.timezoneRulesVersion

def validAlarmDefinition (alarm : WeeklyAlarmDefinition) : Bool :=
  !alarm.id.isEmpty && alarm.scheduleRevision != 0

/-- The entry of a resolved alarm. -/
def ResolvedOccurrence.entry (occurrence : ResolvedOccurrence) (alarm : WeeklyAlarmDefinition) :
    MaterializedAlarm where
  storedAlarm :=
    { id := alarm.id, scheduleRevision := alarm.scheduleRevision, enabled := true
      scheduledUtcSeconds := occurrence.scheduledUtcSeconds }
  localDate := occurrence.localDate
  resolvedLocalHour := occurrence.resolvedLocalHour
  resolvedLocalMinute := occurrence.resolvedLocalMinute
  utcOffsetSeconds := occurrence.utcOffsetSeconds
  shiftedForGap := occurrence.shiftedForGap
  ambiguousFold := occurrence.ambiguousFold

/-- The body of the loop for one alarm. -/
def materializeAlarm (timezoneRules : List TimezoneRules) (afterUtcSeconds : Int64)
    (alarm : WeeklyAlarmDefinition) :
    Except (MaterializationStatus × MaterializationFailure) MaterializedAlarm :=
  if !validAlarmDefinition alarm then
    .error (.invalidInput, { alarmId := alarm.id, resolverStatus := .invalidSchedule })
  else if !alarm.enabled then
    .ok { storedAlarm :=
            { id := alarm.id, scheduleRevision := alarm.scheduleRevision, enabled := false
              scheduledUtcSeconds := 0 } }
  else
    match findMatchingRules timezoneRules alarm.schedule with
    | none => .error (.missingTimezoneRules, { alarmId := alarm.id, resolverStatus := .invalidRules })
    | some rules =>
        let occurrence := resolveNextOccurrence alarm.schedule rules afterUtcSeconds
        if occurrence.status ≠ .resolved then
          .error (mapStatus occurrence.status,
            { alarmId := alarm.id, resolverStatus := occurrence.status })
        else .ok (occurrence.entry alarm)

def MaterializationResult.push (result : MaterializationResult) (entry : MaterializedAlarm) :
    MaterializationResult :=
  { result with alarms := result.alarms ++ [entry] }

/-- The status is the one of the last failure. -/
def MaterializationResult.fail (result : MaterializationResult)
    (failed : MaterializationStatus × MaterializationFailure) : MaterializationResult :=
  { result with status := failed.1, failures := result.failures ++ [failed.2] }

/-- The comparison `std::sort` is given. -/
def materializedBefore (left right : MaterializedAlarm) : Bool :=
  if left.storedAlarm.scheduledUtcSeconds ≠ right.storedAlarm.scheduledUtcSeconds then
    left.storedAlarm.scheduledUtcSeconds < right.storedAlarm.scheduledUtcSeconds
  else left.storedAlarm.id < right.storedAlarm.id

/-- `std::sort`; the order is total where the ids are distinct. -/
def sortMaterialized (alarms : List MaterializedAlarm) : List MaterializedAlarm :=
  alarms.insertionSort fun left right => !materializedBefore right left

def materializeNextScheduleEntries (alarms : List WeeklyAlarmDefinition)
    (timezoneRules : List TimezoneRules) (afterUtcSeconds : Int64) : MaterializationResult :=
  let result := alarms.foldl (Collect.step (materializeAlarm timezoneRules afterUtcSeconds)
    MaterializationResult.push MaterializationResult.fail) {}
  if !result.failures.isEmpty then { result with alarms := [] }
  else { result with alarms := sortMaterialized result.alarms }

/-! ### What a schedule materializes to -/

section

variable {timezoneRules : List TimezoneRules} {afterUtcSeconds : Int64}
  {alarms : List WeeklyAlarmDefinition}

theorem mapStatus_eq_materialized {status : OccurrenceResolutionStatus} :
    mapStatus status = .materialized ↔ status = .resolved := by
  cases status <;> decide

/-- No failure is reported as a success. -/
theorem materializeAlarm_error {alarm : WeeklyAlarmDefinition} {status : MaterializationStatus}
    {failure : MaterializationFailure}
    (failed : materializeAlarm timezoneRules afterUtcSeconds alarm = .error (status, failure)) :
    status ≠ .materialized := by
  unfold materializeAlarm at failed
  split at failed
  · cases failed
    decide
  split at failed
  · cases failed
  split at failed
  · cases failed
    decide
  dsimp only at failed
  split at failed
  · rename_i unresolved
    cases failed
    intro success
    exact unresolved (mapStatus_eq_materialized.mp success)
  · cases failed

/-- Every alarm has its entry. -/
abbrev Materializes (timezoneRules : List TimezoneRules) (afterUtcSeconds : Int64)
    (alarms : List WeeklyAlarmDefinition) (entries : List MaterializedAlarm) : Prop :=
  Collect.All (materializeAlarm timezoneRules afterUtcSeconds) alarms entries

theorem foldl_push (entries : List MaterializedAlarm) (result : MaterializationResult) :
    entries.foldl MaterializationResult.push result =
      { result with alarms := result.alarms ++ entries } := by
  induction entries generalizing result with
  | nil => simp
  | cons entry rest ih => simp [ih, MaterializationResult.push]

theorem Materializes.result {entries : List MaterializedAlarm}
    (all : Materializes timezoneRules afterUtcSeconds alarms entries) :
    materializeNextScheduleEntries alarms timezoneRules afterUtcSeconds =
      { alarms := sortMaterialized entries } := by
  rw [materializeNextScheduleEntries, Collect.foldl_of_all all, foldl_push]
  rfl

/-- A result that reports a failure. -/
def MaterializationResult.Failed (result : MaterializationResult) : Prop :=
  result.failures ≠ [] ∧ result.status ≠ .materialized

theorem failed_fail {alarm : WeeklyAlarmDefinition}
    {error : MaterializationStatus × MaterializationFailure} (result : MaterializationResult)
    (failed : materializeAlarm timezoneRules afterUtcSeconds alarm = .error error) :
    (result.fail error).Failed :=
  ⟨by simp [MaterializationResult.fail], materializeAlarm_error failed⟩

/-- A schedule materializes if and only if every alarm of it has its entry. -/
theorem materialize_eq_materialized :
    (materializeNextScheduleEntries alarms timezoneRules afterUtcSeconds).status =
        .materialized ↔
      ∃ entries, Materializes timezoneRules afterUtcSeconds alarms entries := by
  constructor
  · intro success
    rcases Collect.all_or_error (materializeAlarm timezoneRules afterUtcSeconds) alarms with
      all | ⟨alarm, mem, error, failed⟩
    · exact all
    · obtain ⟨some, failure⟩ := Collect.foldl_of_error
        (materializeAlarm timezoneRules afterUtcSeconds) MaterializationResult.push
        MaterializationResult.fail (P := MaterializationResult.Failed)
        (fun result _ _ failed => failed_fail result failed) (fun _ _ failed => failed) mem failed {}
      rw [materializeNextScheduleEntries, if_pos (by simpa using some)] at success
      exact absurd success failure
  · rintro ⟨entries, all⟩
    rw [all.result]

/-! ### The first entry -/

end

section

variable {α : Type} (stored : α → StoredAlarmDefinition)

theorem pairwise_sortByStored (values : List α) :
    (values.insertionSort fun left right => !scheduledBefore (stored right) (stored left)).Pairwise
      fun left right => NotAfter (stored left) (stored right) := by
  have total : Std.Total fun left right => NotAfter (stored left) (stored right) :=
    ⟨fun left right => Std.Total.total (stored left) (stored right)⟩
  have transitive : IsTrans α fun left right => NotAfter (stored left) (stored right) :=
    ⟨fun left middle right => IsTrans.trans (stored left) (stored middle) (stored right)⟩
  exact List.pairwise_insertionSort (fun left right => NotAfter (stored left) (stored right)) values

/-- With distinct ids the sorted list does not depend on the order it is given in. -/
theorem sortByStored_eq_of_perm {values others : List α} (perm : values.Perm others)
    (distinct : (values.map fun value => (stored value).id).Nodup) :
    (values.insertionSort fun left right => !scheduledBefore (stored right) (stored left)) =
      others.insertionSort fun left right => !scheduledBefore (stored right) (stored left) := by
  refine List.Perm.eq_of_pairwise ?_ (pairwise_sortByStored stored values)
    (pairwise_sortByStored stored others) ?_
  · intro left right leftMem rightMem before after
    rw [List.mem_insertionSort] at leftMem rightMem
    rw [notAfter_iff] at before after
    have ids : (stored left).id = (stored right).id := by
      rcases scheduledBefore_trichotomy (stored left) (stored right) with
        earlier | ⟨-, same⟩ | later
      · rw [after] at earlier
        cases earlier
      · exact same
      · rw [before] at later
        cases later
    exact List.inj_on_of_nodup_map distinct leftMem (perm.mem_iff.mpr rightMem) ids
  · exact ((List.perm_insertionSort _ values).trans perm).trans
      (List.perm_insertionSort _ others).symm

end

/-- The first of some values sorted by a stored alarm: no other one comes before it. -/
theorem find_insertionSort {α : Type} {stored : α → StoredAlarmDefinition} {p : α → Bool}
    {values : List α} {first : α}
    (found : (values.insertionSort fun left right =>
      !scheduledBefore (stored right) (stored left)).find? p = some first) :
    first ∈ values ∧ p first = true ∧
      ∀ value ∈ values, p value = true → scheduledBefore (stored value) (stored first) = false := by
  have increasing := pairwise_sortByStored stored values
  obtain ⟨passes, before, after, shape, skipped⟩ := List.find?_eq_some_iff_append.mp found
  rw [shape] at increasing
  have mem {value : α} : value ∈ values ↔ value ∈ before ++ first :: after := by
    rw [← shape, List.mem_insertionSort]
  refine ⟨mem.mpr (List.mem_append_right _ List.mem_cons_self), passes, ?_⟩
  intro value listed accepted
  rcases List.mem_append.mp (mem.mp listed) with early | later
  · have rejected := skipped value early
    rw [accepted] at rejected
    cases rejected
  · rcases List.mem_cons.mp later with rfl | later
    · exact scheduledBefore_irrefl _
    · have ordered := (List.pairwise_append.mp increasing).2.1
      exact notAfter_iff.mp ((List.pairwise_cons.mp ordered).1 value later)

/-! ### All or nothing -/

section

variable {timezoneRules : List TimezoneRules} {afterUtcSeconds : Int64}
  {alarms : List WeeklyAlarmDefinition} {alarm : WeeklyAlarmDefinition}

/-- The alarm has matching rules and resolves under them. -/
def Resolves (timezoneRules : List TimezoneRules) (afterUtcSeconds : Int64)
    (alarm : WeeklyAlarmDefinition) (occurrence : ResolvedOccurrence) : Prop :=
  ∃ rules, findMatchingRules timezoneRules alarm.schedule = some rules ∧
    resolveNextOccurrence alarm.schedule rules afterUtcSeconds = occurrence ∧
    occurrence.status = .resolved

/-- Nothing is wrong with the alarm. -/
def Materializable (timezoneRules : List TimezoneRules) (afterUtcSeconds : Int64)
    (alarm : WeeklyAlarmDefinition) : Prop :=
  alarm.id ≠ [] ∧ alarm.scheduleRevision ≠ 0 ∧
    (alarm.enabled = true → ∃ occurrence, Resolves timezoneRules afterUtcSeconds alarm occurrence)

/-- A disabled alarm is entered at instant 0, an enabled one as it resolves. -/
def EntryOf (timezoneRules : List TimezoneRules) (afterUtcSeconds : Int64)
    (alarm : WeeklyAlarmDefinition) (entry : MaterializedAlarm) : Prop :=
  (alarm.enabled = false ∧ entry = { storedAlarm := ⟨alarm.id, alarm.scheduleRevision, false, 0⟩ }) ∨
    (alarm.enabled = true ∧ ∃ occurrence,
      Resolves timezoneRules afterUtcSeconds alarm occurrence ∧ entry = occurrence.entry alarm)

theorem validAlarmDefinition_iff :
    validAlarmDefinition alarm = true ↔ alarm.id ≠ [] ∧ alarm.scheduleRevision ≠ 0 := by
  simp [validAlarmDefinition]

theorem materializeAlarm_ok {entry : MaterializedAlarm} :
    materializeAlarm timezoneRules afterUtcSeconds alarm = .ok entry ↔
      (alarm.id ≠ [] ∧ alarm.scheduleRevision ≠ 0) ∧
        EntryOf timezoneRules afterUtcSeconds alarm entry := by
  rw [← validAlarmDefinition_iff]
  unfold materializeAlarm EntryOf Resolves
  cases validAlarmDefinition alarm with
  | false => simp
  | true =>
      cases alarm.enabled with
      | false => simp [eq_comm]
      | true =>
          simp only [Bool.not_true, Bool.false_eq_true, if_false, true_and, Bool.true_eq_false,
            false_and, false_or]
          cases findMatchingRules timezoneRules alarm.schedule with
          | none => simp
          | some rules =>
              dsimp only
              split
              · rename_i unresolved
                simp [unresolved]
              · rename_i resolved
                simp [not_not.mp resolved, eq_comm]

theorem materializable_iff : Materializable timezoneRules afterUtcSeconds alarm ↔
    ∃ entry, materializeAlarm timezoneRules afterUtcSeconds alarm = .ok entry := by
  simp only [materializeAlarm_ok]
  unfold Materializable EntryOf
  constructor
  · rintro ⟨id, revision, resolves⟩
    cases enabled : alarm.enabled with
    | false => exact ⟨_, ⟨id, revision⟩, .inl ⟨rfl, rfl⟩⟩
    | true =>
        obtain ⟨occurrence, resolved⟩ := resolves enabled
        exact ⟨_, ⟨id, revision⟩, .inr ⟨rfl, occurrence, resolved, rfl⟩⟩
  · rintro ⟨entry, ⟨id, revision⟩, entered⟩
    refine ⟨id, revision, fun enabled => ?_⟩
    rcases entered with ⟨disabled, -⟩ | ⟨-, occurrence, resolved, -⟩
    · rw [enabled] at disabled
      cases disabled
    · exact ⟨occurrence, resolved⟩

instance : DecidablePred (Materializable timezoneRules afterUtcSeconds) := fun alarm =>
  decidable_of_iff ((materializeAlarm timezoneRules afterUtcSeconds alarm).toOption.isSome = true) <| by
    rw [materializable_iff]
    cases materializeAlarm timezoneRules afterUtcSeconds alarm <;> simp [Except.toOption]

theorem materializeAlarm_failure {error : MaterializationStatus × MaterializationFailure}
    (failed : materializeAlarm timezoneRules afterUtcSeconds alarm = .error error) :
    error.2.alarmId = alarm.id := by
  unfold materializeAlarm at failed
  split at failed
  · cases failed
    rfl
  split at failed
  · cases failed
  split at failed
  · cases failed
    rfl
  dsimp only at failed
  split at failed
  · cases failed
    rfl
  · cases failed

/-- One failure for each alarm that has no entry. -/
theorem foldl_failures (result : MaterializationResult) :
    (alarms.foldl (Collect.step (materializeAlarm timezoneRules afterUtcSeconds)
        MaterializationResult.push MaterializationResult.fail) result).failures.map (·.alarmId) =
      result.failures.map (·.alarmId) ++
        (alarms.filter fun alarm =>
          ¬ Materializable timezoneRules afterUtcSeconds alarm).map (·.id) := by
  induction alarms generalizing result with
  | nil => simp
  | cons first rest ih =>
      rw [List.foldl_cons, ih]
      cases entered : materializeAlarm timezoneRules afterUtcSeconds first with
      | ok entry =>
          have fine : Materializable timezoneRules afterUtcSeconds first :=
            materializable_iff.mpr ⟨entry, entered⟩
          rw [List.filter_cons_of_neg (by simpa using fine), Collect.step, entered]
          rfl
      | error error =>
          have offends : ¬ Materializable timezoneRules afterUtcSeconds first := by
            intro fine
            obtain ⟨entry, ok⟩ := materializable_iff.mp fine
            rw [entered] at ok
            cases ok
          have step : Collect.step (materializeAlarm timezoneRules afterUtcSeconds)
              MaterializationResult.push MaterializationResult.fail result first =
                result.fail error := by
            rw [Collect.step, entered]
          have named : (result.fail error).failures.map (·.alarmId) =
              result.failures.map (·.alarmId) ++ [first.id] := by
            rw [← materializeAlarm_failure entered]
            exact List.map_append
          rw [step, named, List.filter_cons_of_pos (by simpa using offends), List.map_cons,
            List.append_assoc]
          rfl

theorem materialized_iff_all :
    (materializeNextScheduleEntries alarms timezoneRules afterUtcSeconds).status =
        .materialized ↔ ∀ alarm ∈ alarms, Materializable timezoneRules afterUtcSeconds alarm := by
  rw [materialize_eq_materialized]
  constructor
  · rintro ⟨entries, all⟩ alarm mem
    obtain ⟨entry, -, entered⟩ := Collect.exists_of_mem_left all mem
    exact materializable_iff.mpr ⟨entry, entered⟩
  · intro fine
    rcases Collect.all_or_error (materializeAlarm timezoneRules afterUtcSeconds) alarms with
      all | ⟨alarm, mem, error, failed⟩
    · exact all
    · obtain ⟨entry, entered⟩ := materializable_iff.mp (fine alarm mem)
      rw [failed] at entered
      cases entered

/-- The entries keep the ids of their alarms. -/
theorem Materializes.ids {entries : List MaterializedAlarm}
    (all : Materializes timezoneRules afterUtcSeconds alarms entries) :
    entries.map (·.storedAlarm.id) = alarms.map (·.id) := by
  induction all with
  | nil => rfl
  | @cons first entry _ _ entered _ ih =>
      rw [List.map_cons, List.map_cons, ih]
      congr 1
      obtain ⟨-, ⟨-, rfl⟩ | ⟨-, occurrence, -, rfl⟩⟩ := materializeAlarm_ok.mp entered
      · rfl
      · rfl

/-- Otherwise there is no entry, and one failure for each offending alarm. -/
theorem materialize_failed (failure :
    (materializeNextScheduleEntries alarms timezoneRules afterUtcSeconds).status ≠
      .materialized) :
    (materializeNextScheduleEntries alarms timezoneRules afterUtcSeconds).alarms = [] ∧
      (materializeNextScheduleEntries alarms timezoneRules afterUtcSeconds).failures.map
          (·.alarmId) = (alarms.filter fun alarm =>
            ¬ Materializable timezoneRules afterUtcSeconds alarm).map (·.id) := by
  have named := @foldl_failures timezoneRules afterUtcSeconds alarms {}
  rw [List.map_nil, List.nil_append] at named
  have fails : ¬ (alarms.foldl (Collect.step (materializeAlarm timezoneRules afterUtcSeconds)
      MaterializationResult.push MaterializationResult.fail) {}).failures = [] := by
    intro none
    rw [none, List.map_nil, eq_comm, List.map_eq_nil_iff, List.filter_eq_nil_iff] at named
    exact failure (materialized_iff_all.mpr fun alarm mem => by simpa using named alarm mem)
  rw [materializeNextScheduleEntries, if_pos (by simpa using fails)]
  exact ⟨rfl, named⟩

/-- A schedule materializes exactly if nothing is wrong with any of its alarms: into one
entry for each, in scheduled order; otherwise into one failure for each offending alarm.
With distinct ids the order of the alarms does not matter. -/
theorem materialize_all_or_nothing (alarms : List WeeklyAlarmDefinition)
    (timezoneRules : List TimezoneRules) (afterUtcSeconds : Int64) :
    let result := materializeNextScheduleEntries alarms timezoneRules afterUtcSeconds
    (result.status = .materialized ↔
        ∀ alarm ∈ alarms, Materializable timezoneRules afterUtcSeconds alarm) ∧
      (result.status = .materialized → result.failures = [] ∧
        result.alarms.Pairwise (fun left right => NotAfter left.storedAlarm right.storedAlarm) ∧
        ∃ entries, List.Forall₂ (EntryOf timezoneRules afterUtcSeconds) alarms entries ∧
          result.alarms.Perm entries) ∧
      (result.status ≠ .materialized → result.alarms = [] ∧
        result.failures.map (·.alarmId) = (alarms.filter fun alarm =>
          ¬ Materializable timezoneRules afterUtcSeconds alarm).map (·.id)) ∧
      ((alarms.map (·.id)).Nodup → ∀ other, alarms.Perm other →
        let again := materializeNextScheduleEntries other timezoneRules afterUtcSeconds
        (again.status = .materialized ↔ result.status = .materialized) ∧
          again.alarms = result.alarms) := by
  intro result
  have materialized : result.status = .materialized ↔
      ∀ alarm ∈ alarms, Materializable timezoneRules afterUtcSeconds alarm := materialized_iff_all
  refine ⟨materialized, ?_, materialize_failed, ?_⟩
  · intro success
    obtain ⟨entries, all⟩ := materialize_eq_materialized.mp success
    have shape : result = { alarms := sortMaterialized entries } := Materializes.result all
    rw [shape]
    refine ⟨rfl, pairwise_sortByStored MaterializedAlarm.storedAlarm entries, entries, ?_,
      List.perm_insertionSort _ entries⟩
    exact all.imp fun alarm entry entered => (materializeAlarm_ok.mp entered).2
  · intro distinct other perm again
    have same : again.status = .materialized ↔ result.status = .materialized := by
      rw [materialized, show again.status = .materialized ↔ _ from materialized_iff_all]
      exact forall_congr' fun alarm => by rw [perm.mem_iff]
    refine ⟨same, ?_⟩
    by_cases success : result.status = .materialized
    · obtain ⟨entries, all⟩ := materialize_eq_materialized.mp success
      obtain ⟨others, reordered, permuted⟩ := Collect.All.perm all perm
      have shape : result = { alarms := sortMaterialized entries } := Materializes.result all
      have other : again = { alarms := sortMaterialized others } := Materializes.result reordered
      rw [shape, other]
      refine sortByStored_eq_of_perm MaterializedAlarm.storedAlarm permuted ?_
      rw [Materializes.ids reordered]
      exact (perm.map _).nodup_iff.mp distinct
    · have none : again.alarms = [] := (materialize_failed fun fine => success (same.mp fine)).1
      rw [none, (materialize_failed success).1]

end

end DawnDock
