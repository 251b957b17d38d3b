import DawnDock.CommittedScheduleEvaluator
import Mathlib.Data.List.Sort
import Mathlib.Data.Int.Order.Basic

/-!
The order of scheduled alarms.

`scheduledBefore` compares the instant, then the alarm id. On alarms with distinct ids
it is a strict total order, so a sorted schedule does not depend on the order it was
stored in (`sortAlarms_eq_of_perm`), and its last alarm comes after every other one
(`scheduledBefore_last`).
-/

namespace DawnDock

section

variable {first second third : StoredAlarmDefinition} {alarms : List StoredAlarmDefinition}

theorem scheduledBefore_iff : scheduledBefore first second = true ↔
    first.scheduledUtcSeconds < second.scheduledUtcSeconds ∨
      (first.scheduledUtcSeconds = second.scheduledUtcSeconds ∧ first.id < second.id) := by
  unfold scheduledBefore
  split
  · rename_i differ
    simp [differ]
  · rename_i same
    simp [not_not.mp same, Int64.lt_irrefl]

theorem scheduledBefore_trans (one : scheduledBefore first second = true)
    (other : scheduledBefore second third = true) : scheduledBefore first third = true := by
  apply scheduledBefore_iff.mpr
  rcases scheduledBefore_iff.mp one with earlier | ⟨same, smaller⟩
  · rcases scheduledBefore_iff.mp other with later | ⟨same, -⟩
    · exact .inl (Int64.lt_trans earlier later)
    · exact .inl (same ▸ earlier)
  · rcases scheduledBefore_iff.mp other with later | ⟨same', larger⟩
    · exact .inl (same ▸ later)
    · exact .inr ⟨same.trans same', List.lt_trans smaller larger⟩

theorem scheduledBefore_irrefl (alarm : StoredAlarmDefinition) :
    scheduledBefore alarm alarm = false := by
  refine Bool.not_eq_true _ |>.mp fun before => ?_
  rcases scheduledBefore_iff.mp before with earlier | ⟨-, smaller⟩
  · exact Int64.lt_irrefl earlier
  · exact List.lt_irrefl _ smaller

theorem scheduledBefore_asymm (before : scheduledBefore first second = true) :
    scheduledBefore second first = false := by
  refine Bool.not_eq_true _ |>.mp fun after => ?_
  have cycle := scheduledBefore_trans before after
  rw [scheduledBefore_irrefl] at cycle
  cases cycle

theorem scheduledBefore_trichotomy (first second : StoredAlarmDefinition) :
    scheduledBefore first second = true ∨
      (first.scheduledUtcSeconds = second.scheduledUtcSeconds ∧ first.id = second.id) ∨
      scheduledBefore second first = true := by
  rw [scheduledBefore_iff, scheduledBefore_iff]
  by_cases same : first.scheduledUtcSeconds = second.scheduledUtcSeconds
  · rcases Std.lt_trichotomy first.id second.id with smaller | equal | larger
    · exact .inl (.inr ⟨same, smaller⟩)
    · exact .inr (.inl ⟨same, equal⟩)
    · exact .inr (.inr (.inr ⟨same.symm, larger⟩))
  · rcases Int64.lt_or_lt_of_ne same with earlier | later
    · exact .inl (.inl earlier)
    · exact .inr (.inr (.inl later))

/-- The relation the schedule is sorted by. -/
def NotAfter (left right : StoredAlarmDefinition) : Prop := (!scheduledBefore right left) = true

instance : DecidableRel NotAfter := fun left right =>
  inferInstanceAs (Decidable ((!scheduledBefore right left) = true))

theorem notAfter_iff : NotAfter first second ↔ scheduledBefore second first = false := by
  simp [NotAfter]

instance : Std.Total NotAfter where
  total left right := by
    rw [notAfter_iff, notAfter_iff]
    cases before : scheduledBefore right left with
    | false => exact .inl rfl
    | true => exact .inr (scheduledBefore_asymm before)

instance : IsTrans StoredAlarmDefinition NotAfter where
  trans left middle right := by
    rw [notAfter_iff, notAfter_iff, notAfter_iff]
    intro one other
    refine Bool.not_eq_true _ |>.mp fun before => ?_
    rcases scheduledBefore_trichotomy left middle with earlier | ⟨instant, id⟩ | later
    · have early := scheduledBefore_trans before earlier
      rw [other] at early
      cases early
    · have early : scheduledBefore right middle = true := by
        rw [scheduledBefore_iff, ← instant, ← id, ← scheduledBefore_iff]
        exact before
      rw [other] at early
      cases early
    · rw [one] at later
      cases later

/-- A sorted schedule is strictly increasing. -/
theorem sortAlarms_sorted (distinct : (alarms.map (·.id)).Nodup) :
    (sortAlarms alarms).Pairwise (scheduledBefore · · = true) := by
  have sorted : (sortAlarms alarms).Pairwise NotAfter := List.pairwise_insertionSort NotAfter alarms
  have ids : ((sortAlarms alarms).map (·.id)).Nodup :=
    ((List.perm_insertionSort NotAfter alarms).map _).nodup_iff.mpr distinct
  refine (sorted.and (List.pairwise_map.mp ids)).imp ?_
  rintro left right ⟨notAfter, differ⟩
  rcases scheduledBefore_trichotomy left right with before | ⟨-, same⟩ | after
  · exact before
  · exact absurd same differ
  · rw [notAfter_iff.mp notAfter] at after
    cases after

/-- The sorted schedule does not depend on the order it was stored in. -/
theorem sortAlarms_eq_of_perm {other : List StoredAlarmDefinition} (perm : alarms.Perm other)
    (distinct : (alarms.map (·.id)).Nodup) : sortAlarms alarms = sortAlarms other := by
  have distinct' : (other.map (·.id)).Nodup := (perm.map _).nodup_iff.mp distinct
  refine List.Perm.eq_of_pairwise ?_ (sortAlarms_sorted distinct) (sortAlarms_sorted distinct') ?_
  · intro left right _ _ before after
    rw [scheduledBefore_asymm before] at after
    cases after
  · exact ((List.perm_insertionSort NotAfter alarms).trans perm).trans
      (List.perm_insertionSort NotAfter other).symm

/-- The last alarm of a sorted schedule comes after every other one. -/
theorem scheduledBefore_last {sorted : List StoredAlarmDefinition} {last : StoredAlarmDefinition}
    (increasing : sorted.Pairwise (scheduledBefore · · = true))
    (ends : sorted.getLast? = some last) :
    ∀ alarm ∈ sorted, alarm ≠ last → scheduledBefore alarm last = true := by
  obtain ⟨earlier, rfl⟩ := List.getLast?_eq_some_iff.mp ends
  intro alarm mem differ
  rcases List.mem_append.mp mem with before | same
  · exact (List.pairwise_append.mp increasing).2.2 alarm before last (List.mem_singleton_self _)
  · exact absurd (List.mem_singleton.mp same) differ

end

end DawnDock
