import DawnDock.Library.Calendar
import Mathlib.Data.Set.Insert

/-!
Recurrence rules of a calendar (RFC 5545) that count days or weeks, and the weekdays a
rule without an end falls on.

With an interval of 1 these are the weekdays the rule names, or all of them for a daily
rule and the first day's own for a weekly one (`weekdays_of_interval_one`).
-/

namespace RecurrenceRule

open Calendar

inductive Frequency where
  | daily | weekly
deriving DecidableEq, Repr

/-- `byDay` holds weekdays, 0 for Monday; `bounded` is a rule with a count or a last day. -/
structure Rule where
  frequency : Frequency
  interval : Nat
  bounded : Bool
  byDay : Option (Set Int)

/-- The Monday of a day's week. -/
def weekStart (day : Int) : Int := day - weekday day

/-- The day is in the recurrence set that starts with the day `start`, were it without an
end. -/
def Rule.Occurs (rule : Rule) (start day : Int) : Prop :=
  start ≤ day ∧
    match rule.frequency with
    | .daily =>
      (day - start) % rule.interval = 0 ∧ ∀ days ∈ rule.byDay, weekday day ∈ days
    | .weekly =>
      (weekStart day - weekStart start) / 7 % rule.interval = 0 ∧
        weekday day ∈ rule.byDay.getD {weekday start}

/-- The weekdays the rule falls on. -/
def Rule.weekdays (rule : Rule) (start : Int) : Set Int :=
  {w | ∃ day, rule.Occurs start day ∧ weekday day = w}

theorem weekday_mem (day : Int) : 0 ≤ weekday day ∧ weekday day < 7 := by
  unfold weekday
  omega

/-- Every weekday comes up again. -/
theorem exists_weekday (start : Int) {w : Int} (mem : 0 ≤ w ∧ w < 7) :
    ∃ day, start ≤ day ∧ weekday day = w := by
  refine ⟨start + (w - weekday start) % 7, ?_, ?_⟩
  · omega
  · unfold weekday
    omega

/-- The weekdays a rule names, seen from its first day. -/
def Rule.named (rule : Rule) (start : Int) : Set Int :=
  match rule.frequency with
  | .daily => rule.byDay.getD Set.univ
  | .weekly => rule.byDay.getD {weekday start}

theorem weekdays_of_interval_one {rule : Rule} (one : rule.interval = 1) (start : Int) :
    rule.weekdays start = {w | (0 ≤ w ∧ w < 7) ∧ w ∈ rule.named start} := by
  ext w
  constructor
  · rintro ⟨day, ⟨-, occurs⟩, rfl⟩
    refine ⟨weekday_mem day, ?_⟩
    unfold Rule.named
    cases frequency : rule.frequency with
    | daily =>
        rw [frequency] at occurs
        cases named : rule.byDay with
        | none => trivial
        | some days => exact occurs.2 days (by rw [named]; rfl)
    | weekly =>
        rw [frequency] at occurs
        exact occurs.2
  · rintro ⟨mem, named⟩
    obtain ⟨day, later, is_day⟩ := exists_weekday start mem
    refine ⟨day, ⟨later, ?_⟩, is_day⟩
    unfold Rule.named at named
    cases frequency : rule.frequency with
    | daily =>
        rw [frequency] at named
        refine ⟨by rw [one]; omega, fun days chosen => ?_⟩
        rw [Option.mem_def] at chosen
        rw [chosen, Option.getD_some] at named
        rwa [is_day]
    | weekly =>
        rw [frequency] at named
        refine ⟨by rw [one]; omega, ?_⟩
        rwa [is_day]

end RecurrenceRule
