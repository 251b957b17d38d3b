import Mathlib.Order.Bounds.Basic
import Mathlib.Data.Int.LeastGreatest

/-!
Wall clocks with a changing UTC offset. A `Zone` is a starting offset and the
shifts that follow it; `Zone.wall` is the wall time shown at an instant.

A wall time is shown by some instant or falls in the gap of a forward shift
(`Zone.exists_wall_eq`). `Zone.Policy` picks the one instant that stands for a
wall time: the first that shows it, or the shift that skips it. When the shifts of
a zone lie far apart (`Zone.Spread`) the policy follows the clock
(`Policy.le_of_wall_lt`, `Policy.lt_of_day_lt`), and of two wall times a period
apart at most one is lost.
-/

namespace LocalTime

/-- At `instant` the offset changes from `before` to `after`. -/
structure Shift where
  instant : Int
  before : Int
  after : Int

/-- Wall times the shift jumps over. -/
def Shift.Skips (shift : Shift) (wall : Int) : Prop :=
  shift.instant + shift.before ≤ wall ∧ wall < shift.instant + shift.after

/-- The wall time at which the clock goes on after the shift. -/
def Shift.resumes (shift : Shift) : Int := shift.instant + shift.after

def offsetFrom (current : Int) : List Shift → Int → Int
  | [], _ => current
  | shift :: later, instant =>
    if instant < shift.instant then current else offsetFrom shift.after later instant

/-- Each shift starts from the offset the one before it left. -/
def Linked (current : Int) : List Shift → Prop
  | [] => True
  | shift :: later => shift.before = current ∧ Linked shift.after later

structure Zone where
  initial : Int
  shifts : List Shift
  linked : Linked initial shifts
  ordered : shifts.Pairwise fun earlier later => earlier.instant < later.instant

def Zone.offset (zone : Zone) (instant : Int) : Int := offsetFrom zone.initial zone.shifts instant

def Zone.wall (zone : Zone) (instant : Int) : Int := instant + zone.offset instant

/-! ### Offsets -/

section Offsets

variable {current instant : Int} {shifts : List Shift} {shift : Shift}

theorem offsetFrom_mem : offsetFrom current shifts instant ∈ current :: shifts.map Shift.after := by
  induction shifts generalizing current with
  | nil => simp [offsetFrom]
  | cons head later ih =>
      unfold offsetFrom
      split
      · simp
      · exact List.mem_cons_of_mem _ ih

theorem before_mem (linked : Linked current shifts) (mem : shift ∈ shifts) :
    shift.before ∈ current :: shifts.map Shift.after := by
  induction shifts generalizing current with
  | nil => cases mem
  | cons head later ih =>
      obtain rfl | mem := List.mem_cons.mp mem
      · simp [linked.1]
      · exact List.mem_cons_of_mem _ (ih linked.2 mem)

theorem offsetFrom_of_lt (early : ∀ shift ∈ shifts, instant < shift.instant) :
    offsetFrom current shifts instant = current := by
  cases shifts with
  | nil => rfl
  | cons head later => exact if_pos (early head (List.mem_cons_self ..))

/-- From the last shift on, the offset is the one it left. -/
theorem offsetFrom_eq_after
    (ordered : shifts.Pairwise fun earlier later => earlier.instant < later.instant)
    (mem : shift ∈ shifts) (reached : shift.instant ≤ instant)
    (last : ∀ other ∈ shifts, other.instant ≤ instant → other.instant ≤ shift.instant) :
    offsetFrom current shifts instant = shift.after := by
  induction shifts generalizing current with
  | nil => cases mem
  | cons head later ih =>
      obtain ⟨head_lt, ordered⟩ := List.pairwise_cons.mp ordered
      have last_later other (h : other ∈ later) := last other (List.mem_cons_of_mem _ h)
      unfold offsetFrom
      obtain rfl | mem := List.mem_cons.mp mem
      · rw [if_neg (by omega)]
        refine offsetFrom_of_lt fun other h => ?_
        have := head_lt other h
        have := last_later other h
        omega
      · have := head_lt shift mem
        rw [if_neg (by omega)]
        exact ih ordered mem last_later

/-- Up to the next shift, the offset is the one it starts from. -/
theorem offsetFrom_eq_before
    (ordered : shifts.Pairwise fun earlier later => earlier.instant < later.instant)
    (linked : Linked current shifts) (mem : shift ∈ shifts) (ahead : instant < shift.instant)
    (next : ∀ other ∈ shifts, other.instant < shift.instant → other.instant ≤ instant) :
    offsetFrom current shifts instant = shift.before := by
  induction shifts generalizing current with
  | nil => cases mem
  | cons head later ih =>
      obtain ⟨head_lt, ordered⟩ := List.pairwise_cons.mp ordered
      unfold offsetFrom
      obtain rfl | mem := List.mem_cons.mp mem
      · rw [if_pos ahead, linked.1]
      · have := next head (List.mem_cons_self ..) (head_lt shift mem)
        rw [if_neg (by omega)]
        exact ih ordered linked.2 mem fun other h => next other (List.mem_cons_of_mem _ h)

/-- Two instants with no shift between them have one offset. -/
theorem offsetFrom_eq_of_quiet {later : Int} (le : instant ≤ later)
    (quiet : ∀ shift ∈ shifts, shift.instant ≤ instant ∨ later < shift.instant) :
    offsetFrom current shifts later = offsetFrom current shifts instant := by
  induction shifts generalizing current with
  | nil => rfl
  | cons head rest ih =>
      have rest_quiet other (h : other ∈ rest) := quiet other (List.mem_cons_of_mem _ h)
      unfold offsetFrom
      obtain reached | ahead := quiet head (List.mem_cons_self ..)
      · rw [if_neg (by omega), if_neg (by omega)]
        exact ih rest_quiet
      · rw [if_pos ahead, if_pos (by omega)]

/-- A clock that has gone past `target` has shown it or skipped it on the way. -/
theorem exists_shown_or_skipped {start target : Int}
    (ordered : shifts.Pairwise fun earlier later => earlier.instant < later.instant)
    (linked : Linked current shifts) (from_start : ∀ shift ∈ shifts, start ≤ shift.instant)
    (le : start ≤ instant) (ahead : start + current ≤ target)
    (past : target < instant + offsetFrom current shifts instant) :
    (∃ shown, start ≤ shown ∧ shown < instant ∧
        shown + offsetFrom current shifts shown = target) ∨
      ∃ shift ∈ shifts, shift.Skips target := by
  induction shifts generalizing current start with
  | nil => exact .inl ⟨target - current, by omega, by simp only [offsetFrom] at past; omega,
      by simp [offsetFrom]⟩
  | cons head later ih =>
      obtain ⟨head_lt, ordered⟩ := List.pairwise_cons.mp ordered
      obtain ⟨rfl, linked⟩ := linked
      have start_le := from_start head (List.mem_cons_self ..)
      by_cases early : target - head.before < head.instant
      · refine .inl ⟨target - head.before, by omega, ?_, by simp [offsetFrom, early]⟩
        unfold offsetFrom at past
        split at past <;> omega
      by_cases skipped : target < head.instant + head.after
      · exact .inr ⟨head, List.mem_cons_self .., by omega, skipped⟩
      have reached : ¬ instant < head.instant := by
        intro before
        rw [offsetFrom, if_pos before] at past
        omega
      rw [offsetFrom, if_neg reached] at past
      obtain ⟨shown, ge, lt, eq⟩ | ⟨shift, mem, skips⟩ :=
        ih ordered linked (fun other h => le_of_lt (head_lt other h)) (by omega) (by omega) past
      · refine .inl ⟨shown, by omega, lt, ?_⟩
        rw [offsetFrom, if_neg (by omega), eq]
      · exact .inr ⟨shift, List.mem_cons_of_mem _ mem, skips⟩

end Offsets

namespace Zone

variable {zone : Zone} {shift : Shift} {instant wall : Int}

theorem offset_shift (mem : shift ∈ zone.shifts) : zone.offset shift.instant = shift.after :=
  offsetFrom_eq_after zone.ordered mem (le_refl _) fun _ _ le => le

theorem wall_shift (mem : shift ∈ zone.shifts) : zone.wall shift.instant = shift.resumes := by
  rw [wall, offset_shift mem, Shift.resumes]

/-- An instant early enough for every shift to lie behind it. -/
theorem exists_start (shifts : List Shift) (limit : Int) :
    ∃ start ≤ limit, ∀ shift ∈ shifts, start ≤ shift.instant := by
  induction shifts with
  | nil => exact ⟨limit, le_refl _, by simp⟩
  | cons head later ih =>
      obtain ⟨start, le, all⟩ := ih
      refine ⟨min start head.instant, by omega, ?_⟩
      rintro shift (_ | ⟨_, mem⟩)
      · omega
      · have := all shift mem
        omega

def Skipped (zone : Zone) (wall : Int) : Prop := ∃ shift ∈ zone.shifts, shift.Skips wall

/-- A clock past a wall time has shown it, unless a shift skipped it. -/
theorem exists_wall_eq_of_lt (past : wall < zone.wall instant) (kept : ¬ zone.Skipped wall) :
    ∃ shown < instant, zone.wall shown = wall := by
  obtain ⟨start, le, all⟩ := exists_start zone.shifts (min instant (wall - zone.initial))
  obtain ⟨shown, -, lt, eq⟩ | skipped :=
    exists_shown_or_skipped zone.ordered zone.linked all (by omega) (by omega) past
  · exact ⟨shown, lt, eq⟩
  · exact absurd skipped kept

end Zone

/-! ### The instant that stands for a wall time -/

/-- The first instant that shows the wall time. A skipped wall time is moved to the
shift that skips it, if the clock goes on in the same `day`. -/
inductive Zone.Policy (zone : Zone) (day wall : Int) : Int → Prop
  | moved {shift} (mem : shift ∈ zone.shifts) (skips : shift.Skips wall)
      (same_day : shift.resumes / day = wall / day) : Policy zone day wall shift.instant
  | shown {instant} (kept : ¬ zone.Skipped wall)
      (first : IsLeast {instant | zone.wall instant = wall} instant) :
      Policy zone day wall instant

/-- A wall time skipped by a shift after which the clock goes on in a later day. -/
def Zone.Lost (zone : Zone) (day wall : Int) : Prop :=
  ∃ shift ∈ zone.shifts, shift.Skips wall ∧ shift.resumes / day ≠ wall / day

/-! ### Zones whose offsets are bounded -/

structure Zone.Within (zone : Zone) (bound : Int) : Prop where
  initial_mem : -bound ≤ zone.initial ∧ zone.initial ≤ bound
  after_mem : ∀ shift ∈ zone.shifts, -bound ≤ shift.after ∧ shift.after ≤ bound

namespace Zone.Within

variable {zone : Zone} {bound day wall : Int} {shift : Shift}

theorem offset_mem (within : zone.Within bound) (instant : Int) :
    -bound ≤ zone.offset instant ∧ zone.offset instant ≤ bound := by
  obtain eq | mem := List.mem_cons.mp (@offsetFrom_mem zone.initial instant zone.shifts)
  · rw [offset, eq]
    exact within.initial_mem
  · obtain ⟨shift, mem, eq⟩ := List.mem_map.mp mem
    rw [offset, ← eq]
    exact within.after_mem shift mem

theorem before_mem (within : zone.Within bound) (mem : shift ∈ zone.shifts) :
    -bound ≤ shift.before ∧ shift.before ≤ bound := by
  obtain eq | mem := List.mem_cons.mp (LocalTime.before_mem zone.linked mem)
  · rw [eq]
    exact within.initial_mem
  · obtain ⟨other, mem, eq⟩ := List.mem_map.mp mem
    rw [← eq]
    exact within.after_mem other mem

theorem wall_mem (within : zone.Within bound) (instant : Int) :
    instant - bound ≤ zone.wall instant ∧ zone.wall instant ≤ instant + bound := by
  have := within.offset_mem instant
  unfold Zone.wall
  omega

/-- A wall time that no shift skips is shown. -/
theorem exists_wall_eq (within : zone.Within bound) (kept : ¬ zone.Skipped wall) :
    ∃ instant, zone.wall instant = wall := by
  have past := within.wall_mem (wall + bound + 1)
  obtain ⟨shown, -, eq⟩ :=
    Zone.exists_wall_eq_of_lt (show wall < zone.wall (wall + bound + 1) by omega) kept
  exact ⟨shown, eq⟩

/-- A wall time that is not lost has an instant that stands for it. -/
theorem exists_policy (within : zone.Within bound) (kept : ¬ zone.Lost day wall) :
    ∃ instant, zone.Policy day wall instant := by
  by_cases skipped : zone.Skipped wall
  · obtain ⟨shift, mem, skips⟩ := skipped
    by_cases same_day : shift.resumes / day = wall / day
    · exact ⟨_, .moved mem skips same_day⟩
    · exact absurd ⟨shift, mem, skips, same_day⟩ kept
  · obtain ⟨first, eq, least⟩ := Int.exists_least_of_bdd
      (P := fun instant => zone.wall instant = wall)
      ⟨wall - bound, fun other eq => by have := within.wall_mem other; omega⟩
      (within.exists_wall_eq skipped)
    exact ⟨first, .shown skipped ⟨eq, fun other h => least other h⟩⟩

end Zone.Within

/-! ### Zones whose shifts lie far apart -/

/-- Between two shifts there is room for a period and the widest change of offset. -/
structure Zone.Spread (zone : Zone) (bound period : Int) : Prop extends zone.Within bound where
  room : 2 * bound ≤ period
  apart : zone.shifts.Pairwise fun earlier later =>
    earlier.instant + period + 2 * bound ≤ later.instant

namespace Zone.Spread

variable {zone : Zone} {bound period day : Int} {shift : Shift} {instant wall : Int}

theorem eq_or_apart (spread : zone.Spread bound period) {first second : Shift}
    (first_mem : first ∈ zone.shifts) (second_mem : second ∈ zone.shifts) :
    first = second ∨ first.instant + period + 2 * bound ≤ second.instant ∨
      second.instant + period + 2 * bound ≤ first.instant := by
  have either : zone.shifts.Pairwise fun first second =>
      first = second ∨ first.instant + period + 2 * bound ≤ second.instant ∨
        second.instant + period + 2 * bound ≤ first.instant :=
    spread.apart.imp fun apart => .inr (.inl apart)
  exact List.Pairwise.forall_of_forall_of_flip (fun _ _ => .inl rfl) either
    (spread.apart.imp fun apart => .inr (.inr apart)) first_mem second_mem

/-- The offset within reach of a shift is decided by that shift alone. -/
theorem offset_near (spread : zone.Spread bound period) (mem : shift ∈ zone.shifts)
    (near : shift.instant ≤ instant + 2 * bound ∧ instant < shift.instant + 4 * bound) :
    zone.offset instant = if instant < shift.instant then shift.before else shift.after := by
  have room := spread.room
  have bounded := spread.initial_mem
  split
  · refine offsetFrom_eq_before zone.ordered zone.linked mem (by assumption) fun other h lt => ?_
    obtain rfl | apart | apart := spread.eq_or_apart mem h <;> omega
  · refine offsetFrom_eq_after zone.ordered mem (by omega) fun other h le => ?_
    obtain rfl | apart | apart := spread.eq_or_apart mem h <;> omega

theorem skips_mem (spread : zone.Spread bound period) (mem : shift ∈ zone.shifts)
    (skips : shift.Skips wall) :
    shift.instant - bound ≤ wall ∧ wall < shift.instant + bound := by
  have before := spread.toWithin.before_mem mem
  have after := spread.after_mem shift mem
  unfold Shift.Skips at skips
  omega

/-- A wall time is skipped by one shift only. -/
theorem skips_unique (spread : zone.Spread bound period) {first second : Shift}
    (first_mem : first ∈ zone.shifts) (second_mem : second ∈ zone.shifts)
    (skips : first.Skips wall) (skips' : second.Skips wall) : first = second := by
  have room := spread.room
  have reach := spread.skips_mem first_mem skips
  have reach' := spread.skips_mem second_mem skips'
  obtain eq | apart | apart := spread.eq_or_apart first_mem second_mem
  · exact eq
  · omega
  · omega

/-- The instant of a wall time lies close to it. -/
theorem policy_mem (spread : zone.Spread bound period) (policy : zone.Policy day wall instant) :
    instant - bound ≤ wall ∧ wall ≤ instant + bound := by
  cases policy with
  | moved mem skips _ =>
      have := spread.skips_mem mem skips
      omega
  | shown _ first =>
      have eq : zone.wall instant = wall := first.1
      have := spread.toWithin.wall_mem instant
      omega

end Zone.Spread

namespace Zone.Policy

variable {zone : Zone} {bound period day : Int} {shift : Shift} {instant wall now : Int}

/-- Wall times the clock has gone past stand for instants it has gone past. -/
theorem le_of_wall_lt (spread : zone.Spread bound period) (policy : zone.Policy day wall instant)
    (past : wall < zone.wall now) : instant ≤ now := by
  cases policy with
  | @moved shift mem skips _ =>
      by_contra ahead
      have room := spread.room
      have bounded := spread.initial_mem
      have reach := spread.skips_mem mem skips
      have bounds := spread.toWithin.wall_mem now
      have offset : zone.offset now = _ := spread.offset_near mem (by omega)
      rw [if_pos (by omega)] at offset
      unfold Shift.Skips Zone.wall at *
      omega
  | shown kept first =>
      obtain ⟨shown, lt, eq⟩ := exists_wall_eq_of_lt past kept
      have := first.2 eq
      omega

theorem unique (spread : zone.Spread bound period) {first second : Int}
    (policy : zone.Policy day wall first) (policy' : zone.Policy day wall second) :
    first = second := by
  cases policy with
  | moved mem skips _ =>
      cases policy' with
      | moved mem' skips' _ => rw [spread.skips_unique mem mem' skips skips']
      | shown kept _ => exact absurd ⟨_, mem, skips⟩ kept
  | shown kept least =>
      cases policy' with
      | moved mem skips _ => exact absurd ⟨_, mem, skips⟩ kept
      | shown _ least' => exact least.unique least'

/-- The clock shows the wall time, or the moved one, at the instant. -/
theorem wall_eq_or (policy : zone.Policy day wall instant) :
    zone.wall instant = wall ∨ wall < zone.wall instant ∧ zone.wall instant / day = wall / day := by
  cases policy with
  | moved mem skips same_day =>
      rw [wall_shift mem]
      exact .inr ⟨skips.2, same_day⟩
  | shown _ first => exact .inl first.1

/-- Instants of later days come later. -/
theorem lt_of_day_lt (spread : zone.Spread bound period) {first second wall' : Int}
    (policy : zone.Policy day wall first) (policy' : zone.Policy day wall' second)
    (pos : 0 < day) (lt : wall / day < wall' / day) : first < second := by
  have walls : wall < wall' := by
    by_contra le
    have := Int.ediv_le_ediv pos (show wall' ≤ wall by omega)
    omega
  have shows := policy.wall_eq_or
  have shows' := policy'.wall_eq_or
  have le : first ≤ second := policy.le_of_wall_lt spread (by omega)
  have ne : first ≠ second := by
    rintro rfl
    obtain eq | ⟨-, eq⟩ := shows <;> obtain eq' | ⟨-, eq'⟩ := shows' <;> simp_all
  omega

end Zone.Policy

/-! ### A wall time and the same time a period later -/

namespace Zone.Spread

variable {zone : Zone} {bound period day now instant wall : Int}

theorem lt_of_wall_far (spread : zone.Spread bound period) (policy : zone.Policy day wall instant)
    (far : zone.wall now + 2 * bound < wall) : now < instant := by
  have := spread.policy_mem policy
  have := spread.toWithin.wall_mem now
  omega

theorem not_skipped_add_period (spread : zone.Spread bound period) (skipped : zone.Skipped wall) :
    ¬ zone.Skipped (wall + period) := by
  rintro ⟨second, second_mem, again⟩
  obtain ⟨first, first_mem, skips⟩ := skipped
  have room := spread.room
  have reach := spread.skips_mem first_mem skips
  have reach' := spread.skips_mem second_mem again
  obtain rfl | apart | apart := spread.eq_or_apart first_mem second_mem
  · have := spread.toWithin.before_mem first_mem
    have := spread.after_mem first first_mem
    unfold Shift.Skips at skips again
    omega
  · omega
  · omega

/-- A wall time ahead of the clock stands for an instant ahead, if the same time a
period later is skipped: no other shift can have turned the clock back since. -/
theorem lt_of_skipped_add_period (spread : zone.Spread bound period)
    (policy : zone.Policy day wall instant) (ahead : zone.wall now < wall)
    (skipped : zone.Skipped (wall + period)) : now < instant := by
  by_contra passed
  obtain ⟨second, second_mem, skips⟩ := skipped
  have room := spread.room
  have bounded := spread.initial_mem
  have bounds := spread.toWithin.wall_mem now
  have near := spread.policy_mem policy
  have reach := spread.skips_mem second_mem skips
  by_cases quiet : ∀ shift ∈ zone.shifts, shift.instant ≤ instant ∨ now < shift.instant
  · have same : zone.offset now = zone.offset instant :=
      offsetFrom_eq_of_quiet (by omega) quiet
    have shows := policy.wall_eq_or
    unfold Zone.wall at ahead shows
    omega
  · push Not at quiet
    obtain ⟨first, first_mem, after, before⟩ := quiet
    obtain rfl | apart | apart := spread.eq_or_apart first_mem second_mem <;> omega

end Zone.Spread

end LocalTime
