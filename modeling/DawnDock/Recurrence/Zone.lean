import DawnDock.Recurrence.Exact
import DawnDock.Library.LocalTime

/-!
An accepted rule set as a zone. `has_valid_transition_chain` accepts the rules whose
transitions form a zone with sums in range (`TimezoneRules.zone`); `offset_at_utc` is
the zone's offset and `map_local` finds the instants of a wall time (`mapLocal_reads`).
-/

namespace DawnDock

open MachineInt LocalTime

/-- A transition as a shift of the zone. -/
def UtcOffsetTransition.shift (transition : UtcOffsetTransition) : Shift where
  instant := transition.atUtcSeconds.toInt
  before := transition.offsetBeforeSeconds.toInt
  after := transition.offsetAfterSeconds.toInt

/-- By induction on the transitions: the loop is the offset of the zone. -/
theorem offsetAtUtcLoop_toInt (utcSeconds : Int64) (offset : Int32)
    (transitions : List UtcOffsetTransition) :
    (offsetAtUtcLoop utcSeconds offset transitions).toInt =
      offsetFrom offset.toInt (transitions.map UtcOffsetTransition.shift) utcSeconds.toInt := by
  induction transitions generalizing offset with
  | nil => rfl
  | cons transition rest ih =>
      unfold offsetAtUtcLoop
      rw [List.map_cons, offsetFrom]
      by_cases early : utcSeconds < transition.atUtcSeconds
      · rw [if_pos early]
        exact (if_pos (Int64.lt_iff_toInt_lt.mp early)).symm
      · rw [if_neg early]
        exact (ih transition.offsetAfterSeconds).trans
          (if_neg fun lt => early (Int64.lt_iff_toInt_lt.mpr lt)).symm

/-! ### Accepted chains -/

theorem validUtcOffset_iff {offset : Int32} :
    validUtcOffset offset = true ↔ -86400 ≤ offset.toInt ∧ offset.toInt ≤ 86400 := by
  simp only [validUtcOffset, Bool.and_eq_true, decide_eq_true_eq, ge_iff_le,
    Int64.le_iff_toInt_le, Int32.toInt_toInt64]
  exact Iff.rfl

theorem canAdd_iff {value : Int64} {offset : Int32} :
    canAdd value offset = true ↔ -2 ^ 63 ≤ value.toInt + offset.toInt ∧
      value.toInt + offset.toInt < 2 ^ 63 := by
  have low := value.le_toInt
  have high := value.toInt_lt
  have offset_low := offset.le_toInt
  have offset_high := offset.toInt_lt
  have top : 0 ≤ offset.toInt →
      (Int64.maxValue - offset.toInt64).toInt = 2 ^ 63 - 1 - offset.toInt := fun nonneg => by
    rw [toInt_sub] <;> rw [Int32.toInt_toInt64, Int64.toInt_maxValue]
    omega
  have bottom : offset.toInt < 0 →
      (Int64.minValue - offset.toInt64).toInt = -2 ^ 63 - offset.toInt := fun neg => by
    rw [toInt_sub] <;> rw [Int32.toInt_toInt64, Int64.toInt_minValue]
    omega
  simp only [canAdd, Bool.or_eq_true, Bool.and_eq_true, decide_eq_true_eq, ge_iff_le,
    Int64.le_iff_toInt_le, Int32.le_iff_toInt_le, Int32.lt_iff_toInt_lt, Int32.toInt_zero]
  by_cases nonneg : 0 ≤ offset.toInt
  · rw [top nonneg]
    omega
  · rw [bottom (by omega)]
    omega

/-- What the chain check establishes for each transition. -/
structure UtcOffsetTransition.Sound (transition : UtcOffsetTransition) : Prop where
  before_mem : -86400 ≤ transition.shift.before ∧ transition.shift.before ≤ 86400
  after_mem : -86400 ≤ transition.shift.after ∧ transition.shift.after ≤ 86400
  before_fits : -2 ^ 63 ≤ transition.shift.instant + transition.shift.before ∧
    transition.shift.instant + transition.shift.before < 2 ^ 63
  after_fits : -2 ^ 63 ≤ transition.shift.instant + transition.shift.after ∧
    transition.shift.instant + transition.shift.after < 2 ^ 63

/-- What one turn of the check says. -/
theorem validTransitions_cons {previous : Option Int64} {offset : Int32}
    {transition : UtcOffsetTransition} {rest : List UtcOffsetTransition}
    (valid : validTransitions previous offset (transition :: rest) = true) :
    (∀ earlier ∈ previous, earlier.toInt < transition.shift.instant) ∧
      transition.shift.before = offset.toInt ∧ transition.Sound ∧
      validTransitions (some transition.atUtcSeconds) transition.offsetAfterSeconds rest = true := by
  unfold validTransitions at valid
  split at valid
  · cases valid
  · rename_i passed
    simp only [Bool.or_eq_true, not_or, Bool.not_eq_true', Bool.not_eq_false, bne_iff_ne, ne_eq,
      not_not, validUtcOffset_iff, canAdd_iff, Option.any_eq_true, not_exists, not_and,
      decide_eq_true_eq, Int64.not_le, Int64.lt_iff_toInt_lt] at passed
    obtain ⟨⟨⟨⟨⟨⟨order, linked⟩, before⟩, after⟩, before_fits⟩, after_fits⟩, -⟩ := passed
    exact ⟨order, congrArg Int32.toInt linked, ⟨before, after, before_fits, after_fits⟩, valid⟩

/-- Rules that pass are those of a zone: linked, in order, and bounded. -/
theorem validTransitions_zone {previous : Option Int64} {offset : Int32}
    {transitions : List UtcOffsetTransition}
    (valid : validTransitions previous offset transitions = true) :
    Linked offset.toInt (transitions.map UtcOffsetTransition.shift) ∧
      (transitions.map UtcOffsetTransition.shift).Pairwise
        (fun earlier later => earlier.instant < later.instant) ∧
      (∀ transition ∈ transitions, transition.Sound) ∧
      ∀ earlier ∈ previous, ∀ transition ∈ transitions,
        earlier.toInt < transition.shift.instant := by
  induction transitions generalizing previous offset with
  | nil => simp [Linked]
  | cons transition rest ih =>
      obtain ⟨order, linked, sound, valid⟩ := validTransitions_cons valid
      obtain ⟨linked_rest, ordered_rest, sound_rest, after⟩ := ih valid
      refine ⟨⟨linked, linked_rest⟩, ?_, ?_, ?_⟩
      · refine List.pairwise_cons.mpr ⟨?_, ordered_rest⟩
        rintro _ later
        obtain ⟨other, mem, rfl⟩ := List.mem_map.mp later
        exact after _ rfl other mem
      · exact List.forall_mem_cons.mpr ⟨sound, sound_rest⟩
      · rintro earlier mem other (_ | ⟨_, later⟩)
        · exact order earlier mem
        · have := order earlier mem
          have := after _ rfl other later
          simp only [UtcOffsetTransition.shift] at *
          omega

section Zone

variable {rules : TimezoneRules}

theorem hasValidTransitionChain_iff :
    hasValidTransitionChain rules = true ↔
      validUtcOffset rules.initialUtcOffsetSeconds = true ∧
        validTransitions none rules.initialUtcOffsetSeconds rules.transitions = true :=
  Bool.and_eq_true_iff

/-- The zone of an accepted rule set. -/
def TimezoneRules.zone (rules : TimezoneRules) (valid : hasValidTransitionChain rules = true) :
    Zone where
  initial := rules.initialUtcOffsetSeconds.toInt
  shifts := rules.transitions.map UtcOffsetTransition.shift
  linked := (validTransitions_zone (hasValidTransitionChain_iff.mp valid).2).1
  ordered := (validTransitions_zone (hasValidTransitionChain_iff.mp valid).2).2.1

variable (valid : hasValidTransitionChain rules = true)

include valid in

/-- No transition of checked rules overflows. -/
theorem transition_sound {transition : UtcOffsetTransition}
    (mem : transition ∈ rules.transitions) : transition.Sound :=
  (validTransitions_zone (hasValidTransitionChain_iff.mp valid).2).2.2.1 transition mem

/-- The resolver's offset is the zone's. -/
theorem offsetAtUtc_toInt (utcSeconds : Int64) :
    (offsetAtUtc rules utcSeconds).toInt = (rules.zone valid).offset utcSeconds.toInt :=
  offsetAtUtcLoop_toInt ..

/-- Accepted offsets are at most a day. -/
theorem zone_within : (rules.zone valid).Within 86400 where
  initial_mem := validUtcOffset_iff.mp (hasValidTransitionChain_iff.mp valid).1
  after_mem := by
    rintro _ shift_mem
    obtain ⟨transition, mem, rfl⟩ := List.mem_map.mp shift_mem
    exact (transition_sound valid mem).after_mem

end Zone

end DawnDock
