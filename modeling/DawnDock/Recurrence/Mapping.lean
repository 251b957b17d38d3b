import Mathlib.Data.List.Induction
import DawnDock.Recurrence.Zone

/-!
`map_local` under accepted rules (`mapLocal_mapped`): a wall time away from the ends of
the 64-bit range always has a mapping. It is the shift that skips the wall time, or the
first instant that shows it together with whether another instant does.
-/

namespace DawnDock

open MachineInt LocalTime

/-- What a mapping of `wall` says. -/
inductive LocalMapping.Mapped (zone : Zone) (wall : Int) (mapping : LocalMapping) : Prop
  | moved {shift} (mem : shift ∈ zone.shifts) (skips : shift.Skips wall)
      (shifted : mapping.shiftedForGap = true) (fold : mapping.ambiguousFold = false)
      (instant : mapping.utcSeconds.toInt = shift.instant)
      (resumes : mapping.resolvedLocalSeconds.toInt = shift.resumes)
      (offset : mapping.offsetSeconds.toInt = shift.after)
  | shown (kept : ¬ zone.Skipped wall) (unshifted : mapping.shiftedForGap = false)
      (first : IsLeast {instant | zone.wall instant = wall} mapping.utcSeconds.toInt)
      (resolved : mapping.resolvedLocalSeconds.toInt = wall)
      (offset : mapping.offsetSeconds.toInt = zone.offset mapping.utcSeconds.toInt)
      (fold : mapping.ambiguousFold = true ↔
        ∃ other, other ≠ mapping.utcSeconds.toInt ∧ zone.wall other = wall)

/-- Wall times whose instants fit under every accepted offset. -/
def NearWall (localSeconds : Int64) : Prop :=
  -2 ^ 62 ≤ localSeconds.toInt ∧ localSeconds.toInt ≤ 2 ^ 62

/-! ### The gap loop -/

theorem mapGap_cases {transition : UtcOffsetTransition} (sound : transition.Sound)
    (localSeconds : Int64) :
    (mapGap localSeconds transition = none ∧ ¬ transition.shift.Skips localSeconds.toInt) ∨
      ∃ mapping, mapGap localSeconds transition = some mapping ∧
        transition.shift.Skips localSeconds.toInt ∧ mapping.shiftedForGap = true ∧
        mapping.ambiguousFold = false ∧
        mapping.utcSeconds.toInt = transition.shift.instant ∧
        mapping.resolvedLocalSeconds.toInt = transition.shift.resumes ∧
        mapping.offsetSeconds.toInt = transition.shift.after := by
  have gapStart : (transition.atUtcSeconds + transition.offsetBeforeSeconds.toInt64).toInt =
      transition.shift.instant + transition.shift.before := by
    have fits := sound.before_fits
    rw [toInt_add (by rw [Int32.toInt_toInt64]; exact fits), Int32.toInt_toInt64]
    rfl
  have gapEnd : (transition.atUtcSeconds + transition.offsetAfterSeconds.toInt64).toInt =
      transition.shift.resumes := by
    have fits := sound.after_fits
    rw [toInt_add (by rw [Int32.toInt_toInt64]; exact fits), Int32.toInt_toInt64]
    rfl
  unfold mapGap
  by_cases backward : transition.offsetAfterSeconds ≤ transition.offsetBeforeSeconds
  · have le : transition.shift.after ≤ transition.shift.before := Int32.le_iff_toInt_le.mp backward
    rw [if_pos backward]
    refine .inl ⟨rfl, fun skips => ?_⟩
    unfold Shift.Skips at skips
    omega
  · rw [if_neg backward]
    have inside : (decide (localSeconds ≥ transition.atUtcSeconds +
          transition.offsetBeforeSeconds.toInt64) &&
        decide (localSeconds < transition.atUtcSeconds +
          transition.offsetAfterSeconds.toInt64)) = true ↔
        transition.shift.Skips localSeconds.toInt := by
      simp only [Bool.and_eq_true, decide_eq_true_eq, ge_iff_le, Int64.le_iff_toInt_le,
        Int64.lt_iff_toInt_lt, gapStart, gapEnd]
      exact Iff.rfl
    by_cases skips : transition.shift.Skips localSeconds.toInt
    · rw [if_pos (inside.mpr skips)]
      exact .inr ⟨_, rfl, skips, rfl, rfl, rfl, gapEnd, rfl⟩
    · rw [if_neg fun h => skips (inside.mp h)]
      exact .inl ⟨rfl, skips⟩

/-! ### The distinct offsets -/

theorem mem_addOffset {offsets : List Int32} {offset other : Int32} :
    other ∈ addOffset offsets offset ↔ other ∈ offsets ∨ other = offset := by
  unfold addOffset
  split
  · rename_i found
    have : offset ∈ offsets := List.contains_iff_mem.mp found
    constructor
    · exact .inl
    · rintro (mem | rfl) <;> assumption
  · simp

theorem nodup_addOffset {offsets : List Int32} (nodup : offsets.Nodup) (offset : Int32) :
    (addOffset offsets offset).Nodup := by
  unfold addOffset
  split
  · exact nodup
  · rename_i missing
    have : offset ∉ offsets := fun mem => missing (List.contains_iff_mem.mpr mem)
    refine List.nodup_append.mpr ⟨nodup, by simp, ?_⟩
    rintro other mem _ (_ | ⟨_, ⟨⟩⟩) rfl
    exact this mem

theorem foldl_addOffset {transitions : List UtcOffsetTransition} {offsets : List Int32}
    (nodup : offsets.Nodup) :
    (transitions.foldl (fun offsets transition => addOffset offsets transition.offsetAfterSeconds)
        offsets).Nodup ∧
      ∀ offset, offset ∈ transitions.foldl
          (fun offsets transition => addOffset offsets transition.offsetAfterSeconds) offsets ↔
        offset ∈ offsets ∨ offset ∈ transitions.map UtcOffsetTransition.offsetAfterSeconds := by
  induction transitions generalizing offsets with
  | nil => simp [nodup]
  | cons transition rest ih =>
      obtain ⟨nodup_rest, mem_rest⟩ := ih (nodup_addOffset nodup transition.offsetAfterSeconds)
      refine ⟨nodup_rest, fun offset => ?_⟩
      rw [List.foldl_cons, mem_rest, mem_addOffset, List.map_cons, List.mem_cons, or_assoc]

theorem nodup_distinctOffsets (rules : TimezoneRules) : (distinctOffsets rules).Nodup :=
  (foldl_addOffset (nodup_addOffset List.nodup_nil _)).1

theorem mem_distinctOffsets {rules : TimezoneRules} {offset : Int32} :
    offset ∈ distinctOffsets rules ↔ offset ∈ rules.initialUtcOffsetSeconds ::
      rules.transitions.map UtcOffsetTransition.offsetAfterSeconds := by
  rw [distinctOffsets, (foldl_addOffset (nodup_addOffset List.nodup_nil _)).2, mem_addOffset]
  simp

/-! ### The mapping loop -/

/-- The mapping through one offset. -/
def throughOffset (localSeconds : Int64) (offset : Int32) : LocalMapping where
  utcSeconds := localSeconds + (-offset).toInt64
  resolvedLocalSeconds := localSeconds
  offsetSeconds := offset
  shiftedForGap := false
  ambiguousFold := false

/-- The wall time is shown under the offset. -/
def Works (rules : TimezoneRules) (localSeconds : Int64) (offset : Int32) : Bool :=
  offsetAtUtc rules (throughOffset localSeconds offset).utcSeconds == offset

theorem throughOffset_toInt {localSeconds : Int64} {offset : Int32} (near : NearWall localSeconds)
    (bounded : validUtcOffset offset = true) :
    (throughOffset localSeconds offset).utcSeconds.toInt = localSeconds.toInt - offset.toInt := by
  obtain ⟨low, high⟩ := near
  have bounds := validUtcOffset_iff.mp bounded
  have negated : (-offset).toInt = -offset.toInt := by
    rw [Int32.toInt_neg, Int.bmod_def]
    omega
  rw [throughOffset, toInt_add] <;> rw [Int32.toInt_toInt64, negated]
  · omega
  · omega

theorem tryOffset_eq {rules : TimezoneRules} {localSeconds : Int64} {offset : Int32}
    (near : NearWall localSeconds) (bounded : validUtcOffset offset = true)
    (found : Option LocalMapping × Nat) :
    tryOffset rules localSeconds found offset =
      if Works rules localSeconds offset then
        (if found.1.all ((throughOffset localSeconds offset).utcSeconds < ·.utcSeconds) then
            some (throughOffset localSeconds offset)
          else found.1, found.2 + 1)
      else found := by
  have bounds := validUtcOffset_iff.mp bounded
  have fits : canAdd localSeconds (-offset) = true := by
    obtain ⟨low, high⟩ := near
    rw [canAdd_iff, Int32.toInt_neg, Int.bmod_def]
    omega
  unfold tryOffset
  simp only [fits, Bool.not_true, Bool.false_eq_true, if_false]
  by_cases works : Works rules localSeconds offset = true
  · have same : offsetAtUtc rules (localSeconds + (-offset).toInt64) = offset := by
      simpa [Works, throughOffset] using works
    rw [if_neg (by simp [same]), if_pos works]
    by_cases sooner : found.1.all ((throughOffset localSeconds offset).utcSeconds < ·.utcSeconds) = true
    · rw [if_pos sooner]
      exact if_pos sooner
    · rw [if_neg sooner]
      exact if_neg sooner
  · have differs : offsetAtUtc rules (localSeconds + (-offset).toInt64) ≠ offset := by
      simpa [Works, throughOffset] using works
    rw [if_pos (bne_iff_ne.mpr differs), if_neg works]

/-- The loop counts the offsets that work and holds the earliest of their mappings. -/
theorem foldl_tryOffset {rules : TimezoneRules} {localSeconds : Int64} {offsets : List Int32}
    (near : NearWall localSeconds) (bounded : ∀ offset ∈ offsets, validUtcOffset offset = true) :
    (offsets.foldl (tryOffset rules localSeconds) (none, 0)).2 =
        (offsets.filter (Works rules localSeconds)).length ∧
      ((offsets.foldl (tryOffset rules localSeconds) (none, 0)).1 = none →
        offsets.filter (Works rules localSeconds) = []) ∧
      ∀ mapping, (offsets.foldl (tryOffset rules localSeconds) (none, 0)).1 = some mapping →
        ∃ offset ∈ offsets.filter (Works rules localSeconds),
          mapping = throughOffset localSeconds offset ∧
          ∀ other ∈ offsets.filter (Works rules localSeconds),
            mapping.utcSeconds.toInt ≤ (throughOffset localSeconds other).utcSeconds.toInt := by
  induction offsets using List.reverseRecOn with
  | nil => simp
  | append_singleton offsets last ih =>
      obtain ⟨count, empty, earliest⟩ := ih fun offset mem => bounded offset (by simp [mem])
      rw [List.foldl_append, List.foldl_cons, List.foldl_nil, List.filter_append,
        tryOffset_eq near (bounded last (by simp))]
      by_cases works : Works rules localSeconds last = true
      · simp only [List.filter_cons, works, if_true, List.filter_nil, List.length_append,
          List.length_singleton, count, List.append_eq_nil_iff, List.cons_ne_nil, and_false,
          List.mem_append, List.mem_singleton]
        refine ⟨trivial, ?_, ?_⟩
        · split
          · simp
          · rename_i later
            intro none_yet
            simp [none_yet] at later
        · intro mapping chosen
          split at chosen
          · rename_i sooner
            obtain rfl := Option.some.inj chosen
            refine ⟨last, .inr rfl, rfl, ?_⟩
            rintro other (mem | rfl)
            · cases held : (offsets.foldl (tryOffset rules localSeconds) (none, 0)).1 with
              | none =>
                  rw [empty held] at mem
                  cases mem
              | some previous =>
                  obtain ⟨_, _, _, least⟩ := earliest previous held
                  have le := least other mem
                  rw [held, Option.all_some, decide_eq_true_eq, Int64.lt_iff_toInt_lt] at sooner
                  omega
            · exact le_refl _
          · rename_i later
            obtain ⟨offset, mem, rfl, least⟩ := earliest mapping chosen
            refine ⟨offset, .inl mem, rfl, ?_⟩
            rintro other (mem' | rfl)
            · exact least other mem'
            · rw [chosen, Option.all_some, decide_eq_true_eq, Int64.lt_iff_toInt_lt] at later
              omega
      · rw [List.filter_cons_of_neg works, List.filter_nil, List.append_nil, if_neg works]
        exact ⟨count, empty, earliest⟩

/-! ### The mapping of a wall time -/

section MapLocal

variable {rules : TimezoneRules} (valid : hasValidTransitionChain rules = true)
  {localSeconds : Int64} (near : NearWall localSeconds)

include valid in
theorem distinctOffsets_valid {offset : Int32} (mem : offset ∈ distinctOffsets rules) :
    validUtcOffset offset = true := by
  rw [validUtcOffset_iff]
  obtain rfl | later := List.mem_cons.mp (mem_distinctOffsets.mp mem)
  · exact (zone_within valid).initial_mem
  · obtain ⟨transition, transition_mem, rfl⟩ := List.mem_map.mp later
    exact (transition_sound valid transition_mem).after_mem

include near in
/-- An offset of the rules works when its instant shows the wall time. -/
theorem works_iff {offset : Int32} (mem : offset ∈ distinctOffsets rules) :
    Works rules localSeconds offset = true ↔
      (rules.zone valid).wall (throughOffset localSeconds offset).utcSeconds.toInt =
        localSeconds.toInt := by
  have exact := throughOffset_toInt near (distinctOffsets_valid valid mem)
  rw [Works, beq_iff_eq, ← Int32.toInt_inj, offsetAtUtc_toInt valid, Zone.wall, exact]
  omega

include near in
/-- Every instant that shows the wall time does so under an offset of the rules. -/
theorem exists_works {instant : Int} (shows : (rules.zone valid).wall instant = localSeconds.toInt) :
    ∃ offset ∈ (distinctOffsets rules).filter (Works rules localSeconds),
      (throughOffset localSeconds offset).utcSeconds.toInt = instant := by
  obtain ⟨offset, mem, eq⟩ : ∃ offset ∈ distinctOffsets rules,
      offset.toInt = (rules.zone valid).offset instant := by
    simp only [mem_distinctOffsets]
    obtain eq | mem := List.mem_cons.mp (@offsetFrom_mem (rules.zone valid).initial
      instant (rules.zone valid).shifts)
    · exact ⟨_, List.mem_cons_self .., eq.symm⟩
    · obtain ⟨shift, shift_mem, eq⟩ := List.mem_map.mp mem
      obtain ⟨transition, mem, rfl⟩ := List.mem_map.mp shift_mem
      exact ⟨_, List.mem_cons_of_mem _ (List.mem_map_of_mem mem), eq⟩
  have at_instant : (throughOffset localSeconds offset).utcSeconds.toInt = instant := by
    rw [throughOffset_toInt near (distinctOffsets_valid valid mem), eq, ← shows, Zone.wall]
    omega
  refine ⟨offset, List.mem_filter.mpr ⟨mem, ?_⟩, at_instant⟩
  rw [works_iff valid near mem, at_instant, shows]

include near in
/-- More than one offset works exactly when another instant shows the wall time too. -/
theorem one_lt_works_iff {offset : Int32}
    (mem : offset ∈ (distinctOffsets rules).filter (Works rules localSeconds)) :
    1 < ((distinctOffsets rules).filter (Works rules localSeconds)).length ↔
      ∃ other, other ≠ (throughOffset localSeconds offset).utcSeconds.toInt ∧
        (rules.zone valid).wall other = localSeconds.toInt := by
  have nodup := (nodup_distinctOffsets rules).filter (Works rules localSeconds)
  constructor
  · intro several
    by_contra only
    push Not at only
    have subset : (distinctOffsets rules).filter (Works rules localSeconds) ⊆ [offset] := by
      intro other other_mem
      have bounded := distinctOffsets_valid valid (List.mem_filter.mp mem).1
      have bounded' := distinctOffsets_valid valid (List.mem_filter.mp other_mem).1
      have shows := (works_iff valid near (List.mem_filter.mp other_mem).1).mp
        (List.mem_filter.mp other_mem).2
      have same := not_not.mp fun ne => only _ ne shows
      rw [throughOffset_toInt near bounded, throughOffset_toInt near bounded'] at same
      rw [List.mem_singleton, ← Int32.toInt_inj]
      omega
    have := List.Nodup.length_le_of_subset nodup subset
    rw [List.length_singleton] at this
    omega
  · rintro ⟨other, ne, shows⟩
    obtain ⟨offset', mem', rfl⟩ := exists_works valid near shows
    have two : [offset, offset'].Nodup := by
      simp only [List.nodup_cons, List.mem_singleton, List.not_mem_nil, not_false_eq_true,
        List.nodup_nil, and_true]
      rintro rfl
      exact ne rfl
    refine List.Nodup.length_le_of_subset two fun _ h => ?_
    rcases List.mem_cons.mp h with rfl | h
    · exact mem
    · rwa [List.mem_singleton.mp h]

include near in
theorem mapLocal_mapped : ∃ mapping, mapLocal rules localSeconds = some mapping ∧
    mapping.Mapped (rules.zone valid) localSeconds.toInt := by
  unfold mapLocal
  cases gap : rules.transitions.findSome? (mapGap localSeconds) with
  | some mapping =>
      obtain ⟨transition, mem, found⟩ := List.exists_of_findSome?_eq_some gap
      obtain ⟨none, -⟩ | ⟨_, some, skips, shifted, fold, instant, resumes, offset⟩ :=
        mapGap_cases (transition_sound valid mem) localSeconds
      · rw [none] at found
        cases found
      · obtain rfl := Option.some.inj (some.symm.trans found)
        exact ⟨_, rfl, .moved (List.mem_map_of_mem mem) skips shifted fold instant resumes offset⟩
  | none =>
      have kept : ¬ (rules.zone valid).Skipped localSeconds.toInt := by
        rintro ⟨_, shift_mem, skips⟩
        obtain ⟨transition, mem, rfl⟩ := List.mem_map.mp shift_mem
        obtain ⟨-, not_skips⟩ | ⟨_, some, -⟩ :=
          mapGap_cases (transition_sound valid mem) localSeconds
        · exact not_skips skips
        · rw [List.findSome?_eq_none_iff.mp gap transition mem] at some
          cases some
      obtain ⟨count, empty, earliest⟩ := @foldl_tryOffset rules _ _ near
        fun offset mem => distinctOffsets_valid valid mem
      obtain ⟨instant, shows⟩ := (zone_within valid).exists_wall_eq kept
      obtain ⟨offset, mem, -⟩ := exists_works valid near shows
      cases held : ((distinctOffsets rules).foldl (tryOffset rules localSeconds) (none, 0)).1 with
      | none =>
          rw [empty held] at mem
          cases mem
      | some mapping =>
          obtain ⟨first, first_mem, rfl, least⟩ := earliest mapping held
          have shows := (works_iff valid near (List.mem_filter.mp first_mem).1).mp
            (List.mem_filter.mp first_mem).2
          simp only [held, Option.map_some]
          refine ⟨_, rfl, .shown kept rfl ⟨shows, ?_⟩ rfl ?_ ?_⟩
          · rintro other other_shows
            obtain ⟨offset, mem, rfl⟩ := exists_works valid near other_shows
            exact least offset mem
          · have works := (List.mem_filter.mp first_mem).2
            rw [Works, beq_iff_eq] at works
            rw [← offsetAtUtc_toInt valid, works]
            rfl
          · rw [← one_lt_works_iff valid near first_mem, ← count]
            simp

end MapLocal

end DawnDock
