import DawnDock.Library.Mealy
import Mathlib.Data.List.Chain
import Mathlib.Data.List.Induction

/-!
Debouncing a level.

A level is confirmed by a run of samples that hold it while the clock goes forward by a
window (`Confirms`). The debouncer keeps the run that is pending, and starts it again when
the level or the direction of the clock changes. So a change of the confirmed level has two
runs behind it, one that confirmed the old level and one that confirms the new one, and no
change to the new level since the first of them began (`change_justified`).
-/

namespace Debounce

variable {L : Type*}

structure Sample (L : Type*) where
  level : L
  time : Int
deriving DecidableEq

/-- The run holds the level, and its clock does not go back. -/
def Steady (level : L) (run : List (Sample L)) : Prop :=
  (∀ s ∈ run, s.level = level) ∧ run.IsChain fun s t => s.time ≤ t.time

/-- A steady run from end to end as long as the window. -/
def Confirms (window : Int) (level : L) (run : List (Sample L)) : Prop :=
  Steady level run ∧ ∃ first ∈ run.head?, ∃ last ∈ run.getLast?, first.time + window ≤ last.time

/-- The confirmed level and the run that may confirm another. -/
structure State (L : Type*) where
  confirmed : Option L := none
  pending : List (Sample L) := []

variable [DecidableEq L]

/-- The run that ends with the sample. -/
def extend (pending : List (Sample L)) (s : Sample L) : List (Sample L) :=
  if ∀ last ∈ pending.getLast?, last.level = s.level ∧ last.time ≤ s.time then pending ++ [s]
  else [s]

/-- The time from the first sample of a run to the given one. -/
def elapsed (run : List (Sample L)) (s : Sample L) : Int :=
  s.time - (run.head?.getD s).time

/-- One sample. A change comes out as the level confirmed before and the level confirmed now. -/
def step (window : Int) (state : State L) (s : Sample L) : Option (Option L × L) × State L :=
  if state.confirmed = some s.level then (none, { state with pending := [] })
  else if elapsed (extend state.pending s) s < window then
    (none, { state with pending := extend state.pending s })
  else (some (state.confirmed, s.level), { confirmed := some s.level })

abbrev after (window : Int) (samples : List (Sample L)) : State L :=
  Mealy.after (step window) {} samples

/-- What each sample changes. -/
abbrev changes (window : Int) (samples : List (Sample L)) : List (Option (Option L × L)) :=
  Mealy.outputs (step window) {} samples

/-! ### Runs -/

variable {window : Int} {pending run : List (Sample L)} {s : Sample L}

instance {level : L} : Decidable (Steady level run) := inferInstanceAs (Decidable (_ ∧ _))

instance {level : L} : Decidable (Confirms window level run) := inferInstanceAs (Decidable (_ ∧ _))

omit [DecidableEq L] in
/-- A steady run has no sample before its first. -/
theorem Steady.first_le {level : L} {first : Sample L} (steady : Steady level (first :: run))
    (mem : s ∈ first :: run) : first.time ≤ s.time := by
  have ordered : (first :: run).Pairwise fun s t => s.time ≤ t.time :=
    List.IsChain.pairwise steady.2
  rcases List.mem_cons.mp mem with rfl | behind
  · exact Int.le_refl _
  · exact (List.pairwise_cons.mp ordered).1 s behind

theorem extend_ne_nil : extend pending s ≠ [] := by
  unfold extend
  split
  · exact List.append_ne_nil_of_right_ne_nil _ (List.cons_ne_nil _ _)
  · exact List.cons_ne_nil _ _

theorem extend_of_goes_on {last : Sample L} (ends : pending.getLast? = some last)
    (goes_on : last.level = s.level ∧ last.time ≤ s.time) : extend pending s = pending ++ [s] := by
  refine if_pos fun other other_mem => ?_
  cases ends.symm.trans other_mem
  exact goes_on

theorem extend_of_stops {last : Sample L} (ends : pending.getLast? = some last)
    (stops : ¬ (last.level = s.level ∧ last.time ≤ s.time)) : extend pending s = [s] :=
  if_neg fun goes_on => stops (goes_on last ends)

theorem getLast?_extend : (extend pending s).getLast? = some s := by
  unfold extend
  split
  · exact List.getLast?_concat
  · rfl

theorem extend_suffix {samples : List (Sample L)} (suffix : pending <:+ samples) :
    extend pending s <:+ samples ++ [s] := by
  unfold extend
  split
  · exact List.suffix_append_self_iff.mpr suffix
  · exact List.suffix_append samples [s]

/-- A pending run is steady at the level of its last sample. -/
def Settling (pending : List (Sample L)) : Prop :=
  ∀ last ∈ pending.getLast?, Steady last.level pending

omit [DecidableEq L] in
theorem settling_nil : Settling ([] : List (Sample L)) := fun last none => by cases none

theorem steady_extend (settling : Settling pending) : Steady s.level (extend pending s) := by
  unfold extend
  split
  · rename_i goes_on
    constructor
    · intro t mem
      rcases List.mem_append.mp mem with kept | new
      · have nonempty := List.ne_nil_of_mem kept
        have last := List.getLast?_eq_getLast_of_ne_nil nonempty
        rw [(settling _ last).1 t kept, (goes_on _ last).1]
      · rw [List.eq_of_mem_singleton new]
    · refine List.isChain_append.mpr ⟨?_, .singleton s, ?_⟩
      · cases last : pending.getLast? with
        | none =>
            rw [List.getLast?_eq_none_iff.mp last]
            exact .nil
        | some last_sample => exact (settling last_sample last).2
      · intro last last_mem t t_mem
        cases t_mem
        exact (goes_on last last_mem).2
  · exact ⟨fun t mem => by rw [List.eq_of_mem_singleton mem], .singleton s⟩

theorem confirms_extend (settling : Settling pending)
    (long : ¬ elapsed (extend pending s) s < window) :
    Confirms window s.level (extend pending s) := by
  refine ⟨steady_extend settling, ?_⟩
  obtain ⟨first, rest, run_eq⟩ := List.exists_cons_of_ne_nil (@extend_ne_nil L _ pending s)
  refine ⟨first, by rw [run_eq]; rfl, s, getLast?_extend, ?_⟩
  rw [elapsed, run_eq, List.head?_cons, Option.getD_some] at long
  omega

/-! ### Changes -/

/-- A sample ends the pending run, goes on with it, or changes the confirmed level. -/
theorem step_cases (window : Int) (state : State L) (s : Sample L) :
    (state.confirmed = some s.level ∧ step window state s = (none, { state with pending := [] })) ∨
    (state.confirmed ≠ some s.level ∧
      step window state s = (none, { state with pending := extend state.pending s })) ∨
    (state.confirmed ≠ some s.level ∧ ¬ elapsed (extend state.pending s) s < window ∧
      step window state s = (some (state.confirmed, s.level), { confirmed := some s.level })) := by
  unfold step
  split
  · rename_i same
    exact .inl ⟨same, rfl⟩
  · rename_i other
    split
    · exact .inr (.inl ⟨other, rfl⟩)
    · rename_i long
      exact .inr (.inr ⟨other, long, rfl⟩)

/-- A sample that changes nothing leaves the changes of the samples before. -/
theorem changed_before {samples : List (Sample L)} {k : Nat} {change : Option L × L}
    (quiet : (step window (after window samples) s).1 = none)
    (changed : (changes window (samples ++ [s]))[k]? = some (some change)) :
    (changes window samples)[k]? = some (some change) := by
  rw [changes, Mealy.outputs_concat, quiet, List.getElem?_append] at changed
  split at changed
  · exact changed
  · rw [List.getElem?_singleton] at changed
    split at changed
    · cases changed
    · cases changed

/-- The state behind the samples: its runs are among them, and everything that changed did
so before the confirming run was over. -/
structure Traces (window : Int) (samples : List (Sample L)) : Prop where
  settling : Settling (after window samples).pending
  pending : (after window samples).pending <:+ samples
  confirmed : ∀ b, (after window samples).confirmed = some b → ∃ before run behind,
    samples = before ++ run ++ behind ∧ Confirms window b run ∧
      (after window samples).pending <:+ behind ∧
      ∀ (k : Nat) change, (changes window samples)[k]? = some (some change) →
        k < (before ++ run).length

theorem traces (window : Int) (samples : List (Sample L)) : Traces window samples := by
  induction samples using List.reverseRecOn with
  | nil =>
      constructor
      case settling => exact settling_nil
      case pending => exact List.suffix_rfl
      case confirmed => intro b none; cases none
  | append_singleton samples s ih =>
      obtain ⟨settling, pending, confirmed⟩ := ih
      have after_eq : after window (samples ++ [s]) = (step window (after window samples) s).2 :=
        Mealy.after_concat samples s
      rcases step_cases window (after window samples) s with
        ⟨same, stepped⟩ | ⟨other, stepped⟩ | ⟨other, long, stepped⟩
      · have quiet := congrArg Prod.fst stepped
        rw [stepped] at after_eq
        constructor
        case settling =>
          rw [after_eq]
          exact settling_nil
        case pending =>
          rw [after_eq]
          exact List.nil_suffix
        case confirmed =>
          intro b held
          rw [after_eq] at held ⊢
          obtain ⟨before, run, behind, rfl, confirms, -, earlier⟩ := confirmed b held
          refine ⟨before, run, behind ++ [s], by rw [List.append_assoc _ behind], confirms,
            List.nil_suffix, ?_⟩
          intro k change changed
          exact earlier k change (changed_before quiet changed)
      · have quiet := congrArg Prod.fst stepped
        rw [stepped] at after_eq
        constructor
        case settling =>
          rw [after_eq]
          intro last last_mem
          rw [getLast?_extend] at last_mem
          cases last_mem
          exact steady_extend settling
        case pending =>
          rw [after_eq]
          exact extend_suffix pending
        case confirmed =>
          intro b held
          rw [after_eq] at held ⊢
          obtain ⟨before, run, behind, split, confirms, inside, earlier⟩ := confirmed b held
          refine ⟨before, run, behind ++ [s], by rw [split, List.append_assoc _ behind], confirms,
            extend_suffix inside, ?_⟩
          intro k change changed
          exact earlier k change (changed_before quiet changed)
      · rw [stepped] at after_eq
        constructor
        case settling =>
          rw [after_eq]
          exact settling_nil
        case pending =>
          rw [after_eq]
          exact List.nil_suffix
        case confirmed =>
          intro b held
          rw [after_eq] at held ⊢
          cases held
          obtain ⟨before, split⟩ := extend_suffix (s := s) pending
          refine ⟨before, extend (after window samples).pending s, [], ?_,
            confirms_extend settling long, List.nil_suffix, ?_⟩
          · rw [List.append_nil, split]
          · intro k change changed
            obtain ⟨placed, -⟩ := List.getElem?_eq_some_iff.mp changed
            rw [Mealy.length_outputs] at placed
            rwa [split]

/-- What changes is the level of the sample, which was not confirmed. -/
theorem of_step_eq_some {state : State L} {origin : Option L} {l : L}
    (changed : (step window state s).1 = some (origin, l)) :
    state.confirmed = origin ∧ s.level = l ∧ origin ≠ some l ∧
      ¬ elapsed (extend state.pending s) s < window := by
  rcases step_cases window state s with
    ⟨same, stepped⟩ | ⟨other, stepped⟩ | ⟨other, long, stepped⟩
  · rw [stepped] at changed
    cases changed
  · rw [stepped] at changed
    cases changed
  · rw [stepped] at changed
    cases changed
    exact ⟨rfl, rfl, other, long⟩

/-- A change comes behind a run of the old level, ends with a run of the new one, and no
change to the new level comes between. -/
theorem change_justified {samples : List (Sample L)} {e : Nat} {b l : L}
    (changed : (changes window samples)[e]? = some (some (some b, l))) :
    b ≠ l ∧ ∃ before old behind new, samples.take (e + 1) = before ++ old ++ behind ++ new ∧
      Confirms window b old ∧ Confirms window l new ∧
      ∀ k < e, ∀ origin, (changes window samples)[k]? = some (some (origin, l)) →
        k < before.length := by
  obtain ⟨s, placed, changed_here⟩ := Mealy.exists_of_output changed
  obtain ⟨settling, pending, confirmed⟩ := traces window (samples.take e)
  obtain ⟨held, rfl, differs, long⟩ := of_step_eq_some changed_here
  obtain ⟨before, old, behind, split, confirms, inside, earlier⟩ := confirmed b held
  obtain ⟨between, cut⟩ := @extend_suffix _ _ _ s _ inside
  refine ⟨fun same => differs (congrArg some same), before, old, between, _, ?_, confirms,
    confirms_extend settling long, ?_⟩
  · rw [List.take_add_one, placed, Option.toList_some, List.append_assoc _ between, cut, split,
      List.append_assoc _ behind]
  · intro k sooner origin to_l
    have within := earlier k _ ((Mealy.output_of_take sooner).mpr to_l)
    by_contra late
    -- the samples of the old run have the old level
    obtain ⟨t, t_placed, t_changed⟩ := Mealy.exists_of_output to_l
    obtain ⟨-, level, -, -⟩ := of_step_eq_some t_changed
    have t_old : t ∈ old := by
      have t_here : (before ++ old ++ behind)[k]? = some t := by
        rw [← split, List.getElem?_take, if_pos sooner, t_placed]
      rw [List.getElem?_append_left within,
        List.getElem?_append_right (Nat.le_of_not_lt late)] at t_here
      exact List.mem_of_getElem? t_here
    exact differs (congrArg some ((confirms.1.1 t t_old).symm.trans level))

end Debounce
