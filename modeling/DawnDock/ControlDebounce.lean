import DawnDock.Library.Debounce
import DawnDock.Library.MachineInt
import Mathlib.Data.List.Infix

/-!
The push inputs (`control_debounce.cpp`).

While every clock regression inside a pending window reaches the window's first timestamp or
goes below it (`RegressionsVisible`), the control is a debouncer that keeps the whole pending
run (`related`), and a reported press has its runs (`debounce_sound_iff`). A regression that
stays above the first timestamp goes unseen, and time that never passed counts as held
(`hiddenRegression_unsound`).
-/

namespace DawnDock

open Debounce (Confirms)

def kDebounceStableMilliseconds : Int64 := 20

structure ControlDebounce where
  stablePressed : Option Bool := none
  candidatePressed : Option Bool := none
  candidateStartedMs : Int64 := 0
deriving DecidableEq, Repr

def ControlDebounce.sample (control : ControlDebounce) (pressed : Bool) (nowMs : Int64) :
    Bool × ControlDebounce :=
  if control.stablePressed = some pressed then (false, { control with candidatePressed := none })
  else if control.candidatePressed ≠ some pressed ∨ nowMs < control.candidateStartedMs then
    (false, { control with candidatePressed := some pressed, candidateStartedMs := nowMs })
  else
    let elapsed := nowMs.toUInt64 - control.candidateStartedMs.toUInt64
    if elapsed < kDebounceStableMilliseconds.toUInt64 then (false, control)
    else
      -- an input held at startup becomes the baseline without acting
      (control.stablePressed.isSome && pressed,
        { control with stablePressed := some pressed, candidatePressed := none })

structure ControlSample where
  pressed : Bool
  nowMs : Int64
deriving DecidableEq, Repr

namespace ControlDebounce

/-- The control's step on a sample. -/
def step (control : ControlDebounce) (s : ControlSample) : Bool × ControlDebounce :=
  control.sample s.pressed s.nowMs

/-- A new control behind the samples. -/
abbrev after (samples : List ControlSample) : ControlDebounce := Mealy.after step {} samples

/-- What a new control returns for each sample. -/
abbrev reports (samples : List ControlSample) : List Bool := Mealy.outputs step {} samples

end ControlDebounce

/-- The ways a sample takes. -/
theorem ControlDebounce.step_cases (control : ControlDebounce) (s : ControlSample) :
    (control.stablePressed = some s.pressed ∧
      control.step s = (false, { control with candidatePressed := none })) ∨
    (control.stablePressed ≠ some s.pressed ∧
      (control.candidatePressed ≠ some s.pressed ∨ s.nowMs < control.candidateStartedMs) ∧
      control.step s = (false, { control with
        candidatePressed := some s.pressed, candidateStartedMs := s.nowMs })) ∨
    (control.stablePressed ≠ some s.pressed ∧ control.step s = (false, control)) ∨
    (control.stablePressed ≠ some s.pressed ∧
      ¬ s.nowMs.toUInt64 - control.candidateStartedMs.toUInt64 <
        kDebounceStableMilliseconds.toUInt64 ∧
      control.step s = (control.stablePressed.isSome && s.pressed,
        { control with stablePressed := some s.pressed, candidatePressed := none })) := by
  unfold ControlDebounce.step ControlDebounce.sample
  split
  · rename_i same
    exact .inl ⟨same, rfl⟩
  rename_i other
  split
  · rename_i starts
    exact .inr (.inl ⟨other, starts, rfl⟩)
  dsimp only
  split
  · exact .inr (.inr (.inl ⟨other, rfl⟩))
  · rename_i long
    exact .inr (.inr (.inr ⟨other, long, rfl⟩))

/-! ### What a press needs -/

/-- A sample with its time as an integer. -/
def ControlSample.exact (s : ControlSample) : Debounce.Sample Bool := ⟨s.pressed, s.nowMs.toInt⟩

/-- Consecutive samples of one level, on a clock that does not go back, over 20 ms. -/
def Held (pressed : Bool) (run : List ControlSample) : Prop :=
  Confirms kDebounceStableMilliseconds.toInt pressed (run.map ControlSample.exact)

instance (pressed : Bool) (run : List ControlSample) : Decidable (Held pressed run) :=
  inferInstanceAs (Decidable (Confirms _ _ _))

/-- The clock goes back in a pending window. -/
def RegressesInside (control : ControlDebounce) (last next : ControlSample) : Prop :=
  control.candidatePressed = some next.pressed ∧ next.nowMs < last.nowMs

/-- What the control promises on the samples. -/
structure DebounceSound (samples : List ControlSample) : Prop where
  justified : ∀ e : Nat, (ControlDebounce.reports samples)[e]? = some true →
    ∃ before released behind pressed,
      samples.take (e + 1) = before ++ released ++ behind ++ pressed ∧
        Held false released ∧ Held true pressed ∧
        ∀ earlier < e, (ControlDebounce.reports samples)[earlier]? = some true →
          earlier < before.length
  restarts : ∀ before last next behind, samples = before ++ last :: next :: behind →
    RegressesInside (ControlDebounce.after (before ++ [last])) last next →
      (ControlDebounce.after (before ++ [last])).step next =
        (false, { ControlDebounce.after (before ++ [last]) with
          candidatePressed := some next.pressed, candidateStartedMs := next.nowMs })

/-- A clock regression in a pending window never stays above the window's first timestamp. -/
def RegressionsVisible (samples : List ControlSample) : Prop :=
  ∀ before last next behind, samples = before ++ last :: next :: behind →
    RegressesInside (ControlDebounce.after (before ++ [last])) last next →
      next.nowMs ≤ (ControlDebounce.after (before ++ [last])).candidateStartedMs

/-! ### The control as a debouncer -/

/-- The control keeps of the pending run its level and its start. -/
structure Related (control : ControlDebounce) (state : Debounce.State Bool) : Prop where
  stable : control.stablePressed = state.confirmed
  candidate : control.candidatePressed = state.pending.head?.map (·.level)
  started : ∀ first ∈ state.pending.head?, control.candidateStartedMs.toInt = first.time

/-- A debouncer's change that is reported. -/
def PressReported (change : Option (Option Bool × Bool)) : Prop :=
  ∃ b, change = some (some b, true)

/-- What both make of a sample. -/
def StepsAlike (control : ControlDebounce) (state : Debounce.State Bool) (s : ControlSample) :
    Prop :=
  let debounced := Debounce.step kDebounceStableMilliseconds.toInt state s.exact
  ((control.step s).1 = true ↔ PressReported debounced.1) ∧
    Related (control.step s).2 debounced.2

variable {control : ControlDebounce} {state : Debounce.State Bool} {s : ControlSample}

theorem not_reported : ¬ PressReported none := by
  rintro ⟨b, never⟩
  cases never

theorem reported_iff {confirmed : Option Bool} {level : Bool} :
    PressReported (some (confirmed, level)) ↔ (confirmed.isSome && level) = true := by
  rw [Bool.and_eq_true, Option.isSome_iff_exists]
  constructor
  · rintro ⟨b, change⟩
    cases change
    exact ⟨⟨b, rfl⟩, rfl⟩
  · rintro ⟨⟨b, rfl⟩, rfl⟩
    exact ⟨b, rfl⟩

/-- The window starts with the sample. -/
theorem step_of_start (related : Related control state)
    (other : control.stablePressed ≠ some s.pressed)
    (starts : control.candidatePressed ≠ some s.pressed ∨ s.nowMs < control.candidateStartedMs)
    (alone : Debounce.extend state.pending s.exact = [s.exact]) :
    StepsAlike control state s := by
  have stepped : control.step s = (false, { control with
      candidatePressed := some s.pressed, candidateStartedMs := s.nowMs }) := by
    rw [ControlDebounce.step, ControlDebounce.sample, if_neg other, if_pos starts]
  have debounced : Debounce.step kDebounceStableMilliseconds.toInt state s.exact =
      (none, { state with pending := [s.exact] }) := by
    have short : Debounce.elapsed [s.exact] s.exact < kDebounceStableMilliseconds.toInt := by
      rw [Debounce.elapsed, List.head?_cons, Option.getD_some, Int.sub_self]
      decide
    rw [Debounce.step, alone, if_neg (by rwa [← related.stable]), if_pos short]
  unfold StepsAlike
  rw [stepped, debounced]
  refine ⟨iff_of_false Bool.false_ne_true not_reported, related.stable, rfl, ?_⟩
  intro first first_mem
  cases first_mem
  rfl

/-- The window goes on with the sample. -/
theorem step_of_goes_on (related : Related control state)
    (other : control.stablePressed ≠ some s.pressed)
    (goes_on : control.candidatePressed = some s.pressed)
    (forward : control.candidateStartedMs.toInt ≤ s.nowMs.toInt)
    {run : List (Debounce.Sample Bool)} {first : Debounce.Sample Bool}
    (extended : Debounce.extend state.pending s.exact = first :: run)
    (started : first.level = s.pressed ∧ control.candidateStartedMs.toInt = first.time) :
    StepsAlike control state s := by
  have same_clock : ¬ (control.candidatePressed ≠ some s.pressed ∨
      s.nowMs < control.candidateStartedMs) := by
    rw [not_or, Int64.lt_iff_toInt_lt]
    exact ⟨fun differs => differs goes_on, by omega⟩
  have elapsed_eq : Debounce.elapsed (first :: run) s.exact =
      (s.nowMs.toUInt64 - control.candidateStartedMs.toUInt64).toNat := by
    rw [MachineInt.toUInt64_sub_toNat forward, Debounce.elapsed, List.head?_cons,
      Option.getD_some, ← started.2]
    rfl
  have short_iff : s.nowMs.toUInt64 - control.candidateStartedMs.toUInt64 <
      kDebounceStableMilliseconds.toUInt64 ↔
        Debounce.elapsed (first :: run) s.exact < kDebounceStableMilliseconds.toInt := by
    rw [elapsed_eq, UInt64.lt_iff_toNat_lt]
    exact Int.ofNat_lt.symm
  unfold StepsAlike ControlDebounce.step ControlDebounce.sample Debounce.step
  rw [if_neg other, if_neg same_clock, if_neg (by rwa [← related.stable]), extended]
  dsimp only
  by_cases short : s.nowMs.toUInt64 - control.candidateStartedMs.toUInt64 <
      kDebounceStableMilliseconds.toUInt64
  · rw [if_pos short, if_pos (short_iff.mp short)]
    refine ⟨iff_of_false Bool.false_ne_true not_reported, related.stable, ?_, ?_⟩
    · rw [goes_on, ← started.1]
      rfl
    · intro other_first first_mem
      cases first_mem
      exact started.2
  · rw [if_neg short, if_neg (short_iff.not.mp short)]
    refine ⟨?_, rfl, rfl, fun first none => by cases none⟩
    rw [related.stable]
    exact reported_iff.symm

/-- A sample the debouncer sees like the control, unless the clock goes back unseen. -/
theorem steps_alike (related : Related control state) (settling : Debounce.Settling state.pending)
    (visible : ∀ last ∈ state.pending.getLast?, control.candidatePressed = some s.pressed →
      s.nowMs.toInt < last.time → s.nowMs ≤ control.candidateStartedMs) :
    StepsAlike control state s := by
  by_cases same : control.stablePressed = some s.pressed
  · have stepped : control.step s = (false, { control with candidatePressed := none }) := by
      rw [ControlDebounce.step, ControlDebounce.sample, if_pos same]
    have debounced : Debounce.step kDebounceStableMilliseconds.toInt state s.exact =
        (none, { state with pending := [] }) := by
      rw [Debounce.step, if_pos (by rwa [← related.stable])]
    unfold StepsAlike
    rw [stepped, debounced]
    exact ⟨iff_of_false Bool.false_ne_true not_reported, related.stable, rfl,
      fun first none => by cases none⟩
  cases pending : state.pending with
  | nil =>
      have idle : control.candidatePressed = none := by
        rw [related.candidate, pending]
        rfl
      refine step_of_start related same (.inl (by rw [idle]; exact nofun)) ?_
      rw [pending]
      rfl
  | cons first rest =>
      have ends : state.pending.getLast? = some ((first :: rest).getLast (List.cons_ne_nil _ _)) := by
        rw [pending]
        exact List.getLast?_eq_some_getLast (List.cons_ne_nil _ _)
      generalize (first :: rest).getLast (List.cons_ne_nil _ _) = last at ends
      have steady := settling last ends
      have level : first.level = last.level := steady.1 first (by rw [pending]; exact .head _)
      have waiting : control.candidatePressed = some first.level := by
        rw [related.candidate, pending]
        rfl
      have started := related.started first (by rw [pending]; rfl)
      have ordered : first.time ≤ last.time := by
        rw [pending] at steady ends
        exact steady.first_le (List.mem_of_getLast? ends)
      by_cases other : first.level = s.pressed
      · rw [other] at waiting level
        by_cases forward : last.time ≤ s.nowMs.toInt
        · have extended : Debounce.extend state.pending s.exact = first :: (rest ++ [s.exact]) := by
            rw [Debounce.extend_of_goes_on ends ⟨level.symm, forward⟩, pending, List.cons_append]
          exact step_of_goes_on related same waiting (by omega) extended ⟨other, started⟩
        have alone : Debounce.extend state.pending s.exact = [s.exact] :=
          Debounce.extend_of_stops ends fun goes_on => forward goes_on.2
        by_cases seen : s.nowMs < control.candidateStartedMs
        · exact step_of_start related same (.inr seen) alone
        · -- the window's first timestamp again
          have back := visible last ends waiting (by omega)
          have again : control.candidateStartedMs = s.nowMs := Int64.le_antisymm (Int64.not_lt.mp seen) back
          refine step_of_goes_on related same waiting ?_ alone ⟨rfl, ?_⟩
          · rw [again]
          · rw [again]
            rfl
      · refine step_of_start related same (.inl ?_) (Debounce.extend_of_stops ends ?_)
        · rw [waiting]
          exact fun eq => other (Option.some.inj eq)
        · rintro ⟨eq, -⟩
          exact other (level.trans eq)

/-! ### Runs -/

theorem RegressionsVisible.of_append {samples more : List ControlSample}
    (visible : RegressionsVisible (samples ++ more)) : RegressionsVisible samples := by
  rintro before last next behind rfl
  refine visible before last next (behind ++ more) ?_
  rw [List.append_assoc, List.cons_append, List.cons_append]

/-- The control and the debouncer stay alike. -/
theorem runs_alike {samples : List ControlSample} (visible : RegressionsVisible samples) :
    Related (ControlDebounce.after samples)
        (Debounce.after kDebounceStableMilliseconds.toInt (samples.map ControlSample.exact)) ∧
      ∀ e : Nat, (ControlDebounce.reports samples)[e]? = some true ↔ ∃ b,
        (Debounce.changes kDebounceStableMilliseconds.toInt
          (samples.map ControlSample.exact))[e]? = some (some (some b, true)) := by
  induction samples using List.reverseRecOn with
  | nil => exact ⟨⟨rfl, rfl, fun first none => by cases none⟩, fun e => by simp⟩
  | append_singleton samples s ih =>
      obtain ⟨related, alike⟩ := ih visible.of_append
      obtain ⟨settling, suffix, -⟩ := Debounce.traces kDebounceStableMilliseconds.toInt
        (samples.map ControlSample.exact)
      have steps : StepsAlike (ControlDebounce.after samples)
          (Debounce.after kDebounceStableMilliseconds.toInt (samples.map ControlSample.exact)) s := by
        refine steps_alike related settling ?_
        intro last last_mem waiting back
        obtain ⟨front, split⟩ := suffix
        have ends : (samples.map ControlSample.exact).getLast? = some last := by
          rw [← split, List.getLast?_append, last_mem, Option.some_or]
        rw [List.getLast?_map, Option.map_eq_some_iff] at ends
        obtain ⟨t, t_last, rfl⟩ := ends
        obtain ⟨before, rfl⟩ := List.getLast?_eq_some_iff.mp t_last
        have placed : before ++ [t] ++ [s] = before ++ t :: s :: [] := by
          rw [List.append_assoc, List.singleton_append]
        exact visible before t s [] placed ⟨waiting, Int64.lt_iff_toInt_lt.mpr back⟩
      obtain ⟨reported, related⟩ := steps
      rw [List.map_append, ControlDebounce.after, ControlDebounce.reports, Debounce.after,
        Debounce.changes, Mealy.after_concat, Mealy.outputs_concat, List.map_singleton,
        Mealy.after_concat, Mealy.outputs_concat]
      refine ⟨related, fun e => ?_⟩
      by_cases inside : e < samples.length
      · rw [List.getElem?_append_left (by simpa), List.getElem?_append_left (by simpa)]
        exact alike e
      · rw [List.getElem?_append_right (by simpa using inside),
          List.getElem?_append_right (by simpa using inside), Mealy.length_outputs,
          Mealy.length_outputs, List.length_map, List.getElem?_singleton, List.getElem?_singleton]
        split
        · simp only [Option.some.injEq]
          exact reported
        · constructor
          · intro never
            cases never
          · rintro ⟨b, never⟩
            cases never

/-- A level is never both confirmed and a candidate. -/
theorem candidate_apart (samples : List ControlSample) {level : Bool}
    (waiting : (ControlDebounce.after samples).candidatePressed = some level) :
    (ControlDebounce.after samples).stablePressed ≠ some level := by
  induction samples using List.reverseRecOn generalizing level with
  | nil => cases waiting
  | append_singleton samples s ih =>
      rw [ControlDebounce.after, Mealy.after_concat] at waiting ⊢
      rcases (ControlDebounce.after samples).step_cases s with
        ⟨-, stepped⟩ | ⟨other, -, stepped⟩ | ⟨-, stepped⟩ | ⟨-, -, stepped⟩
      · rw [stepped] at waiting
        cases waiting
      · rw [stepped] at waiting ⊢
        cases waiting
        exact other
      · rw [stepped] at waiting ⊢
        exact ih waiting
      · rw [stepped] at waiting
        cases waiting

/-- A regression that reaches the window's first timestamp restarts the window. -/
theorem step_of_regression (other : control.stablePressed ≠ some s.pressed)
    (waiting : control.candidatePressed = some s.pressed)
    (back : s.nowMs ≤ control.candidateStartedMs) :
    control.step s = (false, { control with
      candidatePressed := some s.pressed, candidateStartedMs := s.nowMs }) := by
  by_cases seen : s.nowMs < control.candidateStartedMs
  · rw [ControlDebounce.step, ControlDebounce.sample, if_neg other, if_pos (.inr seen)]
  · have again : s.nowMs = control.candidateStartedMs :=
      Int64.le_antisymm back (Int64.not_lt.mp seen)
    rcases control.step_cases s with
      ⟨same, -⟩ | ⟨-, -, stepped⟩ | ⟨-, stepped⟩ | ⟨-, long, -⟩
    · exact absurd same other
    · exact stepped
    · rw [stepped, again, ← waiting]
    · rw [again, UInt64.sub_self] at long
      exact absurd (by decide) long

/-- The exact condition: a press has its runs and every regression restarts the window, as
long as no regression stays above the window's first timestamp. -/
theorem debounce_sound_iff (samples : List ControlSample) :
    DebounceSound samples ↔ RegressionsVisible samples := by
  constructor
  · intro sound before last next behind split regresses
    have restarted := sound.restarts before last next behind split regresses
    have apart := candidate_apart _ regresses.1
    rcases (ControlDebounce.after (before ++ [last])).step_cases next with
      ⟨same, -⟩ | ⟨-, starts, -⟩ | ⟨-, stepped⟩ | ⟨-, -, stepped⟩
    · exact absurd same apart
    · rcases starts with other | seen
      · exact absurd regresses.1 other
      · exact Int64.le_of_lt seen
    · rw [stepped] at restarted
      have kept := congrArg (·.2.candidateStartedMs) restarted
      exact Int64.le_of_eq kept.symm
    · rw [stepped] at restarted
      have kept := congrArg (·.2.candidatePressed) restarted
      cases kept
  · intro visible
    constructor
    case justified =>
      intro e reported
      obtain ⟨-, alike⟩ := runs_alike visible
      obtain ⟨b, changed⟩ := (alike e).mp reported
      obtain ⟨differs, before', old, behind', new, cut, old_held, new_held, earlier⟩ :=
        Debounce.change_justified changed
      rw [← List.map_take] at cut
      obtain ⟨third, pressed, taken, third_map, rfl⟩ := List.map_eq_append_iff.mp cut
      obtain ⟨second, behind, rfl, second_map, rfl⟩ := List.map_eq_append_iff.mp third_map
      obtain ⟨before, released, rfl, rfl, rfl⟩ := List.map_eq_append_iff.mp second_map
      refine ⟨before, released, behind, pressed, taken, ?_, new_held, ?_⟩
      · rwa [Bool.not_eq_true b |>.mp differs] at old_held
      · intro k sooner k_reported
        obtain ⟨other, k_changed⟩ := (alike k).mp k_reported
        have within := earlier k sooner (some other) k_changed
        rwa [List.length_map] at within
    case restarts =>
      intro before last next behind split regresses
      have back := visible before last next behind split regresses
      exact step_of_regression (candidate_apart _ regresses.1) regresses.1 back

/-- A clock that never goes back has no regressions to miss. -/
theorem regressionsVisible_of_monotonic {samples : List ControlSample}
    (monotonic : samples.IsChain fun s t => s.nowMs ≤ t.nowMs) : RegressionsVisible samples := by
  rintro before last next behind rfl ⟨-, back⟩
  have forward := (List.isChain_cons_cons.mp monotonic.right_of_append).1
  exact absurd back (Int64.not_lt.mpr forward)

/-- The clock goes back from 110 to 105 in the window that started at 100. -/
def hiddenRegression : List ControlSample :=
  [⟨false, 0⟩, ⟨false, 20⟩, ⟨true, 100⟩, ⟨true, 110⟩, ⟨true, 105⟩, ⟨true, 120⟩]

/-- The press is reported at 120, though the clock has gone forward for 15 ms only. -/
theorem hiddenRegression_unsound : ¬ DebounceSound hiddenRegression := by
  intro sound
  have reported : (ControlDebounce.reports hiddenRegression)[5]? = some true := by decide
  obtain ⟨before, released, behind, pressed, taken, -, held, -⟩ := sound.justified 5 reported
  have ends : pressed ∈ hiddenRegression.tails := by
    rw [List.mem_tails]
    exact ⟨_, taken.symm⟩
  have never : ∀ run ∈ hiddenRegression.tails, ¬ Held true run := by decide
  exact never pressed ends held

end DawnDock
