import DawnDock.Library.Mealy
import Mathlib.Algebra.BigOperators.Group.List.Basic
import Mathlib.Algebra.Ring.Int.Defs
import Mathlib.Data.List.Induction

/-!
Counters with a carry.

A counter adds up steps and hands on a carry, 1 or -1, when the sum reaches the modulus or
its negation; a gap in the steps clears it. Between gaps nothing is invented or lost
(`conserves`), the sum stays inside the modulus (`settle_lt`), and every carry has its own
steps, which no other carry uses (`exists_start`, `carry_justified`).
-/

namespace CarryCounter

/-- One input, where `none` is a gap: the carry and the sum it leaves. -/
def next (modulus sum : Int) : Option Int → Option Int × Int
  | none => (none, 0)
  | some step =>
    if sum + step = modulus then (some 1, 0)
    else if sum + step = -modulus then (some (-1), 0)
    else (none, sum + step)

/-- The sum behind the inputs. -/
abbrev settle (modulus sum : Int) (inputs : List (Option Int)) : Int :=
  Mealy.after (next modulus) sum inputs

/-- What each input carries. -/
abbrev carries (modulus sum : Int) (inputs : List (Option Int)) : List (Option Int) :=
  Mealy.outputs (next modulus) sum inputs

/-- The carries with their signs. -/
def total (carried : List (Option Int)) : Int := (carried.map fun carry => carry.getD 0).sum

variable {modulus sum : Int}

theorem next_some (step : Int) :
    modulus * ((next modulus sum (some step)).1.getD 0) + (next modulus sum (some step)).2 =
      sum + step := by
  unfold next
  dsimp only
  split
  · rename_i up
    rw [Option.getD_some, up]
    omega
  split
  · rename_i down
    rw [Option.getD_some, down]
    omega
  · rw [Option.getD_none, Int.mul_zero, Int.zero_add]

/-- The carries and the change of the sum are the steps, whatever the steps are. -/
theorem conserves (steps : List Int) :
    modulus * total (carries modulus sum (steps.map some)) +
      (settle modulus sum (steps.map some) - sum) = steps.sum := by
  induction steps generalizing sum with
  | nil => simp [total]
  | cons step rest ih =>
      have later := @ih (next modulus sum (some step)).2
      have here := @next_some modulus sum step
      unfold total carries settle at *
      rw [List.map_cons, Mealy.outputs_cons, Mealy.after_cons, List.map_cons, List.sum_cons,
        Int.mul_add, List.sum_cons]
      omega

theorem next_lt (positive : 0 < modulus) {input : Option Int}
    (small : ∀ step ∈ input, -1 ≤ step ∧ step ≤ 1) (inside : -modulus < sum ∧ sum < modulus) :
    -modulus < (next modulus sum input).2 ∧ (next modulus sum input).2 < modulus := by
  cases input with
  | none =>
      constructor
      · exact Int.neg_neg_of_pos positive
      · exact positive
  | some step =>
      have size := small step rfl
      unfold next
      dsimp only
      split
      · constructor <;> omega
      split
      · constructor <;> omega
      · constructor <;> omega

/-- Steps of at most one do not leave the modulus. -/
theorem settle_lt (positive : 0 < modulus) {inputs : List (Option Int)}
    (small : ∀ input ∈ inputs, ∀ step ∈ input, -1 ≤ step ∧ step ≤ 1)
    (inside : -modulus < sum ∧ sum < modulus) :
    -modulus < settle modulus sum inputs ∧ settle modulus sum inputs < modulus := by
  induction inputs generalizing sum with
  | nil => exact inside
  | cons input rest ih =>
      rw [List.forall_mem_cons] at small
      exact ih small.2 (next_lt positive small.1 inside)

/-- The sum is cleared, or it takes the step without a carry. -/
theorem next_cases (modulus sum : Int) (input : Option Int) :
    (next modulus sum input).2 = 0 ∨
      ∃ step, input = some step ∧ next modulus sum input = (none, sum + step) := by
  cases input with
  | none => exact .inl rfl
  | some step =>
      unfold next
      dsimp only
      split
      · exact .inl rfl
      split
      · exact .inl rfl
      · exact .inr ⟨step, rfl, rfl⟩

/-- A carry needs a step that makes the modulus full. -/
theorem next_carry {input : Option Int} {carry : Int}
    (carried : (next modulus sum input).1 = some carry) :
    (carry = 1 ∨ carry = -1) ∧ ∃ step, input = some step ∧ sum + step = modulus * carry := by
  cases input with
  | none => cases carried
  | some step =>
      unfold next at carried
      dsimp only at carried
      split at carried
      · cases carried
        exact ⟨.inl rfl, step, rfl, by omega⟩
      split at carried
      · cases carried
        exact ⟨.inr rfl, step, rfl, by omega⟩
      · cases carried

/-! ### The steps of a carry -/

/-- The sum is that of the last inputs, which have no gap and stand behind every carry. -/
theorem exists_start (modulus : Int) (inputs : List (Option Int)) :
    ∃ start ≤ inputs.length, ∃ steps : List Int,
      inputs.drop start = steps.map some ∧ steps.sum = settle modulus 0 inputs ∧
      ∀ e carry, (carries modulus 0 inputs)[e]? = some (some carry) → e < start := by
  induction inputs using List.reverseRecOn with
  | nil => exact ⟨0, Nat.le_refl _, [], rfl, rfl, fun e carry none => by cases none⟩
  | append_singleton inputs input ih =>
      obtain ⟨start, inside, steps, steps_eq, sum_eq, behind⟩ := ih
      rw [settle, carries, Mealy.after_concat, Mealy.outputs_concat]
      rcases next_cases modulus (settle modulus 0 inputs) input with clear | ⟨step, rfl, kept⟩
      · -- a gap and a carry start again behind the last input
        refine ⟨(inputs ++ [input]).length, Nat.le_refl _, [], List.drop_length, clear.symm, ?_⟩
        intro e carry carried
        obtain ⟨placed, -⟩ := List.getElem?_eq_some_iff.mp carried
        rw [List.length_append, Mealy.length_outputs] at placed
        rwa [List.length_append]
      · rw [kept]
        refine ⟨start, ?_, steps ++ [step], ?_, ?_, ?_⟩
        · rw [List.length_append]
          omega
        · rw [List.drop_append_of_le_length inside, steps_eq, List.map_append]
          rfl
        · rw [List.sum_append, sum_eq, List.sum_singleton]
        · intro e carry carried
          rw [List.getElem?_append] at carried
          split at carried
          · exact behind e carry carried
          · rw [List.getElem?_singleton] at carried
            split at carried
            · cases carried
            · cases carried

/-- Every carry has its own steps: they end with its input, fill the modulus in its
direction, and stand behind the carries before. -/
theorem carry_justified {inputs : List (Option Int)} {e : Nat} {carry : Int}
    (carried : (carries modulus 0 inputs)[e]? = some (some carry)) :
    (carry = 1 ∨ carry = -1) ∧ ∃ start ≤ e, ∃ steps : List Int,
      (inputs.take (e + 1)).drop start = steps.map some ∧ steps.sum = modulus * carry ∧
      ∀ earlier < e, ∀ other, (carries modulus 0 inputs)[earlier]? = some (some other) →
        earlier < start := by
  obtain ⟨input, placed, at_e⟩ := Mealy.exists_of_output carried
  obtain ⟨inside, -⟩ := List.getElem?_eq_some_iff.mp placed
  have before : inputs.take (e + 1) = inputs.take e ++ [input] := by
    rw [List.take_add_one, placed, Option.toList_some]
  have before_length : (inputs.take e).length = e := List.length_take_of_le (Nat.le_of_lt inside)
  obtain ⟨sign, step, input_eq, full⟩ := next_carry at_e
  obtain ⟨start, within, steps, steps_eq, sum_eq, behind⟩ := exists_start modulus (inputs.take e)
  rw [before_length] at within
  refine ⟨sign, start, within, steps ++ [step], ?_, ?_, ?_⟩
  · rw [before, input_eq, List.drop_append_of_le_length (by rwa [before_length]), steps_eq,
      List.map_append]
    rfl
  · rw [List.sum_append, sum_eq, List.sum_singleton]
    exact full
  · intro earlier sooner other fired
    exact behind earlier other ((Mealy.output_of_take sooner).mpr fired)

end CarryCounter
