import Mathlib.Data.List.Induction

/-!
Machines that put out one thing for each input.

What comes out at an index is the step on that input behind the inputs before it
(`exists_of_output`), so the first outputs are those of the first inputs (`outputs_take`).
What holds of the state behind some inputs came to hold at one of them, and has since
(`exists_onset`).
-/

namespace Mealy

variable {S A B : Type*} {step : S → A → B × S} {state : S}

/-- The state behind the inputs. -/
def after (step : S → A → B × S) (state : S) (inputs : List A) : S :=
  inputs.foldl (fun state input => (step state input).2) state

/-- What each input puts out. -/
def outputs (step : S → A → B × S) (state : S) : List A → List B
  | [] => []
  | input :: rest => (step state input).1 :: outputs step (step state input).2 rest

@[simp] theorem after_nil : after step state [] = state := rfl

@[simp] theorem after_cons (first : A) (rest : List A) :
    after step state (first :: rest) = after step (step state first).2 rest := rfl

@[simp] theorem outputs_nil : outputs step state [] = [] := rfl

@[simp] theorem outputs_cons (first : A) (rest : List A) :
    outputs step state (first :: rest) =
      (step state first).1 :: outputs step (step state first).2 rest := rfl

theorem after_append (inputs more : List A) :
    after step state (inputs ++ more) = after step (after step state inputs) more :=
  List.foldl_append

theorem outputs_append (inputs more : List A) :
    outputs step state (inputs ++ more) =
      outputs step state inputs ++ outputs step (after step state inputs) more := by
  induction inputs generalizing state with
  | nil => rfl
  | cons first rest ih => exact congrArg ((step state first).1 :: ·) ih

theorem after_concat (inputs : List A) (input : A) :
    after step state (inputs ++ [input]) = (step (after step state inputs) input).2 :=
  after_append inputs [input]

theorem outputs_concat (inputs : List A) (input : A) :
    outputs step state (inputs ++ [input]) =
      outputs step state inputs ++ [(step (after step state inputs) input).1] :=
  outputs_append inputs [input]

@[simp] theorem length_outputs (inputs : List A) :
    (outputs step state inputs).length = inputs.length := by
  induction inputs generalizing state with
  | nil => rfl
  | cons first rest ih => exact congrArg (· + 1) ih

theorem outputs_take (inputs : List A) (count : Nat) :
    (outputs step state inputs).take count = outputs step state (inputs.take count) := by
  induction inputs generalizing state count with
  | nil => rw [List.take_nil, outputs, List.take_nil]
  | cons first rest ih =>
      cases count with
      | zero => rfl
      | succ count => exact congrArg ((step state first).1 :: ·) (ih count)

/-- An output comes from the input at its index. -/
theorem exists_of_output {inputs : List A} {e : Nat} {output : B}
    (out : (outputs step state inputs)[e]? = some output) :
    ∃ input, inputs[e]? = some input ∧
      (step (after step state (inputs.take e)) input).1 = output := by
  induction inputs generalizing state e with
  | nil => cases out
  | cons first rest ih =>
      cases e with
      | zero =>
          cases out
          exact ⟨first, rfl, rfl⟩
      | succ e => exact ih out

/-- The outputs before an index do not depend on the inputs from it on. -/
theorem output_of_take {inputs : List A} {e k : Nat} {output : B} (sooner : k < e) :
    (outputs step state (inputs.take e))[k]? = some output ↔
      (outputs step state inputs)[k]? = some output := by
  rw [← outputs_take, List.getElem?_take, if_pos sooner]

/-- What every step keeps holds behind all inputs. -/
theorem after_invariant {P : S → Prop} (start : P state)
    (kept : ∀ state input, P state → P (step state input).2) (inputs : List A) :
    P (after step state inputs) := by
  induction inputs generalizing state with
  | nil => exact start
  | cons first rest ih => exact ih (kept state first start)

/-- The input at which something came to hold that holds behind all of the inputs. -/
theorem exists_onset {P : S → Prop} (start : ¬ P state) {inputs : List A}
    (holds : P (after step state inputs)) :
    ∃ earlier input later, inputs = earlier ++ input :: later ∧
      ¬ P (after step state earlier) ∧
      ∀ more, more <+: later → P (after step state (earlier ++ input :: more)) := by
  induction inputs using List.reverseRecOn with
  | nil => exact absurd holds start
  | append_singleton inputs last ih =>
      by_cases before : P (after step state inputs)
      · obtain ⟨earlier, input, later, rfl, false_before, since⟩ := ih before
        refine ⟨earlier, input, later ++ [last], by simp, false_before, ?_⟩
        intro more initial
        rcases List.prefix_concat_iff.mp initial with rfl | initial
        · rw [← List.cons_append, ← List.append_assoc]
          exact holds
        · exact since more initial
      · refine ⟨inputs, last, [], rfl, before, ?_⟩
        intro more initial
        obtain rfl := List.prefix_nil.mp initial
        exact holds

end Mealy
