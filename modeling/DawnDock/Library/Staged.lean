import Mathlib.Data.List.Basic

/-!
Histories that have passed stages in an order. `Staged quiet stages history` says that the
history ends with an event of each stage, the last stage first in the list, and that only
quiet events lie between the stages and after the last one.
-/

/-- The stages have been passed in turn, and nothing but quiet events came in between. -/
inductive Staged {ε : Type} (quiet : ε → Prop) : List (ε → Prop) → List ε → Prop where
  | start {history : List ε} : Staged quiet [] history
  | pass {stages : List (ε → Prop)} {stage : ε → Prop} {older later : List ε} {event : ε} :
      Staged quiet stages older → stage event → (∀ other ∈ later, quiet other) →
        Staged quiet (stage :: stages) (older ++ event :: later)

namespace Staged

variable {ε : Type} {quiet stage : ε → Prop} {stages : List (ε → Prop)} {history : List ε}
  {event : ε}

/-- An event of the next stage. -/
theorem next (staged : Staged quiet stages history) (passed : stage event) :
    Staged quiet (stage :: stages) (history ++ [event]) :=
  .pass staged passed (List.forall_mem_nil _)

/-- A quiet event. -/
theorem concat (staged : Staged quiet (stage :: stages) history) (silent : quiet event) :
    Staged quiet (stage :: stages) (history ++ [event]) := by
  cases staged with
  | @pass _ _ older later passing before passed quiets =>
      rw [List.append_assoc, List.cons_append]
      apply Staged.pass before passed
      intro other mem
      obtain mem | mem := List.mem_append.mp mem
      · exact quiets other mem
      · rwa [List.mem_singleton.mp mem]

/-- The last stage was passed after any event that is neither of that stage nor quiet. -/
theorem passed_since (staged : Staged quiet (stage :: stages) history) {before after : List ε}
    (split : history = before ++ event :: after) (other : ¬ stage event) (loud : ¬ quiet event) :
    ∃ passing ∈ after, stage passing := by
  cases staged with
  | @pass _ _ older later passing staged passed quiets =>
      obtain ⟨middle, rfl, rest⟩ | ⟨middle, rfl, rest⟩ := List.append_eq_append_iff.mp split.symm
      · cases middle with
        | nil =>
            obtain ⟨rfl, -⟩ := List.cons.inj rest
            exact absurd passed other
        | cons first middle =>
            obtain ⟨rfl, rfl⟩ := List.cons.inj rest
            exact ⟨passing, by simp, passed⟩
      · cases middle with
        | nil =>
            obtain ⟨rfl, -⟩ := List.cons.inj rest
            exact absurd passed other
        | cons first middle =>
            obtain ⟨rfl, rfl⟩ := List.cons.inj rest
            exact absurd (quiets event (by simp)) loud

end Staged
