import Mathlib.Order.Lattice
import Mathlib.Data.List.Basic

/-!
Step functions over a linear order, as a starting value and the steps that follow it.

`valueAt` reads one. It survives dropping steps that keep the value
(`valueAt_coalesce`), folding the steps up to an origin into the starting value
(`valueAt_after`), and cutting the steps off beyond a horizon (`valueAt_takeWhile`).
With steps in order it is the value of the last step reached
(`valueAt_eq_getLast`).
-/

namespace StepFunction

variable {τ β : Type} {initial : β} {steps : List (τ × β)}

/-- The steps that change the value. -/
def coalesce [DecidableEq β] (initial : β) : List (τ × β) → List (τ × β)
  | [] => []
  | step :: rest =>
    if step.2 = initial then coalesce initial rest else step :: coalesce step.2 rest

theorem coalesce_sublist [DecidableEq β] : (coalesce initial steps).Sublist steps := by
  induction steps generalizing initial with
  | nil => exact .refl _
  | cons step rest ih =>
      unfold coalesce
      split
      · exact ih.cons step
      · exact ih.cons_cons step

variable [LinearOrder τ] {t origin : τ}

/-- The value at `t`: that of the steps reached in turn, from `initial` on. -/
def valueAt (initial : β) : List (τ × β) → τ → β
  | [], _ => initial
  | step :: rest, t => if t < step.1 then initial else valueAt step.2 rest t

/-- Strictly increasing in time. -/
def Ordered (steps : List (τ × β)) : Prop := steps.Pairwise fun earlier later => earlier.1 < later.1

theorem valueAt_of_lt (early : ∀ step ∈ steps, t < step.1) : valueAt initial steps t = initial := by
  cases steps with
  | nil => rfl
  | cons step rest => exact if_pos (early step (List.mem_cons_self ..))

theorem valueAt_map {γ : Type} (f : β → γ) :
    valueAt (f initial) (steps.map fun step => (step.1, f step.2)) t =
      f (valueAt initial steps t) := by
  induction steps generalizing initial with
  | nil => rfl
  | cons step rest ih =>
      rw [List.map_cons, valueAt, valueAt, ih]
      split
      · rfl
      · rfl

theorem Ordered.sublist {shorter : List (τ × β)} (ordered : Ordered steps)
    (sub : shorter.Sublist steps) : Ordered shorter := List.Pairwise.sublist sub ordered

theorem valueAt_coalesce [DecidableEq β] (ordered : Ordered steps) :
    valueAt initial (coalesce initial steps) t = valueAt initial steps t := by
  induction steps generalizing initial with
  | nil => rfl
  | cons step rest ih =>
      obtain ⟨head_lt, ordered⟩ := List.pairwise_cons.mp ordered
      unfold coalesce
      split
      · rename_i kept
        rw [ih ordered, valueAt]
        split
        · -- before a step that keeps the value, no later one is reached either
          rename_i early
          exact valueAt_of_lt fun later mem => early.trans (head_lt later mem)
        · rw [kept]
      · rw [valueAt, valueAt, ih ordered]

/-- Steps beyond a horizon are not reached before it. -/
theorem valueAt_takeWhile (within : τ → Prop) [DecidablePred within]
    (closed : ∀ earlier later : τ, earlier ≤ later → within later → within earlier)
    (inside : within t) :
    valueAt initial (steps.takeWhile fun step => within step.1) t = valueAt initial steps t := by
  induction steps generalizing initial with
  | nil => rfl
  | cons step rest ih =>
      by_cases kept : within step.1
      · rw [List.takeWhile_cons_of_pos (by simpa using kept), valueAt, valueAt, ih]
      · rw [List.takeWhile_cons_of_neg (by simpa using kept), valueAt, valueAt,
          if_pos (lt_of_not_ge fun reached => kept (closed _ _ reached inside))]

/-- The steps up to an origin folded into the starting value. -/
theorem valueAt_after (ordered : Ordered steps) (from_origin : origin ≤ t) :
    valueAt (valueAt initial steps origin) (steps.filter fun step => origin < step.1) t =
      valueAt initial steps t := by
  induction steps generalizing initial with
  | nil => rfl
  | cons step rest ih =>
      obtain ⟨head_lt, ordered⟩ := List.pairwise_cons.mp ordered
      by_cases ahead : origin < step.1
      · have all : rest.filter (fun step => origin < step.1) = rest :=
          List.filter_eq_self.mpr fun later mem => decide_eq_true (ahead.trans (head_lt later mem))
        rw [List.filter_cons_of_pos (by simpa using ahead), all]
        show valueAt (if origin < step.1 then initial else _) _ t = _
        rw [if_pos ahead]
      · rw [List.filter_cons_of_neg (by simpa using ahead)]
        show valueAt (if origin < step.1 then initial else _) _ t =
          if t < step.1 then initial else _
        rw [if_neg ahead, if_neg fun early => ahead (from_origin.trans_lt early)]
        exact ih ordered

/-- Steps in order: the value is that of the last step reached. -/
theorem valueAt_eq_getLast {reached : τ × β → Bool}
    (reached_iff : ∀ step, reached step = true ↔ step.1 ≤ t) (ordered : Ordered steps) :
    valueAt initial steps t = (steps.filter reached).getLast?.elim initial Prod.snd := by
  induction steps generalizing initial with
  | nil => rfl
  | cons step rest ih =>
      obtain ⟨head_lt, ordered⟩ := List.pairwise_cons.mp ordered
      rw [valueAt]
      by_cases early : t < step.1
      · have none_reached : (step :: rest).filter reached = [] := by
          refine List.filter_eq_nil_iff.mpr fun later mem => ?_
          rw [reached_iff, not_le]
          obtain rfl | mem := List.mem_cons.mp mem
          · exact early
          · exact lt_trans early (head_lt later mem)
        rw [if_pos early, none_reached]
        rfl
      · rw [if_neg early, ih ordered,
          List.filter_cons_of_pos ((reached_iff step).mpr (not_lt.mp early)), List.getLast?_cons]
        cases (rest.filter reached).getLast? with
        | none => rfl
        | some last => rfl

/-- At an instant of the steps, the value is that of its step. -/
theorem valueAt_of_mem (ordered : Ordered steps) {step : τ × β} (mem : step ∈ steps) :
    valueAt initial steps step.1 = step.2 := by
  induction steps generalizing initial with
  | nil => cases mem
  | cons first rest ih =>
      obtain ⟨before, ordered⟩ := List.pairwise_cons.mp ordered
      rw [valueAt]
      obtain rfl | mem := List.mem_cons.mp mem
      · rw [if_neg (lt_irrefl _)]
        exact valueAt_of_lt before
      · rw [if_neg (not_lt_of_gt (before step mem)), ih ordered mem]

/-- Over the integers, a change of the value is a step. -/
theorem exists_of_change {steps : List (Int × β)} {instant : Int}
    (change : valueAt initial steps (instant - 1) ≠ valueAt initial steps instant) :
    ∃ step ∈ steps, step.1 = instant := by
  induction steps generalizing initial with
  | nil => exact absurd rfl change
  | cons first rest ih =>
      rw [valueAt, valueAt] at change
      by_cases early : instant < first.1
      · rw [if_pos early, if_pos (by omega)] at change
        exact absurd rfl change
      rw [if_neg early] at change
      by_cases now : instant - 1 < first.1
      · exact ⟨first, List.mem_cons_self, by omega⟩
      · rw [if_neg now] at change
        obtain ⟨step, mem, same⟩ := ih change
        exact ⟨step, List.mem_cons_of_mem _ mem, same⟩

end StepFunction
