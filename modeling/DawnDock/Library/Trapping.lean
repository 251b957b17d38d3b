import DawnDock.Library.MachineInt

/-!
Signed machine arithmetic that stops on overflow. An operation whose exact result does
not fit its type has no result (`none`), as in a language where signed overflow is
undefined, so a computation with a result has overflowed nowhere.

An operation that fits gives what wrapping arithmetic gives (`add_eq`, `sub_eq`, ...): a
computation in this arithmetic is compared with the same computation in `Int64`.
-/

namespace Trapping

open MachineInt

def FitsInt64 (n : Int) : Prop := -2 ^ 63 ≤ n ∧ n < 2 ^ 63

def FitsInt32 (n : Int) : Prop := -2 ^ 31 ≤ n ∧ n < 2 ^ 31

instance (n : Int) : Decidable (FitsInt64 n) := inferInstanceAs (Decidable (_ ∧ _))

instance (n : Int) : Decidable (FitsInt32 n) := inferInstanceAs (Decidable (_ ∧ _))

def add (a b : Int64) : Option Int64 :=
  if FitsInt64 (a.toInt + b.toInt) then some (a + b) else none

def sub (a b : Int64) : Option Int64 :=
  if FitsInt64 (a.toInt - b.toInt) then some (a - b) else none

def mul (a b : Int64) : Option Int64 :=
  if FitsInt64 (a.toInt * b.toInt) then some (a * b) else none

def neg (a : Int64) : Option Int64 :=
  if FitsInt64 (-a.toInt) then some (-a) else none

def neg32 (a : Int32) : Option Int32 :=
  if FitsInt32 (-a.toInt) then some (-a) else none

/-- Truncating division. -/
def div (a b : Int64) : Option Int64 :=
  if b.toInt ≠ 0 ∧ FitsInt64 (a.toInt.tdiv b.toInt) then some (a / b) else none

/-- The remainder of `div`, undefined wherever the quotient is. -/
def mod (a b : Int64) : Option Int64 :=
  if b.toInt ≠ 0 ∧ FitsInt64 (a.toInt.tdiv b.toInt) then some (a % b) else none

/-- `&&`, whose second operand is evaluated behind a true first one only. -/
def andAlso (first second : Option Bool) : Option Bool := do
  if ← first then second else pure false

/-- `||`. -/
def orElse (first second : Option Bool) : Option Bool := do
  if ← first then pure true else second

section Operations

variable {a b : Int64}

theorem add_eq (fits : FitsInt64 (a.toInt + b.toInt)) : add a b = some (a + b) := if_pos fits

theorem sub_eq (fits : FitsInt64 (a.toInt - b.toInt)) : sub a b = some (a - b) := if_pos fits

theorem mul_eq (fits : FitsInt64 (a.toInt * b.toInt)) : mul a b = some (a * b) := if_pos fits

theorem neg32_eq {a : Int32} (fits : FitsInt32 (-a.toInt)) : neg32 a = some (-a) := if_pos fits

/-- No quotient by a positive number is larger than its dividend. -/
theorem tdiv_fits (pos : 0 < b.toInt) : b.toInt ≠ 0 ∧ FitsInt64 (a.toInt.tdiv b.toInt) := by
  have low := a.le_toInt
  have high := a.toInt_lt
  have small : (a.toInt.tdiv b.toInt).natAbs ≤ a.toInt.natAbs := by
    rw [Int.natAbs_tdiv]
    exact Nat.div_le_self ..
  constructor
  · omega
  · unfold FitsInt64
    by_cases nonneg : 0 ≤ a.toInt
    · have := Int.tdiv_nonneg nonneg (Int.le_of_lt pos)
      omega
    · have nonpos := Int.tdiv_nonneg (a := -a.toInt) (by omega) (Int.le_of_lt pos)
      rw [Int.neg_tdiv] at nonpos
      omega

theorem div_eq (pos : 0 < b.toInt) : div a b = some (a / b) := if_pos (tdiv_fits pos)

theorem mod_eq (pos : 0 < b.toInt) : mod a b = some (a % b) := if_pos (tdiv_fits pos)

end Operations

/-! ### Composition -/

section Composition

variable {α β : Type}

/-- A computation goes on with the result of its first part. -/
theorem bind_eq {first : Option α} {next : α → Option β} {a : α} {result : Option β}
    (h : first = some a) (rest : next a = result) : first >>= next = result := by
  subst h
  exact rest

theorem andAlso_eq {first second : Option Bool} {left right : Bool} (h : first = some left)
    (behind : left = true → second = some right) :
    andAlso first second = some (left && right) := by
  subst h
  cases left with
  | true => exact behind rfl
  | false => rfl

theorem orElse_eq {first second : Option Bool} {left right : Bool} (h : first = some left)
    (behind : left = false → second = some right) :
    orElse first second = some (left || right) := by
  subst h
  cases left with
  | true => rfl
  | false => exact behind rfl

theorem orElse_some (left right : Bool) :
    orElse (some left) (some right) = some (left || right) :=
  orElse_eq rfl fun _ => rfl

/-- A loop whose body gives the result of `step` gives the result of the fold. -/
theorem foldlM_eq {body : β → α → Option β} {step : β → α → β} {l : List α}
    (each : ∀ value ∈ l, ∀ state, body state value = some (step state value)) (state : β) :
    l.foldlM body state = some (l.foldl step state) := by
  induction l generalizing state with
  | nil => rfl
  | cons value rest ih =>
      rw [List.foldlM_cons, List.foldl_cons]
      apply bind_eq (each value List.mem_cons_self state)
      exact ih (fun other mem => each other (List.mem_cons_of_mem _ mem)) _

/-- The first result of a loop that is left when its body gives one. -/
def findSomeM (body : α → Option (Option β)) : List α → Option (Option β)
  | [] => some none
  | value :: rest => do
    match ← body value with
    | some result => pure (some result)
    | none => findSomeM body rest

theorem findSomeM_eq {body : α → Option (Option β)} {f : α → Option β} {l : List α}
    (each : ∀ value ∈ l, body value = some (f value)) :
    findSomeM body l = some (l.findSome? f) := by
  induction l with
  | nil => rfl
  | cons value rest ih =>
      unfold findSomeM
      rw [List.findSome?_cons]
      apply bind_eq (each value List.mem_cons_self)
      cases f value with
      | some result => rfl
      | none => exact ih fun other mem => each other (List.mem_cons_of_mem _ mem)

end Composition

end Trapping
