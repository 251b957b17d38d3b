import Mathlib.Logic.Function.Basic

/-!
Checksums that fold a register over the symbols of a message. When every symbol
moves the register injectively, and different symbols move it apart, changing one
symbol of a message always changes the checksum (`Detecting.foldl_set_ne`).
-/

namespace Checksum

variable {σ α : Type}

/-- A register step that loses neither the register nor the symbol. -/
structure Detecting (step : σ → α → σ) : Prop where
  register : ∀ symbol, Function.Injective fun state => step state symbol
  symbol : ∀ state, Function.Injective (step state)

variable {step : σ → α → σ}

theorem Detecting.foldl_injective (detecting : Detecting step) (message : List α) :
    Function.Injective fun state => message.foldl step state := by
  induction message with
  | nil => exact fun _ _ same => same
  | cons symbol message ih => exact fun _ _ same => detecting.register symbol (ih same)

/-- One changed symbol is always seen. -/
theorem Detecting.foldl_set_ne (detecting : Detecting step) {message : List α} {index : Nat}
    {old new : α} (found : message[index]? = some old) (changed : new ≠ old) (state : σ) :
    (message.set index new).foldl step state ≠ message.foldl step state := by
  induction message generalizing index state with
  | nil => cases found
  | cons head message ih =>
      cases index with
      | zero =>
          intro same
          obtain rfl : head = old := Option.some.inj found
          exact changed (detecting.symbol state (detecting.foldl_injective message same))
      | succ index => exact ih found _

theorem set_ne_self {message : List α} {index : Nat} {old new : α}
    (found : message[index]? = some old) (changed : new ≠ old) : message.set index new ≠ message := by
  intro same
  have read := List.getElem?_set_self (a := new) (List.getElem?_eq_some_iff.mp found).1
  rw [same, found] at read
  exact changed (Option.some.inj read).symm

/-- A symbol changed in a message of two parts is changed in one of them. -/
theorem set_append_eq {first second first' second' : List α} {index : Nat} {old new : α}
    (found : (first ++ second)[index]? = some old)
    (same : (first ++ second).set index new = first' ++ second')
    (length : first.length = first'.length) :
    (first[index]? = some old ∧ first' = first.set index new ∧ second' = second) ∨
      ∃ inner, second[inner]? = some old ∧ first' = first ∧ second' = second.set inner new := by
  by_cases inside : index < first.length
  · rw [List.set_append_left _ _ inside] at same
    rw [List.getElem?_append_left inside] at found
    obtain ⟨rfl, rfl⟩ := List.append_inj same (by rw [List.length_set, length])
    exact .inl ⟨found, rfl, rfl⟩
  · rw [List.set_append_right _ _ (Nat.le_of_not_lt inside)] at same
    rw [List.getElem?_append_right (Nat.le_of_not_lt inside)] at found
    obtain ⟨rfl, rfl⟩ := List.append_inj same length
    exact .inr ⟨_, found, rfl, rfl⟩

end Checksum
