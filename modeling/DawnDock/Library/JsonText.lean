import DawnDock.Library.Json
import Mathlib.Data.List.Forall2

/-!
Writing texts of the JSON grammar: the decimal digits of a number (`natural_toDigits`), and
elements and members joined by commas. A text of a part is one whatever follows it.
-/

namespace Json

/-! ### Numbers -/

section Numbers

theorem Digits.trans {a b c : Nat} {input middle rest : Bytes} (front : Digits a input b middle)
    (back : Digits b middle c rest) : Digits a input c rest := by
  induction front with
  | done => exact back
  | more digit _ ih => exact .more digit (ih back)

/-- The codes of ASCII characters. -/
def ascii (chars : List Char) : Bytes := chars.map fun c => UInt8.ofNat c.toNat

theorem digit_digitChar {value : Nat} (small : value < 10) :
    Digit (UInt8.ofNat (Nat.digitChar value).toNat) value := by
  have codes : ∀ value < 10, (UInt8.ofNat (Nat.digitChar value).toNat).toNat = 0x30 + value := by
    decide
  exact ⟨codes value small, small⟩

/-- The first digit of a positive number, and the others. -/
theorem digits_toDigits {value : Nat} (positive : 0 < value) :
    ∃ byte digit text, ascii (Nat.toDigits 10 value) = byte :: text ∧ Digit byte digit ∧
      digit ≠ 0 ∧ ∀ rest, Digits digit (text ++ rest) value rest := by
  induction value using Nat.strongRecOn with
  | ind value ih =>
      by_cases small : value < 10
      · refine ⟨_, value, [], ?_, digit_digitChar small, Nat.pos_iff_ne_zero.mp positive,
          fun rest => .done⟩
        rw [Nat.toDigits_of_lt_base small]
        rfl
      · obtain ⟨byte, digit, text, first, isDigit, nonzero, read⟩ :=
          ih (value / 10) (by omega) (by omega)
        have whole : Nat.toDigits 10 value =
            Nat.toDigits 10 (value / 10) ++ [Nat.digitChar (value % 10)] := by
          rw [Nat.toDigits_eq_if (by omega), if_neg small]
        refine ⟨byte, digit, text ++ ascii [Nat.digitChar (value % 10)], ?_, isDigit, nonzero,
          fun rest => ?_⟩
        · rw [whole, ascii, List.map_append, ← ascii, first]
          rfl
        · have last : Digits (value / 10) (ascii [Nat.digitChar (value % 10)] ++ rest)
              (10 * (value / 10) + value % 10) rest :=
            .more (digit_digitChar (Nat.mod_lt _ (by omega))) .done
          rw [Nat.div_add_mod] at last
          rw [List.append_assoc]
          exact (read _).trans last

theorem natural_toDigits (value : Nat) (rest : Bytes) :
    Natural (ascii (Nat.toDigits 10 value) ++ rest) value rest := by
  rcases Nat.eq_zero_or_pos value with rfl | positive
  · exact .zero
  · obtain ⟨byte, digit, text, first, isDigit, nonzero, read⟩ := digits_toDigits positive
    rw [first]
    exact .positive isDigit nonzero (read rest)

end Numbers

/-! ### Containers -/

section Containers

variable {child : Document → Bytes → Bytes → Prop}

/-- The text is one of the document, whatever follows it. -/
def Denotes (child : Document → Bytes → Bytes → Prop) (text : Bytes) (document : Document) : Prop :=
  ∀ rest, child document (text ++ rest) rest

/-- A key, a colon and a value. -/
def MemberText (child : Document → Bytes → Bytes → Prop) (text : Bytes)
    (member : List Char × Document) : Prop :=
  ∃ key value, text = key ++ 0x3a :: value ∧ (∀ rest, Str (key ++ rest) member.1 rest) ∧
    Denotes child value member.2

theorem elements_intercalate {texts : List Bytes} {elements : List Document}
    (denote : List.Forall₂ (Denotes child) texts elements) (nonempty : elements ≠ [])
    (rest : Bytes) : Elements child elements (List.intercalate [0x2c] texts ++ rest) rest := by
  induction denote with
  | nil => exact absurd rfl nonempty
  | @cons text element texts elements first others ih =>
      cases others with
      | nil =>
          rw [List.intercalate, List.intersperse_singleton, List.flatten_singleton]
          exact .last .done (first rest) .done
      | cons second others =>
          have more := ih (List.cons_ne_nil _ _)
          rw [List.intercalate, List.intersperse_cons_cons, List.flatten_cons, List.flatten_cons,
            ← List.intercalate, List.append_assoc]
          exact .more .done (first _) .done more

theorem members_intercalate {texts : List Bytes} {members : List (List Char × Document)}
    (denote : List.Forall₂ (MemberText child) texts members) (nonempty : members ≠ [])
    (rest : Bytes) : Members child members (List.intercalate [0x2c] texts ++ rest) rest := by
  induction denote with
  | nil => exact absurd rfl nonempty
  | @cons text member texts members first others ih =>
      obtain ⟨key, value, rfl, keyed, denotes⟩ := first
      cases others with
      | nil =>
          rw [List.intercalate, List.intersperse_singleton, List.flatten_singleton,
            List.append_assoc]
          exact .last .done (keyed _) .done .done (denotes rest) .done
      | cons second others =>
          have more := ih (List.cons_ne_nil _ _)
          rw [List.intercalate, List.intersperse_cons_cons, List.flatten_cons, List.flatten_cons,
            ← List.intercalate, List.append_assoc, List.append_assoc]
          exact .more .done (keyed _) .done .done (denotes _) .done more

end Containers

/-! ### Nesting -/

section Nesting

variable {σ ν : Type}

/-- The document nests at most that many values deep. -/
def NestsWithin : Nat → Json σ ν → Prop
  | 0, _ => False
  | depth + 1, .array elements => ∀ element ∈ elements, NestsWithin depth element
  | depth + 1, .object members => ∀ member ∈ members, NestsWithin depth member.2
  | _ + 1, _ => True

end Nesting

end Json
