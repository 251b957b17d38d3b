import Mathlib.Data.List.Basic
import Mathlib.Logic.Function.Basic

/-!
UTF-8 as byte lists. `encode` writes scalar values one after another; a character is
recognised by its leading bytes (`encodeChar_append_inj`), so a byte string encodes at
most one list of characters (`encode_injective`).

The proofs read bytes as numbers: `units` is the arithmetic of the four lengths.
-/

namespace Utf8

/-- A text as UTF-8. -/
def encode (chars : List Char) : List UInt8 := chars.flatMap String.utf8EncodeChar

@[simp] theorem encode_nil : encode [] = [] := rfl

@[simp] theorem encode_cons (c : Char) (chars : List Char) :
    encode (c :: chars) = String.utf8EncodeChar c ++ encode chars := rfl

@[simp] theorem encode_append (first second : List Char) :
    encode (first ++ second) = encode first ++ encode second := List.flatMap_append

/-! ### Scalar values -/

/-- The numbers that are characters. -/
def Scalar (value : Nat) : Prop := value < 0xd800 ∨ 0xdfff < value ∧ value < 0x110000

theorem scalar_toNat (c : Char) : Scalar c.toNat := c.valid

/-- Every scalar value is a character. -/
theorem exists_char {value : Nat} (scalar : Scalar value) : ∃ c : Char, c.toNat = value :=
  ⟨Char.ofNatAux value scalar, rfl⟩

theorem char_eq {a b : Char} (h : a.toNat = b.toNat) : a = b :=
  Char.ext (UInt32.toNat_inj.mp h)

/-! ### Bytes as numbers -/

/-- The bytes of a scalar value, as numbers. -/
def units (value : Nat) : List Nat :=
  if value ≤ 0x7f then [value]
  else if value ≤ 0x7ff then [0xc0 + value / 64, 0x80 + value % 64]
  else if value ≤ 0xffff then
    [0xe0 + value / 4096, 0x80 + value / 64 % 64, 0x80 + value % 64]
  else
    [0xf0 + value / 262144, 0x80 + value / 4096 % 64, 0x80 + value / 64 % 64,
      0x80 + value % 64]

theorem bytes_eq_iff {first second : List UInt8} :
    first = second ↔ first.map UInt8.toNat = second.map UInt8.toNat :=
  ⟨congrArg _, fun h => List.map_injective_iff.mpr (fun _ _ => UInt8.toNat_inj.mp) h⟩

/-- The encoding of a character, as numbers. -/
theorem map_toNat_encodeChar (c : Char) :
    (String.utf8EncodeChar c).map UInt8.toNat = units c.toNat := by
  have scalar := scalar_toNat c
  simp only [Scalar, Char.toNat] at scalar
  unfold String.utf8EncodeChar units
  simp only [Char.toNat]
  by_cases one : c.val.toNat ≤ 0x7f
  · rw [if_pos one, if_pos one]
    simp only [List.map_cons, List.map_nil, UInt8.toNat_ofNat', List.cons.injEq, and_true]
    omega
  rw [if_neg one, if_neg one]
  by_cases two : c.val.toNat ≤ 0x7ff
  · rw [if_pos two, if_pos two]
    simp only [List.map_cons, List.map_nil, UInt8.toNat_ofNat', List.cons.injEq, and_true]
    omega
  rw [if_neg two, if_neg two]
  by_cases three : c.val.toNat ≤ 0xffff
  · rw [if_pos three, if_pos three]
    simp only [List.map_cons, List.map_nil, UInt8.toNat_ofNat', List.cons.injEq, and_true]
    omega
  rw [if_neg three, if_neg three]
  simp only [List.map_cons, List.map_nil, UInt8.toNat_ofNat', List.cons.injEq, and_true]
  omega

/-- The scalar value in front, and what follows it. -/
def firstValue : List Nat → Option (Nat × List Nat)
  | [] => none
  | a :: rest =>
    if a < 0x80 then some (a, rest)
    else if a < 0xe0 then
      match rest with
      | b :: rest => some ((a - 0xc0) * 64 + (b - 0x80), rest)
      | _ => none
    else if a < 0xf0 then
      match rest with
      | b :: c :: rest => some (((a - 0xe0) * 64 + (b - 0x80)) * 64 + (c - 0x80), rest)
      | _ => none
    else
      match rest with
      | b :: c :: d :: rest =>
        some ((((a - 0xf0) * 64 + (b - 0x80)) * 64 + (c - 0x80)) * 64 + (d - 0x80), rest)
      | _ => none

/-- Reading takes back what was written, whatever follows. -/
theorem firstValue_units {value : Nat} (rest : List Nat) :
    firstValue (units value ++ rest) = some (value, rest) := by
  unfold units
  by_cases one : value ≤ 0x7f
  · rw [if_pos one]
    show (if value < 0x80 then _ else _) = _
    rw [if_pos (by omega)]
    rfl
  rw [if_neg one]
  by_cases two : value ≤ 0x7ff
  · have joined : (0xc0 + value / 64 - 0xc0) * 64 + (0x80 + value % 64 - 0x80) = value := by omega
    rw [if_pos two]
    show (if 0xc0 + value / 64 < 0x80 then _ else _) = _
    rw [if_neg (by omega), if_pos (by omega)]
    exact congrArg (fun v => some (v, rest)) joined
  rw [if_neg two]
  by_cases three : value ≤ 0xffff
  · have joined : ((0xe0 + value / 4096 - 0xe0) * 64 + (0x80 + value / 64 % 64 - 0x80)) * 64 +
        (0x80 + value % 64 - 0x80) = value := by omega
    rw [if_pos three]
    show (if 0xe0 + value / 4096 < 0x80 then _ else _) = _
    rw [if_neg (by omega), if_neg (by omega), if_pos (by omega)]
    exact congrArg (fun v => some (v, rest)) joined
  have joined : (((0xf0 + value / 262144 - 0xf0) * 64 + (0x80 + value / 4096 % 64 - 0x80)) * 64 +
      (0x80 + value / 64 % 64 - 0x80)) * 64 + (0x80 + value % 64 - 0x80) = value := by omega
  rw [if_neg three]
  show (if 0xf0 + value / 262144 < 0x80 then _ else _) = _
  rw [if_neg (by omega), if_neg (by omega), if_neg (by omega)]
  exact congrArg (fun v => some (v, rest)) joined

/-- An encoding is not a prefix of another one. -/
theorem encodeChar_append_inj {c d : Char} {after after' : List UInt8}
    (same : String.utf8EncodeChar c ++ after = String.utf8EncodeChar d ++ after') :
    c = d ∧ after = after' := by
  rw [bytes_eq_iff, List.map_append, List.map_append, map_toNat_encodeChar,
    map_toNat_encodeChar] at same
  have first := @firstValue_units c.toNat (after.map UInt8.toNat)
  rw [same, firstValue_units] at first
  obtain ⟨value, rest⟩ := Prod.mk.inj (Option.some.inj first)
  exact ⟨char_eq value.symm, bytes_eq_iff.mpr rest.symm⟩

theorem encodeChar_ne_nil (c : Char) : String.utf8EncodeChar c ≠ [] := by
  intro empty
  have := Char.utf8Size_pos c
  rw [← String.length_utf8EncodeChar, empty] at this
  exact absurd this (by decide)

/-- Different texts have different bytes. -/
theorem encode_injective : Function.Injective encode := by
  intro first
  induction first with
  | nil =>
      intro second same
      cases second with
      | nil => rfl
      | cons d rest => exact absurd (List.append_eq_nil_iff.mp same.symm).1 (encodeChar_ne_nil d)
  | cons c first ih =>
      intro second same
      cases second with
      | nil => exact absurd (List.append_eq_nil_iff.mp same).1 (encodeChar_ne_nil c)
      | cons d rest =>
          obtain ⟨rfl, tail⟩ := encodeChar_append_inj same
          rw [ih tail]

end Utf8
