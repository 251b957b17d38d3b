import DawnDock.Library.Utf8
import Mathlib.Algebra.Ring.Nat

/-!
UTF-16 as lists of code units, and strings that may hold unpaired surrogates.

`runes` reads the code points of any such string; on encoded characters it reads the
characters (`runes_encode`), so a string encodes at most one list of them
(`encode_injective`). A string and its UTF-8 bytes are either the same ASCII codes or
both hold something else (`ascii_or_wide`).
-/

namespace Utf16

/-- The first unit of a pair. -/
def isHighSurrogate (unit : UInt16) : Bool := 0xd800 ≤ unit && unit ≤ 0xdbff

/-- The second unit of a pair. -/
def isLowSurrogate (unit : UInt16) : Bool := 0xdc00 ≤ unit && unit ≤ 0xdfff

/-- The code units of a code point. -/
def ofRune (rune : Nat) : List UInt16 :=
  if rune < 0x10000 then [UInt16.ofNat rune]
  else [UInt16.ofNat (0xd800 + (rune - 0x10000) / 0x400),
    UInt16.ofNat (0xdc00 + (rune - 0x10000) % 0x400)]

/-- A text as UTF-16. -/
def encode (chars : List Char) : List UInt16 := chars.flatMap fun c => ofRune c.toNat

@[simp] theorem encode_nil : encode [] = [] := rfl

@[simp] theorem encode_cons (c : Char) (chars : List Char) :
    encode (c :: chars) = ofRune c.toNat ++ encode chars := rfl

/-- The code points; an unpaired surrogate stands for itself. -/
def runes : List UInt16 → List Nat
  | high :: low :: rest =>
    if isHighSurrogate high && isLowSurrogate low then
      (0x10000 + (high.toNat - 0xd800) * 0x400 + (low.toNat - 0xdc00)) :: runes rest
    else high.toNat :: runes (low :: rest)
  | [unit] => [unit.toNat]
  | [] => []

/-- The UTF-8 length of a string, three bytes for an unpaired surrogate. -/
def utf8Length (text : List UInt16) : Nat :=
  ((runes text).map fun rune => (Utf8.units rune).length).sum

/-! ### Characters -/

section Characters

theorem isHighSurrogate_iff {unit : UInt16} :
    isHighSurrogate unit = true ↔ 0xd800 ≤ unit.toNat ∧ unit.toNat ≤ 0xdbff := by
  rw [isHighSurrogate, Bool.and_eq_true, decide_eq_true_eq, decide_eq_true_eq,
    UInt16.le_iff_toNat_le, UInt16.le_iff_toNat_le]
  rfl

theorem isLowSurrogate_iff {unit : UInt16} :
    isLowSurrogate unit = true ↔ 0xdc00 ≤ unit.toNat ∧ unit.toNat ≤ 0xdfff := by
  rw [isLowSurrogate, Bool.and_eq_true, decide_eq_true_eq, decide_eq_true_eq,
    UInt16.le_iff_toNat_le, UInt16.le_iff_toNat_le]
  rfl

/-- A unit that begins no pair is a rune by itself. -/
theorem runes_cons_of_not_high {unit : UInt16} (h : isHighSurrogate unit = false)
    (rest : List UInt16) : runes (unit :: rest) = unit.toNat :: runes rest := by
  cases rest with
  | nil => rfl
  | cons low rest => rw [runes, h, Bool.false_and, if_neg Bool.false_ne_true]

/-- A pair is one rune. -/
theorem runes_pair {high low : UInt16} (is_high : isHighSurrogate high = true)
    (is_low : isLowSurrogate low = true) (rest : List UInt16) :
    runes (high :: low :: rest) =
      (0x10000 + (high.toNat - 0xd800) * 0x400 + (low.toNat - 0xdc00)) :: runes rest := by
  rw [runes, is_high, is_low]
  rfl

theorem toNat_ofNat_of_lt {n : Nat} (small : n < 0x10000) : (UInt16.ofNat n).toNat = n := by
  rw [UInt16.toNat_ofNat']
  exact Nat.mod_eq_of_lt small

/-- A character is read back from its code units. -/
theorem runes_ofRune_append (c : Char) (rest : List UInt16) :
    runes (ofRune c.toNat ++ rest) = c.toNat :: runes rest := by
  have scalar := Utf8.scalar_toNat c
  unfold Utf8.Scalar at scalar
  unfold ofRune
  split
  · rename_i small
    have value := toNat_ofNat_of_lt small
    have not_high : isHighSurrogate (UInt16.ofNat c.toNat) = false := by
      rw [Bool.eq_false_iff, ne_eq, isHighSurrogate_iff, value]
      omega
    rw [List.singleton_append, runes_cons_of_not_high not_high, value]
  · have high_value := @toNat_ofNat_of_lt (0xd800 + (c.toNat - 0x10000) / 0x400) (by omega)
    have low_value := @toNat_ofNat_of_lt (0xdc00 + (c.toNat - 0x10000) % 0x400) (by omega)
    have is_high := isHighSurrogate_iff.mpr (by rw [high_value]; omega)
    have is_low := isLowSurrogate_iff.mpr (by rw [low_value]; omega)
    have joined : 0x10000 + (0xd800 + (c.toNat - 0x10000) / 0x400 - 0xd800) * 0x400 +
        (0xdc00 + (c.toNat - 0x10000) % 0x400 - 0xdc00) = c.toNat := by omega
    rw [List.cons_append, List.singleton_append, runes_pair is_high is_low, high_value, low_value,
      joined]

/-- The runes of a text are its characters. -/
theorem runes_encode (chars : List Char) : runes (encode chars) = chars.map Char.toNat := by
  induction chars with
  | nil => rfl
  | cons c chars ih => rw [encode_cons, runes_ofRune_append, ih, List.map_cons]

/-- Different texts have different units. -/
theorem encode_injective : Function.Injective encode := by
  intro first second same
  have runes_eq := congrArg runes same
  rw [runes_encode, runes_encode] at runes_eq
  exact List.map_injective_iff.mpr (fun _ _ => Utf8.char_eq) runes_eq

/-- The length is the one that the text has in UTF-8. -/
theorem utf8Length_encode (chars : List Char) :
    utf8Length (encode chars) = (Utf8.encode chars).length := by
  rw [utf8Length, runes_encode, List.map_map, Utf8.encode, List.length_flatMap]
  congr 2
  funext c
  rw [Function.comp_apply, ← Utf8.map_toNat_encodeChar, List.length_map]

theorem encode_isEmpty (chars : List Char) :
    (encode chars).isEmpty = (Utf8.encode chars).isEmpty := by
  cases chars with
  | nil => rfl
  | cons c chars =>
      have units : (encode (c :: chars)).isEmpty = false := by
        rw [encode_cons, ofRune]
        split
        · rfl
        · rfl
      have bytes : (Utf8.encode (c :: chars)).isEmpty = false := by
        rw [Utf8.encode_cons, List.isEmpty_eq_false_iff]
        exact List.append_ne_nil_of_left_ne_nil (Utf8.encodeChar_ne_nil c) _
      rw [units, bytes]

end Characters

/-! ### ASCII -/

section Ascii

theorem utf8_ascii {c : Char} (ascii : c.toNat < 128) :
    String.utf8EncodeChar c = [UInt8.ofNat c.toNat] := by
  rw [Utf8.bytes_eq_iff, Utf8.map_toNat_encodeChar, Utf8.units, if_pos (Nat.le_of_lt_succ ascii),
    List.map_singleton, UInt8.toNat_ofNat', Nat.mod_eq_of_lt (by omega)]

/-- A character beyond ASCII has a byte beyond ASCII. -/
theorem utf8_wide {c : Char} (wide : 128 ≤ c.toNat) :
    ∃ b ∈ String.utf8EncodeChar c, 128 ≤ b.toNat := by
  have units_wide : ∃ n ∈ Utf8.units c.toNat, 128 ≤ n := by
    unfold Utf8.units
    rw [if_neg (by omega)]
    split
    · exact ⟨_, List.mem_cons_self, by omega⟩
    split
    · exact ⟨_, List.mem_cons_self, by omega⟩
    · exact ⟨_, List.mem_cons_self, by omega⟩
  obtain ⟨n, mem, le⟩ := units_wide
  rw [← Utf8.map_toNat_encodeChar] at mem
  obtain ⟨b, b_mem, rfl⟩ := List.mem_map.mp mem
  exact ⟨b, b_mem, le⟩

theorem ofRune_ascii {rune : Nat} (ascii : rune < 128) : ofRune rune = [UInt16.ofNat rune] :=
  if_pos (by omega)

/-- It has such a unit as well. -/
theorem ofRune_wide {c : Char} (wide : 128 ≤ c.toNat) : ∃ u ∈ ofRune c.toNat, 128 ≤ u.toNat := by
  have scalar := Utf8.scalar_toNat c
  unfold Utf8.Scalar at scalar
  unfold ofRune
  split
  · rename_i small
    refine ⟨_, List.mem_cons_self, ?_⟩
    rwa [toNat_ofNat_of_lt small]
  · refine ⟨_, List.mem_cons_self, ?_⟩
    rw [toNat_ofNat_of_lt (by omega)]
    omega

/-- The two encodings of a string are the same ASCII codes, or each has a wider unit. -/
theorem ascii_or_wide (chars : List Char) :
    (∃ codes : List Nat, (∀ code ∈ codes, code < 128) ∧
      Utf8.encode chars = codes.map UInt8.ofNat ∧ encode chars = codes.map UInt16.ofNat) ∨
    (∃ b ∈ Utf8.encode chars, 128 ≤ b.toNat) ∧ ∃ u ∈ encode chars, 128 ≤ u.toNat := by
  induction chars with
  | nil => exact .inl ⟨[], List.forall_mem_nil _, rfl, rfl⟩
  | cons c chars ih =>
      rw [Utf8.encode_cons, encode_cons]
      by_cases ascii : c.toNat < 128
      · rw [utf8_ascii ascii, ofRune_ascii ascii]
        obtain ⟨codes, small, bytes, units⟩ | ⟨⟨b, b_mem, b_wide⟩, u, u_mem, u_wide⟩ := ih
        · rw [bytes, units]
          exact .inl ⟨c.toNat :: codes, List.forall_mem_cons.mpr ⟨ascii, small⟩, rfl, rfl⟩
        · exact .inr ⟨⟨b, List.mem_cons_of_mem _ b_mem, b_wide⟩, u,
            List.mem_cons_of_mem _ u_mem, u_wide⟩
      · obtain ⟨b, b_mem, b_wide⟩ := utf8_wide (Nat.not_lt.mp ascii)
        obtain ⟨u, u_mem, u_wide⟩ := ofRune_wide (Nat.not_lt.mp ascii)
        exact .inr ⟨⟨b, List.mem_append_left _ b_mem, b_wide⟩, u,
          List.mem_append_left _ u_mem, u_wide⟩

end Ascii

end Utf16
