import DawnDock.Protocol.JsonParser

/-!
The parser's UTF-8: `append_code_point` writes characters (`appendCodePoint_eq`), and
`is_valid_utf8` accepts exactly the byte strings that encode characters
(`isValidUtf8_iff`). One turn of its loop takes one character off the front
(`utf8Next_sound`, `utf8Next_complete`).
-/

namespace DawnDock

open ByteCodec Utf8

theorem or_lead {base value : Nat} (i a : Nat) (aligned : base = 2 ^ i * a) (small : value < 2 ^ i) :
    base ||| value = base + value := by
  rw [aligned, Nat.two_pow_add_eq_or_of_lt small]

/-- Appending a code point writes its character in UTF-8. -/
theorem appendCodePoint_eq (out : Text) (c : Char) :
    appendCodePoint out c.toNat = out ++ String.utf8EncodeChar c := by
  have scalar := scalar_toNat c
  unfold Scalar at scalar
  suffices bytes : ∃ added, appendCodePoint out c.toNat = out ++ added ∧
      added.map UInt8.toNat = units c.toNat by
    obtain ⟨added, appended, same⟩ := bytes
    rw [appended, bytes_eq_iff.mpr (same.trans (map_toNat_encodeChar c).symm)]
  have six (v : Nat) : v &&& 0x3f = v % 64 := Nat.and_two_pow_sub_one_eq_mod v 6
  have continued (v : Nat) : 0x80 ||| (v &&& 0x3f) = 0x80 + v % 64 := by
    rw [six, or_lead 6 2 (by rfl) (by omega)]
  unfold appendCodePoint units
  simp only [Nat.shiftRight_eq_div_pow]
  by_cases one : c.toNat ≤ 0x7f
  · rw [if_pos (by omega), if_pos one]
    refine ⟨_, rfl, ?_⟩
    simp only [List.map_cons, List.map_nil, UInt8.toNat_ofNat', List.cons.injEq, and_true]
    omega
  rw [if_neg (by omega), if_neg one]
  by_cases two : c.toNat ≤ 0x7ff
  · rw [if_pos (by omega), if_pos two, or_lead 6 3 (by rfl) (by omega), continued]
    refine ⟨_, rfl, ?_⟩
    simp only [List.map_cons, List.map_nil, UInt8.toNat_ofNat', List.cons.injEq, and_true]
    omega
  rw [if_neg (by omega), if_neg two]
  by_cases three : c.toNat ≤ 0xffff
  · rw [if_pos (by omega), if_pos three, or_lead 5 7 (by rfl) (by omega), continued, continued]
    refine ⟨_, rfl, ?_⟩
    simp only [List.map_cons, List.map_nil, UInt8.toNat_ofNat', List.cons.injEq, and_true]
    omega
  rw [if_neg (by omega), if_neg three, or_lead 4 15 (by rfl) (by omega), continued, continued,
    continued]
  refine ⟨_, rfl, ?_⟩
  simp only [List.map_cons, List.map_nil, UInt8.toNat_ofNat', List.cons.injEq, and_true]
  omega

theorem utf8Lead_iff {b0 : UInt8} {extra bits : Nat} :
    utf8Lead b0 = some (extra, bits) ↔
      (extra = 1 ∧ 0xc2 ≤ b0.toNat ∧ b0.toNat ≤ 0xdf ∧ bits = b0.toNat - 0xc0) ∨
      (extra = 2 ∧ 0xe0 ≤ b0.toNat ∧ b0.toNat ≤ 0xef ∧ bits = b0.toNat - 0xe0) ∨
      (extra = 3 ∧ 0xf0 ≤ b0.toNat ∧ b0.toNat ≤ 0xf4 ∧ bits = b0.toNat - 0xf0) := by
  have five : b0.toNat &&& 0x1f = b0.toNat % 32 := Nat.and_two_pow_sub_one_eq_mod _ 5
  have four : b0.toNat &&& 0x0f = b0.toNat % 16 := Nat.and_two_pow_sub_one_eq_mod _ 4
  have three : b0.toNat &&& 0x07 = b0.toNat % 8 := Nat.and_two_pow_sub_one_eq_mod _ 3
  simp only [utf8Lead, five, four, three, Bool.and_eq_true, decide_eq_true_eq,
    UInt8.le_iff_toNat_le, UInt8.reduceToNat]
  split
  · simp only [Option.some.injEq, Prod.mk.injEq]
    omega
  split
  · simp only [Option.some.injEq, Prod.mk.injEq]
    omega
  split
  · simp only [Option.some.injEq, Prod.mk.injEq]
    omega
  · simp only [reduceCtorEq, false_iff]
    omega

/-- A continuation byte, as a number. -/
def Continues (unit : Nat) : Prop := 0x80 ≤ unit ∧ unit ≤ 0xbf

theorem utf8Continuation_succ {cp extra : Nat} {text : Bytes} {result : Nat × Bytes} :
    utf8Continuation cp (extra + 1) text = some result ↔
      ∃ b rest, text = b :: rest ∧ Continues b.toNat ∧
        utf8Continuation (cp * 64 + (b.toNat - 0x80)) extra rest = some result := by
  cases text with
  | nil => simp [utf8Continuation]
  | cons b rest =>
      have six : b.toNat &&& 0x3f = b.toNat % 64 := Nat.and_two_pow_sub_one_eq_mod _ 6
      have joined : cp <<< 6 ||| b.toNat % 64 = cp * 64 + b.toNat % 64 := by
        rw [← Nat.shiftLeft_add_eq_or_of_lt (i := 6) (by omega), Nat.shiftLeft_eq]
      simp only [utf8Continuation, six, joined, Bool.or_eq_true, decide_eq_true_eq,
        UInt8.lt_iff_toNat_lt, UInt8.reduceToNat, gt_iff_lt]
      split
      · rename_i outside
        simp only [reduceCtorEq, false_iff]
        rintro ⟨_, _, ⟨rfl, rfl⟩, ⟨low, high⟩, -⟩
        omega
      · rename_i inside
        have value : b.toNat % 64 = b.toNat - 0x80 := by omega
        rw [value]
        constructor
        · intro h
          exact ⟨b, rest, rfl, ⟨by omega, by omega⟩, h⟩
        · rintro ⟨_, _, ⟨rfl, rfl⟩, -, h⟩
          exact h

theorem utf8Continuation_zero {cp : Nat} {text : Bytes} {result : Nat × Bytes} :
    utf8Continuation cp 0 text = some result ↔ result = (cp, text) := by
  rw [utf8Continuation, Option.some.injEq, eq_comm]

/-- What the bytes of a longer sequence must be; `Continues` bounds the others. -/
theorem units_longer {value : Nat} (large : 0x7f < value) :
    ∃ b0 tail, units value = b0 :: tail ∧ 0xc2 ≤ b0 ∧ ∀ unit ∈ tail, Continues unit := by
  unfold units Continues
  rw [if_neg (by omega)]
  by_cases two : value ≤ 0x7ff
  · rw [if_pos two]
    refine ⟨_, _, rfl, by omega, ?_⟩
    simp only [List.mem_singleton, forall_eq]
    omega
  rw [if_neg two]
  by_cases three : value ≤ 0xffff
  · rw [if_pos three]
    refine ⟨_, _, rfl, by omega, ?_⟩
    simp only [List.mem_cons, List.not_mem_nil, or_false, forall_eq_or_imp, forall_eq]
    omega
  rw [if_neg three]
  refine ⟨_, _, rfl, by omega, ?_⟩
  simp only [List.mem_cons, List.not_mem_nil, or_false, forall_eq_or_imp, forall_eq]
  omega

theorem utf8Next_sound {b0 : UInt8} {rest after : Bytes} (h : utf8Next b0 rest = some after) :
    ∃ c : Char, String.utf8EncodeChar c ++ after = b0 :: rest := by
  suffices found : ∃ value bytes, Scalar value ∧ bytes ++ after = b0 :: rest ∧
      bytes.map UInt8.toNat = units value by
    obtain ⟨value, bytes, scalar, split_eq, same⟩ := found
    obtain ⟨c, rfl⟩ := exists_char scalar
    exact ⟨c, by rw [← split_eq, bytes_eq_iff.mpr ((map_toNat_encodeChar c).trans same.symm)]⟩
  unfold utf8Next at h
  split at h
  · rename_i ascii
    have ascii : b0.toNat < 0x80 := UInt8.lt_iff_toNat_lt.mp ascii
    cases h
    refine ⟨b0.toNat, [b0], .inl (by omega), rfl, ?_⟩
    rw [units, if_pos (by omega)]
    rfl
  split at h
  · cases h
  rename_i extra bits lead
  split at h
  · cases h
  rename_i cp tail continued
  simp only [Bool.and_eq_true, beq_iff_eq, decide_eq_true_eq] at h
  split at h
  · cases h
  rename_i short2
  split at h
  · cases h
  rename_i short3
  split at h
  · cases h
  rename_i bound
  split at h
  · cases h
  rename_i surrogate
  cases h
  have scalar : Scalar cp := by
    unfold Scalar
    omega
  rcases utf8Lead_iff.mp lead with ⟨length, low, high, bits_eq⟩ | ⟨length, low, high, bits_eq⟩ |
    ⟨length, low, high, bits_eq⟩
  all_goals rw [length] at continued short2 short3
  · obtain ⟨b1, _, rfl, ⟨low1, high1⟩, last⟩ := utf8Continuation_succ.mp continued
    obtain ⟨value, rfl⟩ := Prod.mk.inj (utf8Continuation_zero.mp last)
    refine ⟨_, [b0, b1], scalar, rfl, ?_⟩
    rw [units, if_neg (by omega), if_pos (by omega)]
    simp only [List.map_cons, List.map_nil, List.cons.injEq, and_true]
    omega
  · obtain ⟨b1, _, rfl, ⟨low1, high1⟩, continued⟩ := utf8Continuation_succ.mp continued
    obtain ⟨b2, _, rfl, ⟨low2, high2⟩, last⟩ := utf8Continuation_succ.mp continued
    obtain ⟨value, rfl⟩ := Prod.mk.inj (utf8Continuation_zero.mp last)
    refine ⟨_, [b0, b1, b2], scalar, rfl, ?_⟩
    rw [units, if_neg (by omega), if_neg (by omega), if_pos (by omega)]
    simp only [List.map_cons, List.map_nil, List.cons.injEq, and_true]
    omega
  · obtain ⟨b1, _, rfl, ⟨low1, high1⟩, continued⟩ := utf8Continuation_succ.mp continued
    obtain ⟨b2, _, rfl, ⟨low2, high2⟩, continued⟩ := utf8Continuation_succ.mp continued
    obtain ⟨b3, _, rfl, ⟨low3, high3⟩, last⟩ := utf8Continuation_succ.mp continued
    obtain ⟨value, rfl⟩ := Prod.mk.inj (utf8Continuation_zero.mp last)
    refine ⟨_, [b0, b1, b2, b3], scalar, rfl, ?_⟩
    rw [units, if_neg (by omega), if_neg (by omega), if_neg (by omega)]
    simp only [List.map_cons, List.map_nil, List.cons.injEq, and_true]
    omega

/-- The bytes of a character, taken from the front of a text. -/
theorem of_encodeChar_append {c : Char} {b0 : UInt8} {rest after : Bytes}
    (same : String.utf8EncodeChar c ++ after = b0 :: rest) :
    units c.toNat ++ after.map UInt8.toNat = b0.toNat :: rest.map UInt8.toNat := by
  have := congrArg (List.map UInt8.toNat) same
  rwa [List.map_append, map_toNat_encodeChar, List.map_cons] at this

/-- A longer sequence that passes every check. -/
theorem utf8Next_longer {b0 : UInt8} {rest after : Bytes} {extra bits cp : Nat}
    (lead : utf8Lead b0 = some (extra, bits))
    (continued : utf8Continuation bits extra rest = some (cp, after))
    (long : 0x80 ≤ b0.toNat) (short2 : extra = 2 → 0x800 ≤ cp) (short3 : extra = 3 → 0x10000 ≤ cp)
    (scalar : Scalar cp) : utf8Next b0 rest = some after := by
  unfold Scalar at scalar
  have not_ascii : ¬ b0 < 0x80 := fun ascii => by
    have : b0.toNat < 0x80 := UInt8.lt_iff_toNat_lt.mp ascii
    omega
  unfold utf8Next
  rw [if_neg not_ascii, lead]
  simp only [continued, Bool.and_eq_true, beq_iff_eq, decide_eq_true_eq]
  rw [if_neg fun h => by have := short2 h.1; omega, if_neg fun h => by have := short3 h.1; omega,
    if_neg (by omega), if_neg (by omega)]

theorem utf8Next_complete {c : Char} {b0 : UInt8} {rest after : Bytes}
    (same : String.utf8EncodeChar c ++ after = b0 :: rest) : utf8Next b0 rest = some after := by
  have scalar := scalar_toNat c
  have bound := scalar
  unfold Scalar at bound
  have numbers := of_encodeChar_append same
  unfold units at numbers
  have next {bytes : Bytes} {unit : Nat} {units : List Nat}
      (h : unit :: (units ++ after.map UInt8.toNat) = bytes.map UInt8.toNat) :
      ∃ b rest, bytes = b :: rest ∧ b.toNat = unit ∧
        units ++ after.map UInt8.toNat = rest.map UInt8.toNat := by
    obtain ⟨b, rest, rfl, value, tail⟩ := List.map_eq_cons_iff.mp h.symm
    exact ⟨b, rest, rfl, value, tail.symm⟩
  by_cases one : c.toNat ≤ 0x7f
  · rw [if_pos one] at numbers
    obtain ⟨value, tail⟩ := List.cons.inj numbers
    have ascii : b0 < 0x80 := UInt8.lt_iff_toNat_lt.mpr (show b0.toNat < 0x80 by omega)
    rw [utf8Next, if_pos ascii, bytes_eq_iff.mpr tail]
  rw [if_neg one] at numbers
  by_cases two : c.toNat ≤ 0x7ff
  · rw [if_pos two] at numbers
    obtain ⟨value, tail⟩ := List.cons.inj numbers
    obtain ⟨b1, _, rfl, value1, tail⟩ := next tail
    refine utf8Next_longer (utf8Lead_iff.mpr (.inl ⟨rfl, by omega, by omega, rfl⟩))
      (utf8Continuation_succ.mpr ⟨b1, _, rfl, ⟨by omega, by omega⟩, ?_⟩) (by omega) nofun nofun
      scalar
    rw [utf8Continuation_zero, bytes_eq_iff.mpr tail]
    exact congrArg (·, _) (by omega)
  rw [if_neg two] at numbers
  by_cases three : c.toNat ≤ 0xffff
  · rw [if_pos three] at numbers
    obtain ⟨value, tail⟩ := List.cons.inj numbers
    obtain ⟨b1, _, rfl, value1, tail⟩ := next tail
    obtain ⟨b2, _, rfl, value2, tail⟩ := next tail
    refine utf8Next_longer (utf8Lead_iff.mpr (.inr (.inl ⟨rfl, by omega, by omega, rfl⟩)))
      (utf8Continuation_succ.mpr ⟨b1, _, rfl, ⟨by omega, by omega⟩,
        utf8Continuation_succ.mpr ⟨b2, _, rfl, ⟨by omega, by omega⟩, ?_⟩⟩)
      (by omega) (fun _ => by omega) nofun scalar
    rw [utf8Continuation_zero, bytes_eq_iff.mpr tail]
    exact congrArg (·, _) (by omega)
  rw [if_neg three] at numbers
  obtain ⟨value, tail⟩ := List.cons.inj numbers
  obtain ⟨b1, _, rfl, value1, tail⟩ := next tail
  obtain ⟨b2, _, rfl, value2, tail⟩ := next tail
  obtain ⟨b3, _, rfl, value3, tail⟩ := next tail
  refine utf8Next_longer (utf8Lead_iff.mpr (.inr (.inr ⟨rfl, by omega, by omega, rfl⟩)))
    (utf8Continuation_succ.mpr ⟨b1, _, rfl, ⟨by omega, by omega⟩,
      utf8Continuation_succ.mpr ⟨b2, _, rfl, ⟨by omega, by omega⟩,
        utf8Continuation_succ.mpr ⟨b3, _, rfl, ⟨by omega, by omega⟩, ?_⟩⟩⟩)
    (by omega) nofun (fun _ => by omega) scalar
  rw [utf8Continuation_zero, bytes_eq_iff.mpr tail]
  exact congrArg (·, _) (by omega)

theorem utf8Loop_iff {turns : Nat} {text : Bytes} (enough : text.length ≤ turns) :
    utf8Loop turns text = true ↔ ∃ chars, text = encode chars := by
  induction turns generalizing text with
  | zero =>
      obtain rfl := List.length_eq_zero_iff.mp (Nat.le_zero.mp enough)
      exact ⟨fun _ => ⟨[], rfl⟩, fun _ => rfl⟩
  | succ turns ih =>
      cases text with
      | nil => exact ⟨fun _ => ⟨[], rfl⟩, fun _ => rfl⟩
      | cons b0 rest =>
          have shorter {c : Char} {after : Bytes}
              (same : String.utf8EncodeChar c ++ after = b0 :: rest) : after.length ≤ turns := by
            have lengths := congrArg List.length same
            have := Char.utf8Size_pos c
            simp only [List.length_append, String.length_utf8EncodeChar, List.length_cons]
              at lengths enough
            omega
          unfold utf8Loop
          cases next : utf8Next b0 rest with
          | none =>
              simp only [Bool.false_eq_true, false_iff, not_exists]
              rintro (_ | ⟨c, chars⟩) same
              · cases same
              · exact absurd (next.symm.trans (utf8Next_complete same.symm)) (by simp)
          | some after =>
              obtain ⟨c, same⟩ := utf8Next_sound next
              refine (ih (shorter same)).trans ⟨?_, ?_⟩
              · rintro ⟨chars, rfl⟩
                exact ⟨c :: chars, same.symm⟩
              · rintro ⟨_ | ⟨d, chars⟩, whole⟩
                · cases whole
                · obtain ⟨-, tail⟩ := encodeChar_append_inj (same.trans whole)
                  exact ⟨chars, tail⟩

/-- The check accepts exactly the texts that encode characters. -/
theorem isValidUtf8_iff {text : Bytes} : isValidUtf8 text = true ↔ ∃ chars, text = encode chars :=
  utf8Loop_iff (Nat.le_refl _)

end DawnDock
