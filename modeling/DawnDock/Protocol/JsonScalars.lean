import DawnDock.Library.Collect
import DawnDock.Protocol.JsonTokens

/-!
Strings and numbers of the parser. `parseRawString_iff` and `parseNumber_sound`,
`parseNumber_complete` read the grammar's tokens; `Settled` says that a loop has not
used up its turns.
-/

namespace DawnDock

open ByteCodec Utf8
open Collect (of_bind_eq_ok)

/-- Not out of turns: a failure is one the source reports. -/
def Settled {α : Type} (outcome : Parse α) : Prop := ∀ e, outcome = .error e → e.code ≠ .ok

section Settled

variable {α β : Type} {path : Text}

theorem settled_ok (a : α) : Settled (.ok a : Parse α) := fun _ h => nomatch h

theorem settled_fail {code : JsonParseCode} (reported : code ≠ .ok) :
    Settled (fail code path : Parse α) := by
  rintro _ ⟨⟩
  exact reported

theorem settled_invalid : Settled (invalid path : Parse α) := settled_fail (by decide)

/-- Nothing that follows an outcome unsettles it. -/
theorem settled_bind {first : Parse α} {next : α → Parse β} (settled : Settled first)
    (then_settled : ∀ a, first = .ok a → Settled (next a)) : Settled (first >>= next) := by
  cases first with
  | error e =>
      rintro _ ⟨⟩
      exact settled e rfl
  | ok a => exact then_settled a rfl

end Settled

theorem bind_ok {α β : Type} {first : Parse α} {next : α → Parse β} {a : α} (h : first = .ok a) :
    first >>= next = next a := by
  rw [h]
  rfl

/-! ### Strings -/

section Strings

variable {path out s : Text} {text rest : Bytes}

/-- An escape is read as the character that the grammar reads, within the limit. -/
theorem parseEscape_ok {decoded : Text} :
    parseEscape path out text = .ok (decoded, rest) ↔
      (∃ c, Json.Character (0x5c :: text) c rest ∧ decoded = out ++ String.utf8EncodeChar c) ∧
        decoded.length ≤ kJsonMaximumStringBytes := by
  rw [← escaped_iff]
  unfold parseEscape
  cases read : escaped out text with
  | none => simp [invalid, fail]
  | some result =>
      obtain ⟨found, after⟩ := result
      simp only
      split
      · rename_i long
        simp only [fail, reduceCtorEq, Option.some.injEq, Prod.mk.injEq, false_iff, not_and]
        rintro ⟨rfl, -⟩
        omega
      · rename_i short
        simp only [Except.ok.injEq, Option.some.injEq, Prod.mk.injEq]
        exact ⟨fun same => ⟨same, by rw [← same.1]; omega⟩, And.left⟩

theorem settled_parseEscape : Settled (parseEscape path out text) := by
  unfold parseEscape
  split
  · exact settled_invalid
  split
  · exact settled_fail (by decide)
  · exact settled_ok _

/-- The turns of the loop on a text that does not close the string at once. -/
theorem rawStringLoop_cons {turns : Nat} {c : UInt8} (not_quote : ¬ c = 0x22) :
    rawStringLoop path (turns + 1) out (c :: text) =
      if c = 0x5c then
        parseEscape path out text >>= fun found => rawStringLoop path turns found.1 found.2
      else if c < 0x20 then invalid path
      else if (out ++ [c]).length > kJsonMaximumStringBytes then fail .stringLimit path
      else rawStringLoop path turns (out ++ [c]) text := by
  rw [rawStringLoop]
  simp only [beq_iff_eq]
  rw [if_neg not_quote]

theorem rawStringLoop_close {turns : Nat} :
    rawStringLoop path (turns + 1) out (0x22 :: rest) =
      if isValidUtf8 out then .ok (out, rest) else invalid path := by
  rw [rawStringLoop]
  exact if_pos (beq_self_eq_true _)

/-- What stands for itself in a string. -/
theorem plain_iff {c : UInt8} : Plain c ↔ ¬ c = 0x22 ∧ ¬ c = 0x5c ∧ ¬ c < 0x20 := by
  have visible : ¬ c < 0x20 ↔ 0x20 ≤ c.toNat := by
    rw [UInt8.not_lt, UInt8.le_iff_toNat_le]
    rfl
  rw [visible]
  exact Iff.rfl

/-- By induction on the turns: what the loop has read is raw text, and valid. -/
theorem rawStringLoop_sound {turns : Nat}
    (h : rawStringLoop path turns out text = .ok (s, rest)) :
    ∃ decoded, s = out ++ decoded ∧ Raw text decoded rest ∧ isValidUtf8 s = true ∧
      (out.length ≤ kJsonMaximumStringBytes → s.length ≤ kJsonMaximumStringBytes) := by
  induction turns generalizing out text with
  | zero => cases h
  | succ turns ih =>
      cases text with
      | nil => cases h
      | cons c text =>
          by_cases quote : c = 0x22
          · subst quote
            rw [rawStringLoop_close] at h
            split at h
            · rename_i valid
              cases h
              exact ⟨[], (List.append_nil _).symm, .close, valid, id⟩
            · cases h
          rw [rawStringLoop_cons quote] at h
          split at h
          · rename_i backslash
            subst backslash
            obtain ⟨⟨found, middle⟩, read, h⟩ := of_bind_eq_ok h
            obtain ⟨⟨d, character, rfl⟩, short⟩ := parseEscape_ok.mp read
            obtain ⟨decoded, rfl, raw, valid, fits⟩ := ih h
            exact ⟨_, List.append_assoc .., .escape character raw, valid, fun _ => fits short⟩
          rename_i not_backslash
          split at h
          · cases h
          rename_i visible
          split at h
          · cases h
          rename_i short
          obtain ⟨decoded, rfl, raw, valid, fits⟩ := ih h
          exact ⟨c :: decoded, List.append_assoc .., .copy (plain_iff.mpr
            ⟨quote, not_backslash, visible⟩) raw, valid, fun _ => fits (Nat.not_lt.mp short)⟩

/-- By induction on the raw text; a turn for each byte is enough. -/
theorem rawStringLoop_complete {turns : Nat} {decoded : Text} (raw : Raw text decoded rest)
    (valid : isValidUtf8 (out ++ decoded) = true)
    (short : (out ++ decoded).length ≤ kJsonMaximumStringBytes) (enough : text.length < turns) :
    rawStringLoop path turns out text = .ok (out ++ decoded, rest) := by
  induction raw generalizing out turns with
  | close =>
      obtain ⟨turns, rfl⟩ := Nat.exists_eq_add_one_of_ne_zero (Nat.ne_zero_of_lt enough)
      rw [List.append_nil] at valid ⊢
      rw [rawStringLoop_close, if_pos valid]
  | @copy c text _ decoded plain raw ih =>
      obtain ⟨turns, rfl⟩ := Nat.exists_eq_add_one_of_ne_zero (Nat.ne_zero_of_lt enough)
      obtain ⟨not_quote, not_backslash, visible⟩ := plain_iff.mp plain
      have split_out : out ++ c :: decoded = out ++ [c] ++ decoded := by simp
      rw [split_out] at valid short ⊢
      have prefix_short : ¬ (out ++ [c]).length > kJsonMaximumStringBytes := by
        rw [List.length_append] at short
        omega
      rw [rawStringLoop_cons not_quote, if_neg not_backslash, if_neg visible, if_neg prefix_short]
      exact ih valid short (Nat.lt_of_succ_lt_succ enough)
  | @escape text middle _ c decoded character raw ih =>
      obtain ⟨turns, rfl⟩ := Nat.exists_eq_add_one_of_ne_zero (Nat.ne_zero_of_lt enough)
      rw [← List.append_assoc] at valid short ⊢
      have read : parseEscape path out text = .ok (out ++ String.utf8EncodeChar c, middle) := by
        refine parseEscape_ok.mpr ⟨⟨c, character, rfl⟩, ?_⟩
        rw [List.length_append] at short
        omega
      rw [rawStringLoop_cons (by decide), if_pos rfl, bind_ok read]
      refine ih valid short ?_
      have := length_of_character character
      simp only [List.length_cons] at this enough
      omega

/-- With a turn for each byte the loop does not run out. -/
theorem settled_rawStringLoop {turns : Nat} (enough : text.length < turns) :
    Settled (rawStringLoop path turns out text) := by
  induction turns generalizing out text with
  | zero => exact absurd enough (Nat.not_lt_zero _)
  | succ turns ih =>
      cases text with
      | nil => exact settled_invalid
      | cons c text =>
          rw [List.length_cons] at enough
          by_cases quote : c = 0x22
          · subst quote
            rw [rawStringLoop_close]
            split
            · exact settled_ok _
            · exact settled_invalid
          rw [rawStringLoop_cons quote]
          split
          · refine settled_bind settled_parseEscape fun found read => ih ?_
            obtain ⟨⟨_, character, _⟩, _⟩ := parseEscape_ok.mp read
            have := length_of_character character
            rw [List.length_cons] at this
            omega
          split
          · exact settled_invalid
          split
          · exact settled_fail (by decide)
          · exact ih (by omega)

/-- Behind an opening quotation mark the parser reads the grammar's characters, if
their encoding is short enough. -/
theorem parseRawString_iff :
    parseRawString path text = .ok (s, rest) ↔
      ∃ chars, s = encode chars ∧ Json.Characters text chars rest ∧
        s.length ≤ kJsonMaximumStringBytes := by
  constructor
  · intro h
    obtain ⟨decoded, rfl, raw, valid, short⟩ := rawStringLoop_sound h
    obtain ⟨chars, same⟩ := isValidUtf8_iff.mp valid
    subst same
    exact ⟨chars, rfl, raw_iff_characters.mp raw, short (Nat.zero_le _)⟩
  · rintro ⟨chars, rfl, characters, short⟩
    exact rawStringLoop_complete (raw_iff_characters.mpr characters)
      (isValidUtf8_iff.mpr ⟨chars, rfl⟩) short (Nat.lt_succ_self _)

theorem settled_parseRawString : Settled (parseRawString path text) :=
  settled_rawStringLoop (Nat.lt_succ_self _)

/-- A string takes at least its closing quote. -/
theorem length_of_characters {chars : List Char} (characters : Json.Characters text chars rest) :
    rest.length < text.length := length_of_raw (raw_iff_characters.mpr characters)

end Strings

/-! ### Numbers -/

/-- What must not follow a number: the parser would read on, or refuse it as a fraction
or an exponent. -/
def Stops (rest : Bytes) : Prop :=
  ∀ c ∈ rest.head?, isDigit c = false ∧ c ≠ 0x2e ∧ c ≠ 0x65 ∧ c ≠ 0x45

/-- The integer fits in 64 bits. -/
def FitsInt64 (value : Int) : Prop := -2 ^ 63 ≤ value ∧ value < 2 ^ 63

section Numbers

variable {path : Text} {text rest : Bytes} {negative : Bool}

theorem isDigit_iff {c : UInt8} : isDigit c = true ↔ ∃ digit, Json.Digit c digit := by
  simp only [isDigit, Json.Digit, Bool.and_eq_true, decide_eq_true_eq, UInt8.le_iff_toNat_le,
    UInt8.reduceToNat]
  constructor
  · intro h
    exact ⟨c.toNat - 0x30, by omega, by omega⟩
  · rintro ⟨digit, value, small⟩
    omega

theorem digit_sub {c : UInt8} {digit : Nat} (h : Json.Digit c digit) : c.toNat - 0x30 = digit := by
  obtain ⟨value, _⟩ := h
  omega

/-- The digits of `text` read behind the number `before`. -/
def readDigits (before : Nat) (digits : Bytes) : Nat :=
  digits.foldl (fun value c => 10 * value + (c.toNat - 0x30)) before

/-- The grammar reads the longest run of digits. -/
theorem digits_span (before : Nat) (text : Bytes) :
    Json.Digits before text (readDigits before (text.takeWhile isDigit))
      (text.dropWhile isDigit) := by
  induction text generalizing before with
  | nil => exact .done
  | cons c text ih =>
      by_cases digit : isDigit c = true
      · obtain ⟨value, is⟩ := isDigit_iff.mp digit
        rw [List.takeWhile_cons_of_pos digit, List.dropWhile_cons_of_pos digit]
        refine .more is ?_
        rw [readDigits, List.foldl_cons, digit_sub is]
        exact ih _
      · rw [List.takeWhile_cons_of_neg digit, List.dropWhile_cons_of_neg digit]
        exact .done

/-- The grammar reads the digits in one way, if none follows. -/
theorem digits_unique {before value : Nat} (digits : Json.Digits before text value rest)
    (stops : Stops rest) :
    value = readDigits before (text.takeWhile isDigit) ∧ rest = text.dropWhile isDigit := by
  induction digits with
  | @done _ rest =>
      cases rest with
      | nil => exact ⟨rfl, rfl⟩
      | cons c rest =>
          have stop := Bool.eq_false_iff.mp (stops c rfl).1
          rw [List.takeWhile_cons_of_neg stop, List.dropWhile_cons_of_neg stop]
          exact ⟨rfl, rfl⟩
  | more is _ ih =>
      have digit := isDigit_iff.mpr ⟨_, is⟩
      rw [List.takeWhile_cons_of_pos digit, List.dropWhile_cons_of_pos digit, readDigits,
        List.foldl_cons, digit_sub is]
      exact ih stops

/-- The signed value of a magnitude. -/
def signed (negative : Bool) (magnitude : Nat) : Int := if negative then -magnitude else magnitude

/-- A number that is returned fits 64 bits, and is not wrapped. -/
theorem finishNumber_sound {digits after : Bytes} {n : Int64}
    (h : finishNumber path negative digits after = .ok (n, rest)) :
    rest = after ∧ FitsInt64 (signed negative (readDigits 0 digits)) ∧
      n = Int64.ofInt (signed negative (readDigits 0 digits)) := by
  unfold finishNumber fromChars at h
  split at h
  · cases h
  split at h
  · cases h
  rename_i found
  cases h
  obtain ⟨fits, same⟩ := Option.ite_none_right_eq_some.mp found
  exact ⟨rfl, fits, (Option.some.inj same).symm⟩

theorem finishNumber_complete {digits : Bytes} (stops : Stops rest)
    (fits : FitsInt64 (signed negative (readDigits 0 digits))) :
    finishNumber path negative digits rest =
      .ok (Int64.ofInt (signed negative (readDigits 0 digits)), rest) := by
  have plain : ¬ (rest.head?.any fun c => c == 0x2e || c == 0x65 || c == 0x45) = true := by
    simp only [Option.any_eq_true, Bool.or_eq_true, beq_iff_eq, not_exists, not_and]
    intro c mem is
    obtain ⟨-, point, lower, upper⟩ := stops c mem
    obtain (is | is) | is := is
    · exact point is
    · exact lower is
    · exact upper is
  have read : fromChars negative digits =
      some (Int64.ofInt (signed negative (readDigits 0 digits))) := if_pos fits
  rw [finishNumber, if_neg plain, read]

/-- The digits that are read are a natural number of the grammar. -/
theorem parseDigits_sound {n : Int64} (h : parseDigits path negative text = .ok (n, rest)) :
    ∃ magnitude, Json.Natural text magnitude rest ∧ FitsInt64 (signed negative magnitude) ∧
      n = Int64.ofInt (signed negative magnitude) := by
  cases text with
  | nil => cases h
  | cons c text =>
      rw [parseDigits] at h
      by_cases digit : isDigit c = true
      · rw [if_neg (by simp [digit])] at h
        by_cases zero : c = 0x30
        · subst zero
          rw [if_pos (beq_self_eq_true _)] at h
          split at h
          · cases h
          obtain ⟨rfl, fits, same⟩ := finishNumber_sound h
          exact ⟨0, .zero, fits, same⟩
        · rw [if_neg (by simpa using zero)] at h
          obtain ⟨value, is⟩ := isDigit_iff.mp digit
          obtain ⟨rfl, fits, same⟩ := finishNumber_sound h
          have magnitude : readDigits 0 (c :: text.takeWhile isDigit) =
              readDigits value (text.takeWhile isDigit) := by
            rw [readDigits, List.foldl_cons, digit_sub is, Nat.mul_zero, Nat.zero_add, readDigits]
          rw [magnitude] at fits same
          refine ⟨_, .positive is ?_ (digits_span value text), fits, same⟩
          rintro rfl
          exact zero (UInt8.toNat_inj.mp is.1)
      · rw [if_pos (by simpa using digit)] at h
        cases h

theorem parseDigits_complete {magnitude : Nat} (natural : Json.Natural text magnitude rest)
    (stops : Stops rest) (fits : FitsInt64 (signed negative magnitude)) :
    parseDigits path negative text = .ok (Int64.ofInt (signed negative magnitude), rest) := by
  cases natural with
  | zero =>
      have no_digit : ¬ rest.head?.any isDigit = true := by
        simp only [Option.any_eq_true, not_exists, not_and, Bool.not_eq_true]
        exact fun c mem => (stops c mem).1
      rw [parseDigits, if_neg (by decide), if_pos (by decide), if_neg no_digit]
      exact finishNumber_complete stops fits
  | @positive c digit _ text _ is nonzero digits =>
      obtain ⟨rfl, rfl⟩ := digits_unique digits stops
      have not_zero : ¬ (c == 0x30) = true := fun zero => by
        obtain rfl := beq_iff_eq.mp zero
        have : 0x30 = 0x30 + digit := is.1
        omega
      have magnitude : readDigits digit (text.takeWhile isDigit) =
          readDigits 0 (c :: text.takeWhile isDigit) := by
        rw [readDigits, readDigits, List.foldl_cons, digit_sub is, Nat.mul_zero, Nat.zero_add]
      rw [magnitude] at fits ⊢
      rw [parseDigits, if_neg (by simp [isDigit_iff.mpr ⟨digit, is⟩]), if_neg not_zero]
      exact finishNumber_complete stops fits

/-- The sign and the digits. -/
theorem parseNumber_sound {n : Int64} (h : parseNumber path text = .ok (n, rest)) :
    ∃ value, Json.Number text value rest ∧ FitsInt64 value ∧ n = Int64.ofInt value := by
  unfold parseNumber at h
  split at h
  · rename_i minus
    obtain ⟨magnitude, natural, fits, same⟩ := parseDigits_sound h
    cases text with
    | nil => cases minus
    | cons c text =>
        cases minus
        exact ⟨_, .minus natural, fits, same⟩
  · obtain ⟨magnitude, natural, fits, same⟩ := parseDigits_sound h
    exact ⟨_, .natural natural, fits, same⟩

/-- A natural number begins with a digit. -/
theorem natural_head {magnitude : Nat} (natural : Json.Natural text magnitude rest) :
    ∃ c more, text = c :: more ∧ 0x30 ≤ c.toNat ∧ c.toNat ≤ 0x39 := by
  cases natural with
  | zero => exact ⟨_, _, rfl, by decide, by decide⟩
  | positive is =>
      obtain ⟨value, small⟩ := is
      exact ⟨_, _, rfl, by omega, by omega⟩

theorem parseNumber_complete {value : Int} (number : Json.Number text value rest)
    (stops : Stops rest) (fits : FitsInt64 value) :
    parseNumber path text = .ok (Int64.ofInt value, rest) := by
  cases number with
  | natural natural =>
      obtain ⟨c, more, rfl, low, high⟩ := natural_head natural
      have unsigned : ¬ (c :: more).head? = some 0x2d := by
        rintro ⟨⟩
        exact absurd low (by decide)
      rw [parseNumber, if_neg unsigned]
      exact parseDigits_complete natural stops fits
  | minus natural =>
      rw [parseNumber, if_pos List.head?_cons]
      exact parseDigits_complete natural stops fits

theorem settled_finishNumber {digits : Bytes} : Settled (finishNumber path negative digits rest) := by
  unfold finishNumber
  split
  · exact settled_fail (by decide)
  split
  · exact settled_fail (by decide)
  · exact settled_ok _

theorem settled_parseDigits : Settled (parseDigits path negative text) := by
  cases text with
  | nil => exact settled_invalid
  | cons c text =>
      rw [parseDigits]
      split
      · exact settled_invalid
      split
      · split
        · exact settled_invalid
        · exact settled_finishNumber
      · exact settled_finishNumber

theorem settled_parseNumber : Settled (parseNumber path text) := by
  unfold parseNumber
  split
  · exact settled_parseDigits
  · exact settled_parseDigits

theorem length_of_digits {before value : Nat} (digits : Json.Digits before text value rest) :
    rest.length ≤ text.length := by
  induction digits with
  | done => exact Nat.le_refl _
  | more _ _ ih => exact ih.trans (Nat.le_succ _)

theorem length_of_natural {magnitude : Nat} (natural : Json.Natural text magnitude rest) :
    rest.length < text.length := by
  cases natural with
  | zero => exact Nat.lt_succ_self _
  | positive _ _ digits => exact Nat.lt_succ_of_le (length_of_digits digits)

/-- A number takes at least one byte. -/
theorem length_of_number {value : Int} (number : Json.Number text value rest) :
    rest.length < text.length := by
  cases number with
  | natural natural => exact length_of_natural natural
  | minus natural => exact (length_of_natural natural).trans (Nat.lt_succ_self _)

end Numbers

end DawnDock
