import DawnDock.Protocol.Utf8

/-!
The tokens of the parser are those of the grammar: white space, escapes, strings and
integers. A string is checked in two steps: the scanner copies bytes and decodes
escapes (`Raw`), and the result is checked as UTF-8 as a whole; `raw_iff_characters`
says that this accepts the grammar's characters and decodes them.
-/

namespace DawnDock

open ByteCodec Utf8

/-! ### White space -/

theorem isSpace_iff {c : UInt8} : isSpace c = true ↔ Json.IsSpace c := by
  simp only [isSpace, Json.IsSpace, Bool.or_eq_true, beq_iff_eq, or_assoc]

theorem ws_skipWs (text : Bytes) : Json.Ws text (skipWs text) := by
  induction text with
  | nil => exact .done
  | cons c rest ih =>
      by_cases space : isSpace c = true
      · rw [skipWs, List.dropWhile_cons_of_pos space]
        exact .skip (isSpace_iff.mp space) ih
      · rw [skipWs, List.dropWhile_cons_of_neg space]
        exact .done

/-- The text does not start with white space. -/
def Solid (text : Bytes) : Prop := ∀ c ∈ text.head?, ¬ Json.IsSpace c

theorem solid_nil : Solid [] := fun _ mem => nomatch mem

theorem solid_cons {c : UInt8} {rest : Bytes} (h : ¬ Json.IsSpace c) : Solid (c :: rest) := by
  rintro _ ⟨⟩
  exact h

/-- Skipping takes all the white space there is. -/
theorem skipWs_of_ws {text rest : Bytes} (ws : Json.Ws text rest) (solid : Solid rest) :
    skipWs text = rest := by
  induction ws with
  | @done rest =>
      cases rest with
      | nil => rfl
      | cons c rest =>
          exact List.dropWhile_cons_of_neg fun space => solid c rfl (isSpace_iff.mp space)
  | skip space _ ih =>
      rw [skipWs, List.dropWhile_cons_of_pos (isSpace_iff.mpr space)]
      exact ih solid

theorem length_le_of_ws {text rest : Bytes} (ws : Json.Ws text rest) :
    rest.length ≤ text.length := by
  induction ws with
  | done => exact Nat.le_refl _
  | skip _ _ ih => exact ih.trans (Nat.le_succ _)

/-! ### Escapes -/

theorem hexDigit_iff {c : UInt8} {digit : Nat} :
    hexDigit c = some digit ↔ Json.HexDigit c digit := by
  have low : c.toNat < 256 := c.toNat_lt
  simp only [hexDigit, Json.HexDigit, Bool.and_eq_true, decide_eq_true_eq,
    UInt8.le_iff_toNat_le, UInt8.reduceToNat]
  split
  · simp only [Option.some.injEq]
    omega
  split
  · simp only [Option.some.injEq]
    omega
  split
  · simp only [Option.some.injEq]
    omega
  · simp only [reduceCtorEq, false_iff]
    omega

theorem hexDigit_lt {c : UInt8} {digit : Nat} (h : Json.HexDigit c digit) : digit < 16 := by
  rcases h with h | h | h
  · omega
  · omega
  · omega

theorem shift_hex {value digit : Nat} (small : digit < 16) :
    value <<< 4 ||| digit = value * 16 + digit := by
  rw [← Nat.shiftLeft_add_eq_or_of_lt (i := 4) small, Nat.shiftLeft_eq]

theorem hex4_iff {text rest : Bytes} {value : Nat} :
    hex4 text = some (value, rest) ↔ Json.Hex4 text value rest := by
  constructor
  · intro h
    obtain _ | ⟨a, _ | ⟨b, _ | ⟨c, _ | ⟨d, more⟩⟩⟩⟩ := text
    all_goals simp only [hex4, hexDigits, Option.bind_eq_bind, Option.bind_eq_some_iff,
      reduceCtorEq, and_false, exists_false] at h
    obtain ⟨i, a_digit, j, b_digit, k, c_digit, l, d_digit, last⟩ := h
    cases last
    simp only [hexDigit_iff] at a_digit b_digit c_digit d_digit
    rw [shift_hex (hexDigit_lt a_digit), shift_hex (hexDigit_lt b_digit),
      shift_hex (hexDigit_lt c_digit), shift_hex (hexDigit_lt d_digit), Nat.zero_mul,
      Nat.zero_add]
    exact ⟨a_digit, b_digit, c_digit, d_digit⟩
  · rintro ⟨a, b, c, d⟩
    simp only [hex4, hexDigits, hexDigit_iff.mpr a, hexDigit_iff.mpr b, hexDigit_iff.mpr c,
      hexDigit_iff.mpr d, Option.bind_eq_bind, Option.bind_some, shift_hex (hexDigit_lt a),
      shift_hex (hexDigit_lt b), shift_hex (hexDigit_lt c), shift_hex (hexDigit_lt d),
      Nat.zero_mul, Nat.zero_add]

theorem hex4_lt {text rest : Bytes} {value : Nat} (h : Json.Hex4 text value rest) :
    value < 0x10000 := by
  obtain ⟨a, b, c, d⟩ := h
  have := hexDigit_lt a
  have := hexDigit_lt b
  have := hexDigit_lt c
  have := hexDigit_lt d
  omega

theorem length_of_hex4 {text rest : Bytes} {value : Nat} (h : Json.Hex4 text value rest) :
    text.length = rest.length + 4 := by
  cases h
  rfl

theorem pair_value {high low : Nat} :
    0x10000 + (high - 0xd800) <<< 10 + (low - 0xdc00) =
      0x10000 + (high - 0xd800) * 0x400 + (low - 0xdc00) := by
  rw [Nat.shiftLeft_eq]

theorem unicodeEscape_iff {text rest : Bytes} {cp : Nat} :
    unicodeEscape text = some (cp, rest) ↔
      ∃ c : Char, c.toNat = cp ∧ Json.UnicodeEscape text c rest := by
  constructor
  · intro h
    unfold unicodeEscape at h
    split at h
    · cases h
    rename_i first after read
    have read := hex4_iff.mp read
    have first_lt := hex4_lt read
    split at h
    · rename_i high
      simp only [Bool.and_eq_true, decide_eq_true_eq] at high
      split at h
      · rename_i middle
        split at h
        · cases h
        rename_i low after' read'
        split at h
        · cases h
        rename_i inRange
        simp only [Bool.or_eq_true, decide_eq_true_eq, not_or, not_lt] at inRange
        obtain ⟨same, rfl⟩ := Prod.mk.inj (Option.some.inj h)
        obtain ⟨c, value⟩ := exists_char
          (show Scalar (0x10000 + (first - 0xd800) * 0x400 + (low - 0xdc00)) from .inr (by omega))
        exact ⟨c, value.trans (pair_value.symm.trans same), .pair read (hex4_iff.mp read') high.1 high.2
          inRange.1 inRange.2 value⟩
      · cases h
    · rename_i not_high
      split at h
      · cases h
      · rename_i not_low
        cases h
        simp only [Bool.and_eq_true, decide_eq_true_eq, not_and] at not_high not_low
        obtain ⟨c, value⟩ := exists_char (show Scalar cp by unfold Scalar; omega)
        subst value
        exact ⟨c, rfl, .scalar read⟩
  · rintro ⟨c, rfl, escape⟩
    have scalar := scalar_toNat c
    unfold Scalar at scalar
    unfold unicodeEscape
    cases escape with
    | scalar read =>
        have := hex4_lt read
        rw [hex4_iff.mpr read]
        simp only [Bool.and_eq_true, decide_eq_true_eq]
        rw [if_neg (by omega), if_neg (by omega)]
    | pair read read' high high' low low' value =>
        rw [hex4_iff.mpr read]
        simp only [Bool.and_eq_true, Bool.or_eq_true, decide_eq_true_eq]
        rw [if_pos ⟨high, high'⟩, hex4_iff.mpr read']
        simp only
        rw [if_neg (by omega), pair_value, value]

theorem length_of_unicodeEscape {text rest : Bytes} {c : Char}
    (h : Json.UnicodeEscape text c rest) : rest.length < text.length := by
  cases h with
  | scalar read =>
      have := length_of_hex4 read
      omega
  | pair read read' =>
      have := length_of_hex4 read
      have := length_of_hex4 read'
      simp only [List.length_cons] at *
      omega

theorem simpleEscape_iff {e byte : UInt8} :
    simpleEscape e = some byte ↔
      ∃ c, Json.SimpleEscape e c ∧ String.utf8EncodeChar c = [byte] := by
  constructor
  · intro h
    unfold simpleEscape at h
    repeat' split at h
    all_goals cases h
    all_goals rename_i is
    all_goals rw [beq_iff_eq] at is
    all_goals subst is
    · exact ⟨_, .quote, rfl⟩
    · exact ⟨_, .backslash, rfl⟩
    · exact ⟨_, .slash, rfl⟩
    · exact ⟨_, .backspace, rfl⟩
    · exact ⟨_, .formFeed, rfl⟩
    · exact ⟨_, .lineFeed, rfl⟩
    · exact ⟨_, .carriageReturn, rfl⟩
    · exact ⟨_, .tab, rfl⟩
  · rintro ⟨c, escape, encoded⟩
    cases escape <;> cases encoded <;> rfl

theorem encodeChar_cases (c : Char) :
    (∃ b, String.utf8EncodeChar c = [b] ∧ b.toNat = c.toNat ∧ c.toNat ≤ 0x7f) ∨
      ∃ b tail, String.utf8EncodeChar c = b :: tail ∧ 0x7f < c.toNat ∧ 0xc2 ≤ b.toNat ∧
        ∀ t ∈ tail, Continues t.toNat := by
  have bytes := map_toNat_encodeChar c
  by_cases one : c.toNat ≤ 0x7f
  · rw [units, if_pos one] at bytes
    obtain ⟨b, encoded, value⟩ := List.map_eq_singleton_iff.mp bytes
    exact .inl ⟨b, encoded, value, one⟩
  · obtain ⟨b0, tail, numbers, lead, continues⟩ := units_longer (by omega : 0x7f < c.toNat)
    rw [numbers] at bytes
    obtain ⟨b, rest, encoded, rfl, rfl⟩ := List.map_eq_cons_iff.mp bytes
    exact .inr ⟨b, rest, encoded, by omega, lead, List.forall_mem_map.mp continues⟩

/-- A character whose text starts with an ASCII byte is that byte. -/
theorem toNat_of_encodeChar_append {c : Char} {b : UInt8} {rest text : Bytes}
    (same : String.utf8EncodeChar c ++ rest = b :: text) (ascii : b.toNat ≤ 0x7f) :
    c.toNat = b.toNat := by
  obtain ⟨lead, encoded, value, _⟩ | ⟨lead, tail, encoded, _, long, _⟩ := encodeChar_cases c
  · rw [encoded] at same
    obtain ⟨rfl, -⟩ := List.cons.inj same
    exact value.symm
  · rw [encoded] at same
    obtain ⟨rfl, -⟩ := List.cons.inj same
    omega

/-- Behind a backslash the scanner reads one character of the grammar. -/
theorem escaped_iff {out decoded : Text} {text rest : Bytes} :
    escaped out text = some (decoded, rest) ↔
      ∃ c, Json.Character (0x5c :: text) c rest ∧ decoded = out ++ String.utf8EncodeChar c := by
  constructor
  · intro h
    cases text with
    | nil => cases h
    | cons e text =>
        rw [escaped] at h
        by_cases is : (e == 0x75) = true
        · rw [if_pos is] at h
          obtain rfl := beq_iff_eq.mp is
          obtain ⟨⟨cp, after⟩, read, same⟩ := Option.map_eq_some_iff.mp h
          cases same
          obtain ⟨c, rfl, escape⟩ := unicodeEscape_iff.mp read
          exact ⟨c, .unicode escape, appendCodePoint_eq out c⟩
        · rw [if_neg is] at h
          obtain ⟨byte, read, same⟩ := Option.map_eq_some_iff.mp h
          cases same
          obtain ⟨c, escape, encoded⟩ := simpleEscape_iff.mp read
          exact ⟨c, .simple escape, by rw [encoded]⟩
  · rintro ⟨c, character, rfl⟩
    generalize input_eq : (0x5c :: text : Bytes) = input at character
    cases character with
    | unescaped plain =>
        have value := toNat_of_encodeChar_append input_eq.symm (by decide)
        exact absurd (char_eq (b := '\\') value) plain.2.2
    | @simple e _ _ escape =>
        obtain ⟨-, rfl⟩ := List.cons.inj input_eq
        obtain ⟨byte, encoded⟩ : ∃ byte, String.utf8EncodeChar c = [byte] := by
          cases escape <;> exact ⟨_, rfl⟩
        have not_unicode : ¬ (e == 0x75) = true := fun is => by
          obtain rfl := beq_iff_eq.mp is
          cases escape
        rw [escaped, if_neg not_unicode, simpleEscape_iff.mpr ⟨c, escape, encoded⟩, encoded]
        rfl
    | unicode escape =>
        obtain ⟨-, rfl⟩ := List.cons.inj input_eq
        rw [escaped, if_pos (beq_self_eq_true _), unicodeEscape_iff.mpr ⟨c, rfl, escape⟩]
        exact congrArg (fun out => some (out, _)) (appendCodePoint_eq out c)

theorem length_of_character {text rest : Bytes} {c : Char} (h : Json.Character text c rest) :
    rest.length < text.length := by
  cases h with
  | unescaped =>
      have := Char.utf8Size_pos c
      rw [List.length_append, String.length_utf8EncodeChar]
      omega
  | simple =>
      simp only [List.length_cons]
      omega
  | unicode escape =>
      have := length_of_unicodeEscape escape
      simp only [List.length_cons]
      omega

/-! ### Strings -/

/-- A byte the scanner copies. -/
def Plain (c : UInt8) : Prop := c ≠ 0x22 ∧ c ≠ 0x5c ∧ 0x20 ≤ c.toNat

/-- What the scanner takes for a string up to its closing quotation mark, and what it
makes of it before the UTF-8 check. -/
inductive Raw : Bytes → Text → Bytes → Prop where
  | close {rest : Bytes} : Raw (0x22 :: rest) [] rest
  | copy {c : UInt8} {text rest : Bytes} {decoded : Text} : Plain c → Raw text decoded rest →
      Raw (c :: text) (c :: decoded) rest
  | escape {text middle rest : Bytes} {c : Char} {decoded : Text} :
      Json.Character (0x5c :: text) c middle → Raw middle decoded rest →
      Raw (0x5c :: text) (String.utf8EncodeChar c ++ decoded) rest

theorem raw_append {bytes text rest : Bytes} {decoded : Text} (plain : ∀ c ∈ bytes, Plain c)
    (raw : Raw text decoded rest) : Raw (bytes ++ text) (bytes ++ decoded) rest := by
  induction bytes with
  | nil => exact raw
  | cons c bytes ih =>
      obtain ⟨head, plain⟩ := List.forall_mem_cons.mp plain
      exact .copy head (ih plain)

/-- Continuation bytes were copied: an escape decodes to a character of its own. -/
theorem raw_continues {tail : Bytes} (continues : ∀ t ∈ tail, Continues t.toNat) {text rest : Bytes}
    {decoded : Text} (raw : Raw text (tail ++ decoded) rest) :
    ∃ after, text = tail ++ after ∧ Raw after decoded rest := by
  induction tail generalizing text with
  | nil => exact ⟨text, rfl, raw⟩
  | cons t tail ih =>
      obtain ⟨head, continues⟩ := List.forall_mem_cons.mp continues
      unfold Continues at head
      generalize whole : t :: tail ++ decoded = all at raw
      cases raw with
      | close => cases whole
      | copy plain raw =>
          obtain ⟨rfl, rfl⟩ := List.cons.inj whole
          obtain ⟨after, rfl, behind⟩ := ih continues raw
          exact ⟨after, rfl, behind⟩
      | @escape _ _ _ c _ character raw =>
          obtain ⟨lead, encoded, value, _⟩ | ⟨lead, _, encoded, _, long, _⟩ := encodeChar_cases c
          all_goals
            rw [encoded] at whole
            obtain ⟨rfl, -⟩ := List.cons.inj whole
            omega

theorem plain_of_unescaped {c : Char} (unescaped : Json.Unescaped c) :
    ∀ b ∈ String.utf8EncodeChar c, Plain b := by
  obtain ⟨visible, not_quote, not_backslash⟩ := unescaped
  have plain_of_large {b : UInt8} (large : 0x7f < b.toNat) : Plain b := by
    refine ⟨?_, ?_, by omega⟩
    · rintro rfl
      exact absurd large (by decide)
    · rintro rfl
      exact absurd large (by decide)
  obtain ⟨b, encoded, value, _⟩ | ⟨b, tail, encoded, _, long, continues⟩ := encodeChar_cases c
  · rw [encoded]
    intro _ mem
    obtain rfl := List.mem_singleton.mp mem
    refine ⟨?_, ?_, by omega⟩
    · rintro rfl
      exact not_quote (char_eq value.symm)
    · rintro rfl
      exact not_backslash (char_eq value.symm)
  · rw [encoded]
    refine List.forall_mem_cons.mpr ⟨plain_of_large (by omega), fun t mem => plain_of_large ?_⟩
    have := continues t mem
    unfold Continues at this
    omega

/-- A copied lead byte and its continuation bytes are an unescaped character. -/
theorem character_of_copy {c : Char} {b : UInt8} {text rest : Bytes} {decoded decoded' : Text}
    (plain : Plain b) (raw : Raw text decoded' rest)
    (same : b :: decoded' = String.utf8EncodeChar c ++ decoded) :
    ∃ middle, Json.Character (b :: text) c middle ∧ Raw middle decoded rest := by
  obtain ⟨not_quote, not_backslash, visible⟩ := plain
  obtain ⟨lead, encoded, value, _⟩ | ⟨lead, tail, encoded, large, long, continues⟩ :=
    encodeChar_cases c
  · rw [encoded] at same
    obtain ⟨rfl, rfl⟩ := List.cons.inj same
    have unescaped : Json.Unescaped c := by
      refine ⟨by omega, ?_, ?_⟩
      · rintro rfl
        exact not_quote (UInt8.toNat_inj.mp value)
      · rintro rfl
        exact not_backslash (UInt8.toNat_inj.mp value)
    refine ⟨text, ?_, raw⟩
    have := @Json.Character.unescaped _ text unescaped
    rwa [encoded] at this
  · rw [encoded] at same
    obtain ⟨rfl, rfl⟩ := List.cons.inj same
    obtain ⟨after, rfl, behind⟩ := raw_continues continues raw
    have unescaped : Json.Unescaped c := by
      refine ⟨by omega, ?_, ?_⟩
      · rintro rfl
        exact absurd large (by decide)
      · rintro rfl
        exact absurd large (by decide)
    refine ⟨after, ?_, behind⟩
    have := @Json.Character.unescaped _ after unescaped
    rwa [encoded] at this

/-- Scanning and then checking UTF-8 reads the characters of the grammar. -/
theorem raw_iff_characters {text rest : Bytes} {chars : List Char} :
    Raw text (encode chars) rest ↔ Json.Characters text chars rest := by
  constructor
  · intro raw
    induction chars generalizing text with
    | nil =>
        generalize whole : encode [] = decoded at raw
        cases raw with
        | close => exact .close
        | copy => cases whole
        | escape => exact absurd (List.append_eq_nil_iff.mp whole.symm).1 (encodeChar_ne_nil _)
    | cons c chars ih =>
        generalize whole : encode (c :: chars) = decoded at raw
        cases raw with
        | close => exact absurd (List.append_eq_nil_iff.mp whole).1 (encodeChar_ne_nil _)
        | copy plain raw =>
            obtain ⟨middle, character, raw⟩ := character_of_copy plain raw whole.symm
            exact .more character (ih raw)
        | escape character raw =>
            obtain ⟨rfl, rfl⟩ := encodeChar_append_inj whole
            exact .more character (ih raw)
  · intro characters
    induction characters with
    | close => exact .close
    | more character _ ih =>
        cases character with
        | unescaped unescaped => exact raw_append (plain_of_unescaped unescaped) ih
        | simple escape => exact .escape (.simple escape) ih
        | unicode escape => exact .escape (.unicode escape) ih

theorem length_of_raw {text rest : Bytes} {decoded : Text} (raw : Raw text decoded rest) :
    rest.length < text.length := by
  induction raw with
  | close => exact Nat.lt_succ_self _
  | copy _ _ ih => exact ih.trans (Nat.lt_succ_self _)
  | escape character _ ih => exact ih.trans (length_of_character character)

end DawnDock
