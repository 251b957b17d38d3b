import DawnDock.Protocol.JsonScalars
import Mathlib.Data.List.Nodup

/-!
The documents of the grammar as the parser sees them: what it makes of a document
(`represent`), what it asks of each value (`WithinLimits`), the byte a value starts with
and the bytes a text uses up.
-/

namespace DawnDock

open ByteCodec Utf8

/-- The parsed value of a document: encoded strings and 64-bit numbers. -/
def represent (document : Json.Document) : JsonValue := document.map encode Int64.ofInt

def representMember (member : List Char × Json.Document) : Text × JsonValue :=
  (encode member.1, represent member.2)

/-- What the parser asks of one value: numbers fit, strings and keys are short, keys differ. -/
def WithinLimits : Json.Document → Prop
  | .number value => FitsInt64 value
  | .string text => (encode text).length ≤ kJsonMaximumStringBytes
  | .object members => (members.map Prod.fst).Nodup ∧
      ∀ member ∈ members, (encode member.1).length ≤ kJsonMaximumStringBytes
  | _ => True

/-- Every value of the document is within its limits. -/
def AllWithin (document : Json.Document) : Prop := ∀ value ∈ document.values, WithinLimits value

def MemberWithin (member : List Char × Json.Document) : Prop :=
  (encode member.1).length ≤ kJsonMaximumStringBytes ∧ AllWithin member.2

section Documents

open Json

variable {elements : List Document} {members : List (List Char × Document)}

theorem represent_array : represent (.array elements) = .array (elements.map represent) := by
  rw [represent, map, mapElements_eq]
  rfl

theorem represent_object :
    represent (.object members) = .object (members.map representMember) := by
  rw [represent, map, mapMembers_eq]
  rfl

theorem count_array : (Json.array elements).count = (elements.map count).sum + 1 := by
  rw [count, values, elementValues_eq, List.length_cons, List.length_flatMap]
  rfl

theorem count_object :
    (Json.object members).count = (members.map fun member => member.2.count).sum + 1 := by
  rw [count, values, memberValues_eq, List.length_cons, List.length_flatMap]
  rfl

theorem allWithin_array : AllWithin (.array elements) ↔ ∀ element ∈ elements, AllWithin element := by
  simp only [AllWithin, values, elementValues_eq, List.mem_cons, List.mem_flatMap,
    forall_eq_or_imp, WithinLimits, true_and]
  constructor
  · intro h element mem value sub
    exact h value ⟨element, mem, sub⟩
  · rintro h value ⟨element, mem, sub⟩
    exact h element mem value sub

/-- The keys of an object differ, and its members are within their limits. -/
theorem allWithin_object : AllWithin (.object members) ↔
    ((members.map representMember).map Prod.fst).Nodup ∧
      ∀ member ∈ members, MemberWithin member := by
  have keys : (members.map representMember).map Prod.fst =
      (members.map Prod.fst).map encode := by
    rw [List.map_map, List.map_map]
    rfl
  rw [keys, List.nodup_map_iff encode_injective]
  simp only [AllWithin, values, memberValues_eq, List.mem_cons, List.mem_flatMap,
    forall_eq_or_imp, WithinLimits, MemberWithin, and_assoc]
  apply and_congr_right
  intro _
  constructor
  · rintro ⟨short, h⟩ member mem
    refine ⟨short member mem, ?_⟩
    intro value sub
    exact h value ⟨member, mem, sub⟩
  · intro h
    constructor
    · intro member mem
      exact (h member mem).1
    · rintro value ⟨member, mem, sub⟩
      exact (h member mem).2 value sub

end Documents

/-! ### First bytes -/

theorem number_head {value : Int} {text rest : Bytes} (number : Json.Number text value rest) :
    ∃ c more, text = c :: more ∧ (c = 0x2d ∨ 0x30 ≤ c.toNat ∧ c.toNat ≤ 0x39) := by
  cases number with
  | natural natural =>
      obtain ⟨c, more, rfl, digit⟩ := natural_head natural
      exact ⟨c, more, rfl, .inr digit⟩
  | minus => exact ⟨_, _, rfl, .inl rfl⟩

/-- A text of a value starts with a byte that is neither white space nor a closing bracket. -/
theorem value_head {depth : Nat} {document : Json.Document} {text rest : Bytes}
    (value : Json.Value depth document text rest) :
    ∃ c more, text = c :: more ∧ ¬ Json.IsSpace c ∧ c ≠ 0x5d := by
  cases depth with
  | zero => exact value.elim
  | succ depth =>
      cases value with
      | number number =>
          obtain ⟨c, more, rfl, rfl | ⟨low, high⟩⟩ := number_head number
          · exact ⟨_, _, rfl, by unfold Json.IsSpace; decide, by decide⟩
          refine ⟨c, more, rfl, ?_, ?_⟩
          · rintro (rfl | rfl | rfl | rfl)
            all_goals exact absurd low (by decide)
          · rintro rfl
            exact absurd high (by decide)
      | string text =>
          cases text
          exact ⟨_, _, rfl, by unfold Json.IsSpace; decide, by decide⟩
      | _ => exact ⟨_, _, rfl, by unfold Json.IsSpace; decide, by decide⟩

theorem solid_of_value {depth : Nat} {document : Json.Document} {text rest : Bytes}
    (value : Json.Value depth document text rest) : Solid text := by
  obtain ⟨c, more, rfl, solid, -⟩ := value_head value
  exact solid_cons solid

theorem solid_of_str {key : List Char} {text rest : Bytes} (str : Json.Str text key rest) :
    Solid text := by
  cases str
  exact solid_cons (by unfold Json.IsSpace; decide)

/-- The parser stops behind a value that white space separates from such a byte. -/
theorem stops_of_ws {text rest : Bytes} (ws : Json.Ws text rest) (stops : Stops rest) :
    Stops text := by
  cases ws with
  | done => exact stops
  | skip space _ =>
      rintro _ ⟨⟩
      obtain rfl | rfl | rfl | rfl := space
      all_goals decide

theorem stops_nil : Stops [] := fun _ mem => nomatch mem

theorem stops_cons {c : UInt8} {rest : Bytes}
    (stop : isDigit c = false ∧ c ≠ 0x2e ∧ c ≠ 0x65 ∧ c ≠ 0x45) : Stops (c :: rest) := by
  rintro _ ⟨⟩
  exact stop

/-! ### Progress -/

section Progress

variable {child : Json.Document → Bytes → Bytes → Prop} {text rest : Bytes}

theorem length_of_elements {elements : List Json.Document}
    (progress : ∀ {document a b}, child document a b → b.length ≤ a.length)
    (parsed : Json.Elements child elements text rest) : rest.length ≤ text.length := by
  induction parsed with
  | last front element back =>
      exact (length_le_of_ws back).trans ((progress element).trans (length_le_of_ws front))
  | more front element back _ ih =>
      have comma := length_le_of_ws back
      rw [List.length_cons] at comma
      have := progress element
      have := length_le_of_ws front
      omega

theorem length_of_str {key : List Char} (parsed : Json.Str text key rest) :
    rest.length ≤ text.length := by
  cases parsed with
  | mk characters => exact (length_of_characters characters).le.trans (Nat.le_succ _)

theorem length_of_members {members : List (List Char × Json.Document)}
    (progress : ∀ {document a b}, child document a b → b.length ≤ a.length)
    (parsed : Json.Members child members text rest) : rest.length ≤ text.length := by
  have of_member {key value input a b c d e} (front : Json.Ws input a) (str : Json.Str a key b)
      (colon : Json.Ws b (0x3a :: c)) (space : Json.Ws c d) (parsed : child value d e) :
      e.length ≤ input.length := by
    have := length_le_of_ws front
    have := length_of_str str
    have behind := length_le_of_ws colon
    rw [List.length_cons] at behind
    have := length_le_of_ws space
    have := progress parsed
    omega
  induction parsed with
  | last front str colon space value back =>
      exact (length_le_of_ws back).trans (of_member front str colon space value)
  | more front str colon space value back _ ih =>
      have comma := length_le_of_ws back
      rw [List.length_cons] at comma
      have := of_member front str colon space value
      omega

theorem length_of_value {depth : Nat} {document : Json.Document}
    (parsed : Json.Value depth document text rest) : rest.length ≤ text.length := by
  induction depth generalizing document text rest with
  | zero => exact parsed.elim
  | succ depth ih =>
      have bracket {front : Bytes} {c d : UInt8} (inner : (d :: rest).length ≤ front.length) :
          rest.length ≤ (c :: front).length := by
        simp only [List.length_cons] at inner ⊢
        omega
      cases parsed with
      | null | true | false => simp only [List.length_cons]; omega
      | number number => exact (length_of_number number).le
      | string text => exact length_of_str text
      | emptyArray space | emptyObject space => exact bracket (length_le_of_ws space)
      | array elements => exact bracket (length_of_elements ih elements)
      | object members => exact bracket (length_of_members ih members)

end Progress

end DawnDock
