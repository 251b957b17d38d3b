import DawnDock.Library.Json
import Mathlib.Data.List.Nodup

/-!
JSON Schema (draft 2020-12) over documents with integer numbers.

A schema is the set of documents that conform to it. A keyword that speaks of one type
says nothing of documents of the others; strings are measured in a `unit`, which the
standard fixes as the character.
-/

namespace JsonSchema

open Json (Document)

/-- What a keyword says of a document. -/
abbrev Schema := Document → Prop

/-- The names that `type` may list. -/
inductive TypeName where
  | null | boolean | integer | string | array | object
deriving DecidableEq, Repr

def typeOf : Document → TypeName
  | .null => .null
  | .boolean _ => .boolean
  | .number _ => .integer
  | .string _ => .string
  | .array _ => .array
  | .object _ => .object

/-! ### Keywords -/

def type (names : List TypeName) : Schema := fun document => typeOf document ∈ names

/-- One of these texts. -/
def enum (texts : List String) : Schema := fun document =>
  ∃ text ∈ texts, document = .string text.toList

/-- The texts of a regular expression. -/
def pattern (matching : List Char → Prop) : Schema
  | .string text => matching text
  | _ => True

section Lengths

variable (unit : List Char → Nat)

/-- A bound on texts, in some unit of length; anything else passes. -/
def minLength (bound : Nat) : Schema
  | .string text => bound ≤ unit text
  | _ => True

def maxLength (bound : Nat) : Schema
  | .string text => unit text ≤ bound
  | _ => True

end Lengths

/-- A bound on numbers; anything else passes. -/
def minimum (bound : Int) : Schema
  | .number value => bound ≤ value
  | _ => True

def maximum (bound : Int) : Schema
  | .number value => value ≤ bound
  | _ => True

/-- A bound on arrays; anything else passes. -/
def minItems (bound : Nat) : Schema
  | .array elements => bound ≤ elements.length
  | _ => True

def maxItems (bound : Nat) : Schema
  | .array elements => elements.length ≤ bound
  | _ => True

/-- No element twice. -/
def uniqueItems : Schema
  | .array elements => elements.Nodup
  | _ => True

/-- Each element of an array. -/
def items (schema : Schema) : Schema
  | .array elements => ∀ element ∈ elements, schema element
  | _ => True

/-- The names that an object must have. -/
def required (names : List String) : Schema
  | .object members => ∀ name ∈ names, name.toList ∈ members.map Prod.fst
  | _ => True

/-- The schemas of the members that an object has. -/
def properties (table : List (String × Schema)) : Schema
  | .object members => ∀ entry ∈ table, ∀ member ∈ members,
      member.1 = entry.1.toList → entry.2 member.2
  | _ => True

/-- `"additionalProperties": false` beside `properties` with these names. -/
def closed (names : List String) : Schema
  | .object members => ∀ member ∈ members, member.1 ∈ names.map String.toList
  | _ => True

/-- The keywords of one schema. -/
def allOf (keywords : List Schema) : Schema := fun document =>
  ∀ keyword ∈ keywords, keyword document

section Keywords

variable {keyword : Schema} {keywords : List Schema} {document : Document}

@[simp] theorem allOf_nil : allOf [] document := List.forall_mem_nil _

@[simp] theorem allOf_cons :
    allOf (keyword :: keywords) document ↔ keyword document ∧ allOf keywords document :=
  List.forall_mem_cons

@[simp] theorem type_singleton {name : TypeName} : type [name] document ↔ typeOf document = name :=
  List.mem_singleton

@[simp] theorem type_pair {first second : TypeName} :
    type [first, second] document ↔ typeOf document = first ∨ typeOf document = second := by
  rw [type, List.mem_cons, List.mem_singleton]

/-- A schema of one type has documents of one shape. -/
theorem string_of_type (conforms : allOf (type [.string] :: keywords) document) :
    ∃ chars, document = .string chars := by
  have string := type_singleton.mp (allOf_cons.mp conforms).1
  cases document with
  | string chars => exact ⟨chars, rfl⟩
  | _ => cases string

theorem number_of_type (conforms : allOf (type [.integer] :: keywords) document) :
    ∃ value, document = .number value := by
  have integer := type_singleton.mp (allOf_cons.mp conforms).1
  cases document with
  | number value => exact ⟨value, rfl⟩
  | _ => cases integer

theorem array_of_type (conforms : allOf (type [.array] :: keywords) document) :
    ∃ elements, document = .array elements := by
  have array := type_singleton.mp (allOf_cons.mp conforms).1
  cases document with
  | array elements => exact ⟨elements, rfl⟩
  | _ => cases array

theorem object_of_type (conforms : allOf (type [.object] :: keywords) document) :
    ∃ members, document = .object members := by
  have object := type_singleton.mp (allOf_cons.mp conforms).1
  cases document with
  | object members => exact ⟨members, rfl⟩
  | _ => cases object

end Keywords

/-! ### Members -/

section Members

variable {members : List (List Char × Document)} {schema : Schema} {name : String}

/-- The object has the member, and its value conforms. -/
def Has (members : List (List Char × Document)) (name : String) (schema : Schema) : Prop :=
  ∃ value, (name.toList, value) ∈ members ∧ schema value

/-- A member that is required and has a schema. -/
theorem has_iff (distinct : (members.map Prod.fst).Nodup)
    (present : name.toList ∈ members.map Prod.fst) :
    Has members name schema ↔
      ∀ member ∈ members, member.1 = name.toList → schema member.2 := by
  constructor
  · rintro ⟨value, mem, conforms⟩ member other same
    have equal := List.inj_on_of_nodup_map distinct mem other same.symm
    rwa [← equal]
  · intro conforms
    obtain ⟨⟨key, value⟩, mem, rfl⟩ := List.mem_map.mp present
    exact ⟨value, mem, conforms _ mem rfl⟩

theorem present_of_has (has : Has members name schema) : name.toList ∈ members.map Prod.fst := by
  obtain ⟨value, mem, -⟩ := has
  exact List.mem_map.mpr ⟨_, mem, rfl⟩

/-- An object with a schema for each of its members, all of them required. -/
theorem object_iff {table : List (String × Schema)} (distinct : (members.map Prod.fst).Nodup) :
    allOf [type [.object], closed (table.map Prod.fst), required (table.map Prod.fst),
        properties table] (.object members) ↔
      (∀ member ∈ members, member.1 ∈ (table.map Prod.fst).map String.toList) ∧
        ∀ entry ∈ table, Has members entry.1 entry.2 := by
  simp only [allOf_cons, allOf_nil, and_true]
  constructor
  · rintro ⟨-, only, present, conforms⟩
    refine ⟨only, ?_⟩
    intro entry mem
    apply (has_iff distinct (present entry.1 (List.mem_map_of_mem mem))).mpr
    exact conforms entry mem
  · rintro ⟨only, has⟩
    refine ⟨type_singleton.mpr rfl, only, ?_, ?_⟩
    · intro name mem
      obtain ⟨entry, entry_mem, rfl⟩ := List.mem_map.mp mem
      exact present_of_has (has entry entry_mem)
    · intro entry mem
      exact (has_iff distinct (present_of_has (has entry mem))).mp (has entry mem)

end Members

end JsonSchema
