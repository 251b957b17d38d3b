import DawnDock.Protocol.JsonDocuments

/-!
The parser accepts exactly its bounded grammar (`parseJson_accepts_grammar`).

`Accepts depth` is what a parser of values nesting at most `depth` deep does; a
container reads its children with the parser one level down, so the induction is over
the depth the source still allows (`accepts_parseValue`). The loops of the two
containers are each read once in both directions.
-/

namespace DawnDock

open ByteCodec Utf8
open Collect (of_bind_eq_ok)

/-! ### Containers -/

/-- What a parser of the values that nest at most `depth` deep does: it reads a value of
the grammar that is within the limits, it reads each one there is, and it stops. -/
structure Accepts (depth : Nat) (child : Text → ParserState → Parse (JsonValue × ParserState)) :
    Prop where
  sound {path : Text} {before after : ParserState} {value : JsonValue} :
    child path before = .ok (value, after) → ∃ document,
      Json.Value depth document before.rest after.rest ∧ AllWithin document ∧
        value = represent document ∧ after.nodes = before.nodes + document.count ∧
        after.nodes ≤ kJsonMaximumNodes
  complete {text rest : Bytes} {nodes : Nat} {document : Json.Document} (path : Text) :
    Json.Value depth document text rest → AllWithin document →
      nodes + document.count ≤ kJsonMaximumNodes → Stops rest →
      child path { rest := text, nodes } =
        .ok (represent document, { rest, nodes := nodes + document.count })
  settled (path : Text) (state : ParserState) : Settled (child path state)

section Containers

variable {depth : Nat} {child : Text → ParserState → Parse (JsonValue × ParserState)}
  {path : Text} {turns : Nat} {before after : ParserState} {value : JsonValue}

theorem arrayLoop_sound (accepts : Accepts depth child) {elements : List JsonValue}
    (h : arrayLoop child path turns elements before = .ok (value, after)) :
    ∃ documents, Json.Elements (Json.Value depth) documents before.rest (0x5d :: after.rest) ∧
      (∀ document ∈ documents, AllWithin document) ∧
      value = .array (elements ++ documents.map represent) ∧
      after.nodes = before.nodes + (documents.map Json.count).sum ∧
      after.nodes ≤ kJsonMaximumNodes := by
  induction turns generalizing elements before with
  | zero => cases h
  | succ turns ih =>
      obtain ⟨⟨element, middle⟩, read, h⟩ := of_bind_eq_ok h
      obtain ⟨document, parsed, within, rfl, nodes, bound⟩ := accepts.sound read
      have front := ws_skipWs before.rest
      have back := ws_skipWs middle.rest
      dsimp only at h nodes parsed
      split at h
      · rename_i rest comma
        rw [comma] at back
        obtain ⟨documents, elements_parsed, all, rfl, counted, bound⟩ := ih h
        refine ⟨document :: documents, .more front parsed back elements_parsed,
          List.forall_mem_cons.mpr ⟨within, all⟩, ?_, ?_, bound⟩
        · rw [List.map_cons, List.append_assoc, List.singleton_append]
        · rw [counted, nodes, List.map_cons, List.sum_cons, Nat.add_assoc]
      · rename_i rest bracket
        rw [bracket] at back
        cases h
        refine ⟨[document], .last front parsed back, List.forall_mem_singleton.mpr within, rfl, ?_,
          bound⟩
        rw [nodes, List.map_singleton, List.sum_singleton]
      · cases h

/-- A turn of the loop, behind the element it reads. -/
theorem arrayLoop_turn {elements : List JsonValue} {element : JsonValue} {front rest : Bytes}
    {nodes : Nat} (read : child (childPath path (decimalText elements.length))
      { rest := front, nodes := before.nodes } = .ok (element, { rest, nodes }))
    (space : skipWs before.rest = front) :
    arrayLoop child path (turns + 1) elements before =
      match skipWs rest with
      | 0x2c :: rest => arrayLoop child path turns (elements ++ [element]) { rest, nodes }
      | 0x5d :: rest => .ok (.array (elements ++ [element]), { rest, nodes })
      | _ => invalid path := by
  rw [arrayLoop]
  subst space
  exact bind_ok read

theorem arrayLoop_complete (accepts : Accepts depth child) {elements : List JsonValue}
    {documents : List Json.Document} {text rest : Bytes} {nodes : Nat}
    (parsed : Json.Elements (Json.Value depth) documents text (0x5d :: rest))
    (within : ∀ document ∈ documents, AllWithin document)
    (bound : nodes + (documents.map Json.count).sum ≤ kJsonMaximumNodes)
    (enough : text.length < turns) :
    arrayLoop child path turns elements { rest := text, nodes } =
      .ok (.array (elements ++ documents.map represent),
        { rest, nodes := nodes + (documents.map Json.count).sum }) := by
  generalize closed : 0x5d :: rest = final at parsed
  induction parsed generalizing elements nodes turns with
  | last front element back =>
      subst closed
      obtain ⟨turns, rfl⟩ := Nat.exists_eq_add_one_of_ne_zero (Nat.ne_zero_of_lt enough)
      rw [List.map_singleton, List.sum_singleton] at bound
      have read := accepts.complete (childPath path (decimalText elements.length)) element
        (within _ List.mem_cons_self) bound (stops_of_ws back (stops_cons (by decide)))
      rw [arrayLoop_turn read (skipWs_of_ws front (solid_of_value element)),
        skipWs_of_ws back (solid_cons (by unfold Json.IsSpace; decide))]
      rfl
  | more front element back elements_parsed ih =>
      obtain ⟨turns, rfl⟩ := Nat.exists_eq_add_one_of_ne_zero (Nat.ne_zero_of_lt enough)
      rw [List.map_cons, List.sum_cons, ← Nat.add_assoc] at bound
      have read := accepts.complete (childPath path (decimalText elements.length)) element
        (within _ List.mem_cons_self) ((Nat.le_add_right _ _).trans bound)
        (stops_of_ws back (stops_cons (by decide)))
      rw [arrayLoop_turn read (skipWs_of_ws front (solid_of_value element)),
        skipWs_of_ws back (solid_cons (by unfold Json.IsSpace; decide))]
      have shorter := length_le_of_ws back
      have := length_of_value element
      have := length_le_of_ws front
      rw [List.length_cons] at shorter
      refine (ih (fun document mem => within document (List.mem_cons_of_mem _ mem)) bound
        (by omega) closed).trans ?_
      rw [List.map_cons, List.map_cons, List.sum_cons, List.append_assoc, List.singleton_append,
        Nat.add_assoc]

theorem settled_arrayLoop (accepts : Accepts depth child) {elements : List JsonValue}
    (enough : before.rest.length < turns) :
    Settled (arrayLoop child path turns elements before) := by
  induction turns generalizing elements before with
  | zero => exact absurd enough (Nat.not_lt_zero _)
  | succ turns ih =>
      refine settled_bind (accepts.settled _ _) fun ⟨element, middle⟩ read => ?_
      obtain ⟨document, parsed, -⟩ := accepts.sound read
      have := length_of_value parsed
      have := length_le_of_ws (ws_skipWs before.rest)
      have shorter := length_le_of_ws (ws_skipWs middle.rest)
      dsimp only at this ⊢
      split
      · rename_i rest comma
        rw [comma, List.length_cons] at shorter
        exact ih (by dsimp only at *; omega)
      · exact settled_ok _
      · exact settled_invalid

/-- A key and its colon, up to the first byte of the value. -/
theorem memberKey_iff {text rest : Bytes} {key : Text} :
    memberKey path text = .ok (key, rest) ↔ ∃ chars a b c, key = encode chars ∧
      key.length ≤ kJsonMaximumStringBytes ∧ Json.Ws text a ∧ Json.Str a chars b ∧
      Json.Ws b (0x3a :: c) ∧ rest = skipWs c := by
  constructor
  · intro h
    have front := ws_skipWs text
    unfold memberKey at h
    split at h
    · rename_i string quote
      rw [quote] at front
      obtain ⟨⟨read_key, behind⟩, read, h⟩ := of_bind_eq_ok h
      obtain ⟨chars, rfl, characters, short⟩ := parseRawString_iff.mp read
      have colon := ws_skipWs behind
      dsimp only at h
      split at h
      · rename_i c found
        rw [found] at colon
        cases h
        exact ⟨chars, _, _, _, rfl, short, front, .mk characters, colon, rfl⟩
      · cases h
    · cases h
  · rintro ⟨chars, a, b, c, rfl, short, front, str, colon, rfl⟩
    cases str with
    | mk characters =>
        have read : parseRawString path _ = .ok (encode chars, b) :=
          parseRawString_iff.mpr ⟨chars, rfl, characters, short⟩
        rw [memberKey, skipWs_of_ws front (solid_cons (by unfold Json.IsSpace; decide))]
        refine (bind_ok read).trans ?_
        dsimp only
        rw [skipWs_of_ws colon (solid_cons (by unfold Json.IsSpace; decide))]
        rfl

theorem length_of_memberKey {text rest : Bytes} {key : Text}
    (h : memberKey path text = .ok (key, rest)) : rest.length ≤ text.length := by
  obtain ⟨chars, a, b, c, rfl, -, front, str, colon, rfl⟩ := memberKey_iff.mp h
  have := length_le_of_ws front
  have := length_of_str str
  have behind := length_le_of_ws colon
  have := length_le_of_ws (ws_skipWs c)
  rw [List.length_cons] at behind
  omega

theorem settled_memberKey {text : Bytes} : Settled (memberKey path text) := by
  unfold memberKey
  split
  · refine settled_bind settled_parseRawString fun ⟨key, rest⟩ _ => ?_
    dsimp only
    split
    · exact settled_ok _
    · exact settled_invalid
  · exact settled_invalid

/-- A turn of the loop, behind the member it reads. -/
theorem objectLoop_turn {members : List (Text × JsonValue)} {key : Text} {text front rest : Bytes}
    {nodes count : Nat} (key_read : memberKey path text = .ok (key, front))
    (read : child (childPath path key) { rest := front, nodes } =
      .ok (value, { rest, nodes := count })) (fresh : key ∉ members.map Prod.fst) :
    objectLoop child path (turns + 1) members { rest := text, nodes } =
      match skipWs rest with
      | 0x2c :: rest =>
        objectLoop child path turns (members ++ [(key, value)]) { rest, nodes := count }
      | 0x7d :: rest => .ok (.object (members ++ [(key, value)]), { rest, nodes := count })
      | _ => invalid path := by
  rw [objectLoop]
  refine (bind_ok key_read).trans ((bind_ok read).trans ?_)
  exact if_neg fresh

theorem objectLoop_sound (accepts : Accepts depth child) {members : List (Text × JsonValue)}
    (distinct : (members.map Prod.fst).Nodup)
    (h : objectLoop child path turns members before = .ok (value, after)) :
    ∃ documents, Json.Members (Json.Value depth) documents before.rest (0x7d :: after.rest) ∧
      (∀ member ∈ documents, MemberWithin member) ∧
      value = .object (members ++ documents.map representMember) ∧
      ((members ++ documents.map representMember).map Prod.fst).Nodup ∧
      after.nodes = before.nodes + (documents.map fun member => member.2.count).sum ∧
      after.nodes ≤ kJsonMaximumNodes := by
  induction turns generalizing members before with
  | zero => cases h
  | succ turns ih =>
      obtain ⟨⟨key, front⟩, key_read, h⟩ := of_bind_eq_ok h
      obtain ⟨⟨element, middle⟩, read, h⟩ := of_bind_eq_ok h
      obtain ⟨chars, a, b, c, rfl, short, space, str, colon, rfl⟩ := memberKey_iff.mp key_read
      obtain ⟨document, parsed, within, rfl, nodes, bound⟩ := accepts.sound read
      have back := ws_skipWs middle.rest
      dsimp only at h nodes parsed
      split at h
      · cases h
      rename_i fresh
      have extended : ((members ++ [(encode chars, represent document)]).map Prod.fst).Nodup := by
        rw [List.map_append, List.map_singleton, ← List.concat_eq_append]
        exact (List.nodup_concat _ _).mpr ⟨fresh, distinct⟩
      split at h
      · rename_i rest comma
        rw [comma] at back
        obtain ⟨documents, members_parsed, all, rfl, keys, counted, bound⟩ := ih extended h
        refine ⟨(chars, document) :: documents,
          .more space str colon (ws_skipWs c) parsed back members_parsed,
          List.forall_mem_cons.mpr ⟨⟨short, within⟩, all⟩, ?_, ?_, ?_, bound⟩
        · rw [List.map_cons, List.append_assoc, List.singleton_append]
          rfl
        · rw [List.append_assoc, List.singleton_append] at keys
          exact keys
        · rw [counted, nodes, List.map_cons, List.sum_cons, Nat.add_assoc]
      · rename_i rest bracket
        rw [bracket] at back
        cases h
        refine ⟨[(chars, document)], .last space str colon (ws_skipWs c) parsed back,
          List.forall_mem_singleton.mpr ⟨short, within⟩, rfl, extended, ?_, bound⟩
        rw [nodes, List.map_singleton, List.sum_singleton]
      · cases h

theorem objectLoop_complete (accepts : Accepts depth child) {members : List (Text × JsonValue)}
    {documents : List (List Char × Json.Document)} {text rest : Bytes} {nodes : Nat}
    (parsed : Json.Members (Json.Value depth) documents text (0x7d :: rest))
    (within : ∀ member ∈ documents, MemberWithin member)
    (distinct : ((members ++ documents.map representMember).map Prod.fst).Nodup)
    (bound : nodes + (documents.map fun member => member.2.count).sum ≤ kJsonMaximumNodes)
    (enough : text.length < turns) :
    objectLoop child path turns members { rest := text, nodes } =
      .ok (.object (members ++ documents.map representMember),
        { rest, nodes := nodes + (documents.map fun member => member.2.count).sum }) := by
  generalize closed : 0x7d :: rest = final at parsed
  induction parsed generalizing members nodes turns with
  | @last key _ _ _ _ _ _ _ _ space str colon behind parsed back =>
      subst closed
      obtain ⟨turns, rfl⟩ := Nat.exists_eq_add_one_of_ne_zero (Nat.ne_zero_of_lt enough)
      obtain ⟨short, value_within⟩ := within _ List.mem_cons_self
      rw [List.map_singleton, List.sum_singleton] at bound
      have key_read : memberKey path _ = .ok (encode key, _) := memberKey_iff.mpr
        ⟨_, _, _, _, rfl, short, space, str, colon, (skipWs_of_ws behind (solid_of_value parsed)).symm⟩
      have read := accepts.complete (childPath path (encode key)) parsed value_within bound
        (stops_of_ws back (stops_cons (by decide)))
      have fresh : encode key ∉ members.map Prod.fst := by
        rw [List.map_append] at distinct
        exact fun mem => (List.disjoint_of_nodup_append distinct) mem List.mem_cons_self
      rw [objectLoop_turn key_read read fresh,
        skipWs_of_ws back (solid_cons (by unfold Json.IsSpace; decide))]
      rfl
  | @more key _ _ _ _ _ _ _ _ _ _ space str colon behind parsed back members_parsed ih =>
      obtain ⟨turns, rfl⟩ := Nat.exists_eq_add_one_of_ne_zero (Nat.ne_zero_of_lt enough)
      obtain ⟨short, value_within⟩ := within _ List.mem_cons_self
      rw [List.map_cons, List.sum_cons, ← Nat.add_assoc] at bound
      have key_read : memberKey path _ = .ok (encode key, _) := memberKey_iff.mpr
        ⟨_, _, _, _, rfl, short, space, str, colon, (skipWs_of_ws behind (solid_of_value parsed)).symm⟩
      have read := accepts.complete (childPath path (encode key)) parsed value_within
        ((Nat.le_add_right _ _).trans bound) (stops_of_ws back (stops_cons (by decide)))
      have fresh : encode key ∉ members.map Prod.fst := by
        rw [List.map_append] at distinct
        exact fun mem => (List.disjoint_of_nodup_append distinct) mem List.mem_cons_self
      rw [objectLoop_turn key_read read fresh,
        skipWs_of_ws back (solid_cons (by unfold Json.IsSpace; decide))]
      rw [List.map_cons, ← List.singleton_append, ← List.append_assoc] at distinct
      have := length_of_memberKey key_read
      have := length_of_value parsed
      have comma := length_le_of_ws back
      rw [List.length_cons] at comma
      refine (ih (fun member mem => within member (List.mem_cons_of_mem _ mem)) distinct bound
        (by omega) closed).trans ?_
      rw [List.map_cons, List.map_cons, List.sum_cons, List.append_assoc, List.singleton_append,
        Nat.add_assoc]

theorem settled_objectLoop (accepts : Accepts depth child) {members : List (Text × JsonValue)}
    (enough : before.rest.length < turns) :
    Settled (objectLoop child path turns members before) := by
  induction turns generalizing members before with
  | zero => exact absurd enough (Nat.not_lt_zero _)
  | succ turns ih =>
      refine settled_bind settled_memberKey fun ⟨key, front⟩ key_read => ?_
      refine settled_bind (accepts.settled _ _) fun ⟨element, middle⟩ read => ?_
      obtain ⟨document, parsed, -⟩ := accepts.sound read
      have := length_of_memberKey key_read
      have := length_of_value parsed
      have shorter := length_le_of_ws (ws_skipWs middle.rest)
      dsimp only at this ⊢
      split
      · exact settled_fail (by decide)
      split
      · rename_i rest comma
        rw [comma, List.length_cons] at shorter
        exact ih (by dsimp only at *; omega)
      · exact settled_ok _
      · exact settled_invalid

theorem ws_trans {text middle rest : Bytes} (front : Json.Ws text middle)
    (back : Json.Ws middle rest) : Json.Ws text rest := by
  induction front with
  | done => exact back
  | skip space _ ih => exact .skip space (ih back)

/-- White space in front of the elements makes no difference. -/
theorem elements_skipWs {documents : List Json.Document} {text rest : Bytes} :
    Json.Elements (Json.Value depth) documents (skipWs text) rest ↔
      Json.Elements (Json.Value depth) documents text rest := by
  constructor
  · intro elements
    cases elements with
    | last front element back => exact .last (ws_trans (ws_skipWs text) front) element back
    | more front element back rest =>
        exact .more (ws_trans (ws_skipWs text) front) element back rest
  · intro elements
    cases elements with
    | last front element back =>
        rw [skipWs_of_ws front (solid_of_value element)]
        exact .last .done element back
    | more front element back rest =>
        rw [skipWs_of_ws front (solid_of_value element)]
        exact .more .done element back rest

theorem members_skipWs {documents : List (List Char × Json.Document)} {text rest : Bytes} :
    Json.Members (Json.Value depth) documents (skipWs text) rest ↔
      Json.Members (Json.Value depth) documents text rest := by
  constructor
  · intro members
    cases members with
    | last front str colon space value back =>
        exact .last (ws_trans (ws_skipWs text) front) str colon space value back
    | more front str colon space value back rest =>
        exact .more (ws_trans (ws_skipWs text) front) str colon space value back rest
  · intro members
    cases members with
    | last front str colon space value back =>
        rw [skipWs_of_ws front (solid_of_str str)]
        exact .last .done str colon space value back
    | more front str colon space value back rest =>
        rw [skipWs_of_ws front (solid_of_str str)]
        exact .more .done str colon space value back rest

theorem parseArray_sound (accepts : Accepts depth child)
    (within : before.nodes ≤ kJsonMaximumNodes)
    (h : parseArray child path before = .ok (value, after)) :
    ∃ document, Json.Value (depth + 1) document (0x5b :: before.rest) after.rest ∧
      AllWithin document ∧ value = represent document ∧
      after.nodes + 1 = before.nodes + document.count ∧ after.nodes ≤ kJsonMaximumNodes := by
  have front := ws_skipWs before.rest
  unfold parseArray at h
  split at h
  · rename_i rest bracket
    rw [bracket] at front
    cases h
    refine ⟨.array [], .emptyArray front, allWithin_array.mpr (List.forall_mem_nil _), ?_, rfl,
      within⟩
    rw [represent_array]
    rfl
  · obtain ⟨documents, elements, all, rfl, counted, bound⟩ := arrayLoop_sound accepts h
    refine ⟨.array documents, .array (elements_skipWs.mp elements), allWithin_array.mpr all, ?_, ?_,
      bound⟩
    · rw [represent_array, List.nil_append]
    · rw [counted, count_array, Nat.add_assoc]

theorem parseObject_sound (accepts : Accepts depth child)
    (within : before.nodes ≤ kJsonMaximumNodes)
    (h : parseObject child path before = .ok (value, after)) :
    ∃ document, Json.Value (depth + 1) document (0x7b :: before.rest) after.rest ∧
      AllWithin document ∧ value = represent document ∧
      after.nodes + 1 = before.nodes + document.count ∧ after.nodes ≤ kJsonMaximumNodes := by
  have front := ws_skipWs before.rest
  unfold parseObject at h
  split at h
  · rename_i rest bracket
    rw [bracket] at front
    cases h
    refine ⟨.object [], .emptyObject front,
      allWithin_object.mpr ⟨List.nodup_nil, List.forall_mem_nil _⟩, ?_, rfl, within⟩
    rw [represent_object]
    rfl
  · have no_keys : (([] : List (Text × JsonValue)).map Prod.fst).Nodup := List.nodup_nil
    obtain ⟨documents, members, all, rfl, distinct, counted, bound⟩ :=
      objectLoop_sound accepts no_keys h
    refine ⟨.object documents, .object (members_skipWs.mp members),
      allWithin_object.mpr ⟨distinct, all⟩, ?_, ?_, bound⟩
    · rw [represent_object, List.nil_append]
    · rw [counted, count_object, Nat.add_assoc]

theorem parseArray_complete (accepts : Accepts depth child) {documents : List Json.Document}
    {text rest : Bytes} {nodes : Nat}
    (parsed : Json.Elements (Json.Value depth) documents text (0x5d :: rest))
    (within : ∀ document ∈ documents, AllWithin document)
    (bound : nodes + (documents.map Json.count).sum ≤ kJsonMaximumNodes) :
    parseArray child path { rest := text, nodes } = .ok (represent (.array documents),
      { rest, nodes := nodes + (documents.map Json.count).sum }) := by
  have element_first : ∀ after, skipWs text ≠ 0x5d :: after := by
    intro after bracket
    have elements := elements_skipWs.mpr parsed
    rw [bracket] at elements
    have starts {document a b} (space : Json.Ws (0x5d :: after) a)
        (element : Json.Value depth document a b) : False := by
      obtain ⟨c, more, rfl, -, no_bracket⟩ := value_head element
      cases space with
      | done => exact no_bracket rfl
      | skip space =>
          obtain h | h | h | h := space
          all_goals exact absurd h (by decide)
    cases elements with
    | last front element => exact starts front element
    | more front element => exact starts front element
  unfold parseArray
  split
  · rename_i after bracket
    exact (element_first after bracket).elim
  · rw [represent_array]
    exact arrayLoop_complete accepts (elements_skipWs.mpr parsed) within bound
      (Nat.lt_succ_self _)

theorem parseObject_complete (accepts : Accepts depth child)
    {documents : List (List Char × Json.Document)} {text rest : Bytes} {nodes : Nat}
    (parsed : Json.Members (Json.Value depth) documents text (0x7d :: rest))
    (within : ∀ member ∈ documents, MemberWithin member)
    (distinct : ((documents.map representMember).map Prod.fst).Nodup)
    (bound : nodes + (documents.map fun member => member.2.count).sum ≤ kJsonMaximumNodes) :
    parseObject child path { rest := text, nodes } = .ok (represent (.object documents),
      { rest, nodes := nodes + (documents.map fun member => member.2.count).sum }) := by
  have key_first : ∀ after, skipWs text ≠ 0x7d :: after := by
    intro after brace
    have members := members_skipWs.mpr parsed
    rw [brace] at members
    have starts {key a b} (space : Json.Ws (0x7d :: after) a) (str : Json.Str a key b) :
        False := by
      cases space with
      | done => cases str
      | skip space =>
          obtain h | h | h | h := space
          all_goals exact absurd h (by decide)
    cases members with
    | last front str => exact starts front str
    | more front str => exact starts front str
  unfold parseObject
  split
  · rename_i after brace
    exact (key_first after brace).elim
  · rw [represent_object]
    exact objectLoop_complete accepts (members_skipWs.mpr parsed) within distinct bound
      (Nat.lt_succ_self _)

theorem settled_parseArray (accepts : Accepts depth child) :
    Settled (parseArray child path before) := by
  unfold parseArray
  split
  · exact settled_ok _
  · exact settled_arrayLoop accepts (Nat.lt_succ_self _)

theorem settled_parseObject (accepts : Accepts depth child) :
    Settled (parseObject child path before) := by
  unfold parseObject
  split
  · exact settled_ok _
  · exact settled_objectLoop accepts (Nat.lt_succ_self _)

end Containers

/-! ### Values -/

section Dispatch

variable {depth : Nat} {child : Text → ParserState → Parse (JsonValue × ParserState)}
  {path : Text} {c : UInt8} {text rest : Bytes} {nodes : Nat}

theorem take_eq {word : Bytes} {n : Nat} (h : rest.take n = word) : rest = word ++ rest.drop n := by
  rw [← h, List.take_append_drop]

theorem parseDispatch_sound (accepts : Accepts depth child) {value : JsonValue}
    {after : ParserState} (within : nodes ≤ kJsonMaximumNodes)
    (h : parseDispatch child path c rest nodes = .ok (value, after)) :
    ∃ document, Json.Value (depth + 1) document (c :: rest) after.rest ∧ AllWithin document ∧
      value = represent document ∧ after.nodes + 1 = nodes + document.count ∧
      after.nodes ≤ kJsonMaximumNodes := by
  have leaf (document : Json.Document) (alone : document.values = [document])
      (limits : WithinLimits document) : AllWithin document := by
    rw [AllWithin, alone]
    exact List.forall_mem_singleton.mpr limits
  unfold parseDispatch at h
  simp only [beq_iff_eq] at h
  split at h
  · rename_i brace
    subst brace
    exact parseObject_sound accepts within h
  split at h
  · rename_i bracket
    subst bracket
    exact parseArray_sound accepts within h
  split at h
  · rename_i quote
    subst quote
    obtain ⟨⟨s, middle⟩, read, h⟩ := of_bind_eq_ok h
    obtain ⟨chars, rfl, characters, short⟩ := parseRawString_iff.mp read
    cases h
    exact ⟨.string chars, .string (.mk characters), leaf _ rfl short, rfl, rfl, within⟩
  split at h
  · rename_i t
    subst t
    split at h
    · rename_i word
      cases h
      rw [take_eq word]
      exact ⟨.boolean true, .true, leaf _ rfl trivial, rfl, rfl, within⟩
    · cases h
  split at h
  · rename_i f
    subst f
    split at h
    · rename_i word
      cases h
      rw [take_eq word]
      exact ⟨.boolean false, .false, leaf _ rfl trivial, rfl, rfl, within⟩
    · cases h
  split at h
  · rename_i n
    subst n
    split at h
    · rename_i word
      cases h
      rw [take_eq word]
      exact ⟨.null, .null, leaf _ rfl trivial, rfl, rfl, within⟩
    · cases h
  · obtain ⟨⟨number, middle⟩, read, h⟩ := of_bind_eq_ok h
    obtain ⟨number, parsed, fits, rfl⟩ := parseNumber_sound read
    cases h
    exact ⟨.number number, .number parsed, leaf _ rfl fits, rfl, rfl, within⟩

/-- A byte that starts a number starts no other value. -/
theorem parseDispatch_number (digit : c = 0x2d ∨ 0x30 ≤ c.toNat ∧ c.toNat ≤ 0x39) :
    parseDispatch child path c rest nodes = parseNumber path (c :: rest) >>= fun found =>
      .ok (.number found.1, { rest := found.2, nodes }) := by
  have other {d : UInt8} (out : d ≠ 0x2d) (above : ¬ (0x30 ≤ d.toNat ∧ d.toNat ≤ 0x39)) :
      ¬ (c == d) = true := by
    rw [beq_iff_eq]
    rintro rfl
    exact digit.elim out above
  rw [parseDispatch, if_neg (other (by decide) (by decide)),
    if_neg (other (by decide) (by decide)), if_neg (other (by decide) (by decide)),
    if_neg (other (by decide) (by decide)), if_neg (other (by decide) (by decide)),
    if_neg (other (by decide) (by decide))]
  rfl

theorem parseDispatch_complete (accepts : Accepts depth child) {document : Json.Document}
    (parsed : Json.Value (depth + 1) document (c :: text) rest) (within : AllWithin document)
    (bound : nodes + document.count ≤ kJsonMaximumNodes) (stops : Stops rest) :
    parseDispatch child path c text (nodes + 1) =
      .ok (represent document, { rest, nodes := nodes + document.count }) := by
  cases parsed with
  | null | true | false => rfl
  | number number =>
      have fits : FitsInt64 _ := within _ List.mem_cons_self
      obtain ⟨_, _, same, digit⟩ := number_head number
      cases same
      rw [parseDispatch_number digit]
      exact bind_ok (parseNumber_complete number stops fits)
  | @string chars _ _ str =>
      have short : (encode chars).length ≤ kJsonMaximumStringBytes := within _ List.mem_cons_self
      cases str with
      | mk characters =>
          exact bind_ok (parseRawString_iff.mpr ⟨chars, rfl, characters, short⟩)
  | emptyArray space =>
      have bracket := skipWs_of_ws space (solid_cons (by unfold Json.IsSpace; decide))
      change parseArray child path { rest := text, nodes := nodes + 1 } = _
      unfold parseArray
      dsimp only
      rw [bracket]
      rfl
  | emptyObject space =>
      have brace := skipWs_of_ws space (solid_cons (by unfold Json.IsSpace; decide))
      change parseObject child path { rest := text, nodes := nodes + 1 } = _
      unfold parseObject
      dsimp only
      rw [brace]
      rfl
  | @array documents _ _ elements =>
      have counted : nodes + (Json.array documents).count =
          nodes + 1 + (documents.map Json.count).sum := by
        rw [count_array]
        omega
      rw [counted] at bound ⊢
      exact parseArray_complete accepts elements (allWithin_array.mp within) bound
  | @object documents _ _ members =>
      have counted : nodes + (Json.object documents).count =
          nodes + 1 + (documents.map fun member => member.2.count).sum := by
        rw [count_object]
        omega
      rw [counted] at bound ⊢
      obtain ⟨distinct, all⟩ := allWithin_object.mp within
      exact parseObject_complete accepts members all distinct bound

theorem settled_parseDispatch (accepts : Accepts depth child) :
    Settled (parseDispatch child path c rest nodes) := by
  have word {p : Prop} [Decidable p] {found : JsonValue × ParserState} :
      Settled (if p then .ok found else invalid path) := by
    split
    · exact settled_ok _
    · exact settled_invalid
  unfold parseDispatch
  split
  · exact settled_parseObject accepts
  split
  · exact settled_parseArray accepts
  split
  · exact settled_bind settled_parseRawString fun _ _ => settled_ok _
  split
  · exact word
  split
  · exact word
  split
  · exact word
  · exact settled_bind settled_parseNumber fun _ _ => settled_ok _

end Dispatch

theorem one_le_count (document : Json.Document) : 1 ≤ document.count := by
  cases document
  all_goals exact Nat.succ_pos _

/-- Each level of the parser reads the values that nest as deep as it still allows. -/
theorem accepts_parseValue (depth : Nat) : Accepts depth (parseValue depth) := by
  induction depth with
  | zero =>
      exact {
        sound := fun h => nomatch h
        complete := fun _ parsed => parsed.elim
        settled := fun _ _ => settled_fail (by decide) }
  | succ depth ih =>
      refine { sound := ?_, complete := ?_, settled := ?_ }
      · intro path before after value h
        rw [parseValue] at h
        split at h
        · cases h
        rename_i room
        split at h
        · cases h
        rename_i c rest text
        obtain ⟨document, parsed, within, same, counted, bound⟩ :=
          parseDispatch_sound ih (by omega) h
        rw [← text] at parsed
        exact ⟨document, parsed, within, same, by omega, bound⟩
      · intro text rest nodes document path parsed within bound stops
        obtain ⟨c, text, rfl, -, -⟩ := value_head parsed
        have room : ¬ nodes ≥ kJsonMaximumNodes := by
          have := one_le_count document
          omega
        rw [parseValue]
        dsimp only
        rw [if_neg room]
        exact parseDispatch_complete ih parsed within bound stops
      · intro path state
        rw [parseValue]
        split
        · exact settled_fail (by decide)
        split
        · exact settled_invalid
        · exact settled_parseDispatch ih

/-- The parser reads a text if and only if it spells a document within the bounds. -/
theorem parseJson_ok_iff (text : Bytes) (value : JsonValue) :
    parseJson text = .ok value ↔ 1 ≤ text.length ∧ text.length ≤ 65536 ∧
      ∃ document, Json.Text 16 document text ∧ document.count ≤ 8192 ∧ AllWithin document ∧
        value = represent document := by
  have accepts := accepts_parseValue 16
  unfold parseJson
  split
  · rename_i empty
    obtain rfl := List.isEmpty_iff.mp empty
    exact ⟨(nomatch ·), fun h => absurd h.1 (by decide)⟩
  rename_i nonempty
  have some_text : 1 ≤ text.length := by
    cases text with
    | nil => exact absurd rfl nonempty
    | cons c text => exact Nat.succ_pos _
  split
  · rename_i long
    exact ⟨(nomatch ·), fun h => absurd h.2.1 (Nat.not_le.mpr long)⟩
  rename_i short
  constructor
  · intro h
    obtain ⟨⟨root, state⟩, read, h⟩ := of_bind_eq_ok h
    obtain ⟨document, parsed, within, rfl, counted, bound⟩ := accepts.sound read
    have back := ws_skipWs state.rest
    dsimp only at h counted
    split at h
    · cases h
    rename_i no_trailing
    cases h
    rw [Decidable.not_not.mp no_trailing] at back
    refine ⟨some_text, Nat.not_lt.mp short, document, ⟨_, _, ws_skipWs text, parsed, back⟩, ?_,
      within, rfl⟩
    rwa [counted, Nat.zero_add] at bound
  · rintro ⟨-, -, document, ⟨front, back, space, parsed, trailing⟩, bound, within, rfl⟩
    have stops : Stops back := stops_of_ws trailing stops_nil
    rw [← Nat.zero_add document.count] at bound
    rw [skipWs_of_ws space (solid_of_value parsed)]
    refine (bind_ok (accepts.complete [] parsed within bound stops)).trans ?_
    exact if_neg (not_not_intro (skipWs_of_ws trailing solid_nil))

theorem settled_parseJson (text : Bytes) : Settled (parseJson text) := by
  unfold parseJson
  split
  · exact settled_invalid
  split
  · exact settled_fail (by decide)
  · apply settled_bind ((accepts_parseValue 16).settled _ _)
    intro ⟨root, state⟩ _
    dsimp only
    split
    · exact settled_fail (by decide)
    · exact settled_ok _

/-- The parser accepts exactly its bounded grammar, returns what the text denotes, and
fails only with an error of its own. -/
theorem parseJson_accepts_grammar (text : Bytes) :
    (∀ value, parseJson text = .ok value ↔ 1 ≤ text.length ∧ text.length ≤ 65536 ∧
      ∃ document, Json.Text 16 document text ∧ document.count ≤ 8192 ∧ AllWithin document ∧
        value = represent document) ∧
      ∀ e, parseJson text = .error e → e.code ≠ .ok :=
  ⟨parseJson_ok_iff text, settled_parseJson text⟩

end DawnDock
