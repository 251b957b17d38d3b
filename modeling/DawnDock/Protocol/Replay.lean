import DawnDock.Protocol.MessageBody
import Mathlib.Data.Finset.Basic
import Mathlib.Data.Finset.Lattice.Lemmas
import Mathlib.Data.List.DropRight

/-!
Replay protection over whole message histories (`replay_protection`).

The window stands for a list: the ids of the messages accepted last, at most as many as
its capacity (`ReplayWindow.Holds`). Remembering a fresh id keeps that, and the gate
remembers an id exactly when it accepts the message, so the window of a history holds
what the history accepted (`history_holds`).
-/

namespace DawnDock

open ByteCodec

/-! ### Windows -/

namespace ReplayWindow

variable {window : ReplayWindow} {ids : List Text} {id : Text}

/-- List and set of the window hold the last of these ids, once each. -/
structure Holds (window : ReplayWindow) (ids : List Text) : Prop where
  order : window.order = ids.rtake window.capacity
  set : window.set = window.order.toFinset
  nodup : window.order.Nodup

theorem Holds.mem_iff (holds : window.Holds ids) : id ∈ window.set ↔ id ∈ window.order := by
  rw [holds.set, List.mem_toFinset]

theorem length_rtake_le {n : Nat} : (ids.rtake n).length ≤ n := by
  rw [List.rtake, List.length_drop]
  omega

theorem holds_nil (capacity : Nat) : Holds { capacity } [] := by
  constructor
  · exact (List.rtake_nil _).symm
  · rfl
  · exact List.nodup_nil

/-- The loop drops from the front of both until the list fits. -/
theorem evict_loop (nodup : ids.Nodup) :
    evict.loop window ids ids.toFinset =
      { window with order := ids.rtake window.capacity,
                    set := (ids.rtake window.capacity).toFinset } := by
  induction ids with
  | nil => rw [List.rtake_nil]; rfl
  | cons front rest ih =>
      obtain ⟨fresh, nodup⟩ := List.nodup_cons.mp nodup
      rw [evict.loop]
      by_cases long : (front :: rest).length > window.capacity
      · have erased : (front :: rest).toFinset.erase front = rest.toFinset := by
          rw [List.toFinset_cons, Finset.erase_insert]
          rwa [List.mem_toFinset]
        have dropped : (front :: rest).rtake window.capacity = rest.rtake window.capacity := by
          rw [List.length_cons] at long
          rw [List.rtake, List.rtake, List.length_cons, Nat.succ_sub (by omega),
            List.drop_succ_cons]
        rw [if_pos long, erased, ih nodup, dropped]
      · have kept : (front :: rest).rtake window.capacity = front :: rest := by
          rw [List.rtake, Nat.sub_eq_zero_of_le (Nat.not_lt.mp long), List.drop_zero]
        rw [if_neg long, kept]

theorem rtake_rtake_concat (n : Nat) :
    (ids.rtake n ++ [id]).rtake n = (ids ++ [id]).rtake n := by
  cases n with
  | zero => rw [List.rtake_zero, List.rtake_zero]
  | succ n =>
      rw [List.rtake_concat_succ, List.rtake_concat_succ, List.rtake_eq_reverse_take_reverse,
        List.rtake_eq_reverse_take_reverse, List.reverse_reverse, List.take_take,
        Nat.min_eq_left (Nat.le_succ n), ← List.rtake_eq_reverse_take_reverse]

theorem capacity_remember : (window.remember id).capacity = window.capacity := by
  have loop {order : List Text} {set : Finset Text} {window : ReplayWindow} :
      (evict.loop window order set).capacity = window.capacity := by
    induction order generalizing set with
    | nil => rfl
    | cons front rest ih =>
        rw [evict.loop]
        split
        · exact ih
        · rfl
  unfold remember
  split
  · rfl
  split
  · rfl
  · exact loop

/-- A fresh id is remembered, for the oldest one if the window is full. -/
theorem Holds.remember (holds : window.Holds ids) (fresh : id ∉ window.set) :
    (window.remember id).Holds (ids ++ [id]) := by
  by_cases none : window.capacity = 0
  · have same : window.remember id = window := by
      rw [ReplayWindow.remember, if_pos (beq_iff_eq.mpr none)]
    rw [same]
    refine ⟨?_, holds.set, holds.nodup⟩
    rw [holds.order, none, List.rtake_zero, List.rtake_zero]
  have extended : (window.order ++ [id]).Nodup := by
    rw [← List.concat_eq_append]
    exact (List.nodup_concat _ _).mpr ⟨fun mem => fresh (holds.mem_iff.mpr mem), holds.nodup⟩
  have inserted : insert id window.set = (window.order ++ [id]).toFinset := by
    rw [List.toFinset_append, ← holds.set, Finset.union_comm]
    rfl
  have remembered : window.remember id =
      { window with order := (ids ++ [id]).rtake window.capacity,
                    set := ((ids ++ [id]).rtake window.capacity).toFinset } := by
    rw [ReplayWindow.remember, if_neg (fun zero => none (beq_iff_eq.mp zero)), if_neg fresh, evict]
    dsimp only
    rw [inserted, ← rtake_rtake_concat, ← holds.order]
    exact evict_loop extended
  rw [remembered]
  refine ⟨rfl, rfl, ?_⟩
  rw [← rtake_rtake_concat, ← holds.order]
  exact extended.sublist (List.drop_sublist _ _)

/-- The ids of the window after a fresh one is remembered. -/
theorem Holds.entered (holds : window.Holds ids) (fresh : id ∉ window.set) (other : Text) :
    other ∉ window.set ∧ other ∈ (window.remember id).set ↔ other = id ∧ 0 < window.capacity := by
  have after := holds.remember fresh
  rw [after.mem_iff, after.order, capacity_remember, ← rtake_rtake_concat, ← holds.order,
    holds.mem_iff]
  cases capacity : window.capacity with
  | zero =>
      rw [List.rtake_zero]
      constructor
      · intro h
        cases h.2
      · intro h
        exact absurd h.2 (Nat.lt_irrefl 0)
  | succ n =>
      rw [List.rtake_concat_succ, List.mem_append, List.mem_singleton]
      constructor
      · rintro ⟨absent, mem | rfl⟩
        · exact absurd (List.mem_of_mem_drop mem) absent
        · exact ⟨rfl, Nat.succ_pos n⟩
      · rintro ⟨rfl, -⟩
        exact ⟨fun mem => fresh (holds.mem_iff.mpr mem), .inr rfl⟩

end ReplayWindow

/-! ### The gate and the window -/

section Gate

variable {envelope : ProtocolEnvelope} {bodyJson : Bytes} {replayWindow : Option ReplayWindow}

/-- The envelope gate asks of the window only whether it contains the id. -/
theorem envelopeResult_accepted :
    (envelopeResult envelope replayWindow).accepted = true ↔
      (envelopeResult envelope none).accepted = true ∧
        replayWindow.any (·.contains envelope.messageId) = false := by
  unfold envelopeResult
  simp only [Option.any_none, Bool.false_eq_true, if_false]
  repeat' split
  all_goals simp_all

/-- What the gate does with the window, and whether it accepts. -/
theorem validateProtocolMessage_eq :
    (validateProtocolMessage envelope bodyJson replayWindow).2 =
        (if (validateProtocolMessage envelope bodyJson replayWindow).1.accepted then
          replayWindow.map (·.remember envelope.messageId) else replayWindow) ∧
      ((validateProtocolMessage envelope bodyJson replayWindow).1.accepted = true ↔
        (envelopeResult envelope replayWindow).accepted = true ∧
          ∃ value, parseJson bodyJson = .ok value ∧
            (validateProtocolMessageBody value envelope.type).accepted = true) := by
  have unchanged : validateProtocolEnvelope envelope replayWindow false =
      (envelopeResult envelope replayWindow, replayWindow) := by
    unfold validateProtocolEnvelope
    dsimp only
    rw [Bool.and_false, if_neg Bool.false_ne_true]
  unfold validateProtocolMessage
  rw [unchanged]
  dsimp only
  split
  · rename_i rejected
    rw [Bool.not_eq_true'] at rejected
    simp [rejected]
  rename_i passed
  rw [Bool.not_eq_true', Bool.not_eq_false] at passed
  split
  · rename_i failed
    split
    · simp [failed]
    · simp [failed]
  · rename_i value parsed
    split
    · rename_i rejected
      rw [Bool.not_eq_true'] at rejected
      simp [parsed, rejected]
    · rename_i valid
      rw [Bool.not_eq_true', Bool.not_eq_false] at valid
      simp [parsed, passed, valid]

end Gate

/-! ### Histories -/

/-- A message as it is given to the gate. -/
structure Message where
  envelope : ProtocolEnvelope
  bodyJson : Bytes

namespace Message

variable {message resend : Message} {window : ReplayWindow}

def validate (message : Message) (replayWindow : Option ReplayWindow) :
    ProtocolMessageValidationResult × Option ReplayWindow :=
  validateProtocolMessage message.envelope message.bodyJson replayWindow

/-- The envelope and the body pass every check that does not concern the window. -/
def Valid (message : Message) : Prop :=
  (envelopeResult message.envelope none).accepted = true ∧
    ∃ value, parseJson message.bodyJson = .ok value ∧
      (validateProtocolMessageBody value message.envelope.type).accepted = true

theorem accepted_iff : (message.validate (some window)).1.accepted = true ↔
    message.Valid ∧ message.envelope.messageId ∉ window.set := by
  rw [validate, validateProtocolMessage_eq.2, envelopeResult_accepted, Valid, and_right_comm,
    Option.any_some, ReplayWindow.contains, decide_eq_false_iff_not]

theorem next_of_accepted (accepted : (message.validate (some window)).1.accepted = true) :
    (message.validate (some window)).2 = some (window.remember message.envelope.messageId) := by
  rw [validate] at accepted ⊢
  rw [validateProtocolMessage_eq.1, if_pos accepted]
  rfl

theorem next_of_rejected (rejected : (message.validate (some window)).1.accepted = false) :
    (message.validate (some window)).2 = some window := by
  rw [validate] at rejected ⊢
  rw [validateProtocolMessage_eq.1, rejected]
  rfl

end Message

/-- The window behind some messages, and the ids of those that were accepted. -/
structure History where
  window : ReplayWindow
  acceptedIds : List Text := []

namespace History

variable {history : History} {message : Message}

def receive (history : History) (message : Message) : History where
  window := (message.validate (some history.window)).2.getD history.window
  acceptedIds :=
    if (message.validate (some history.window)).1.accepted then
      history.acceptedIds ++ [message.envelope.messageId]
    else history.acceptedIds

/-- The messages one after the other, from a new window on. -/
def of (capacity : Nat) (messages : List Message) : History :=
  messages.foldl receive { window := { capacity } }

theorem receive_accepted
    (accepted : (message.validate (some history.window)).1.accepted = true) :
    history.receive message =
      { window := history.window.remember message.envelope.messageId
        acceptedIds := history.acceptedIds ++ [message.envelope.messageId] } := by
  rw [receive, Message.next_of_accepted accepted, if_pos accepted, Option.getD_some]

theorem receive_rejected
    (rejected : (message.validate (some history.window)).1.accepted = false) :
    history.receive message = history := by
  rw [receive, Message.next_of_rejected rejected, rejected]
  rfl

/-- The window of a history holds the last ids the history accepted. -/
theorem history_holds (capacity : Nat) (messages : List Message) :
    (of capacity messages).window.capacity = capacity ∧
      (of capacity messages).window.Holds (of capacity messages).acceptedIds := by
  induction messages using List.reverseRecOn with
  | nil => exact ⟨rfl, ReplayWindow.holds_nil capacity⟩
  | append_singleton messages message ih =>
      obtain ⟨same, holds⟩ := ih
      have step : of capacity (messages ++ [message]) =
          (of capacity messages).receive message := List.foldl_concat ..
      rw [step]
      cases accepted : (message.validate (some (of capacity messages).window)).1.accepted with
      | false =>
          rw [receive_rejected accepted]
          exact ⟨same, holds⟩
      | true =>
          rw [receive_accepted accepted]
          exact ⟨ReplayWindow.capacity_remember.trans same,
            holds.remember (Message.accepted_iff.mp accepted).2⟩

/-- Behind any messages, the window holds the ids accepted last, in a list and a set that
agree; the next message is accepted if it is valid and its id is none of these; its id
enters the window exactly if it is accepted; and if it is rejected, the window is left
as it was and a valid message with its id is still accepted. -/
theorem replay_protection (capacity : Nat) (messages : List Message) (message : Message) :
    let history := of capacity messages
    let result := (message.validate (some history.window)).1
    let next := (message.validate (some history.window)).2
    (history.window.order = history.acceptedIds.rtake capacity ∧ history.window.order.Nodup ∧
        history.window.set = history.window.order.toFinset ∧
        history.window.order.length ≤ capacity) ∧
      (result.accepted = true ↔
        message.Valid ∧ message.envelope.messageId ∉ history.acceptedIds.rtake capacity) ∧
      (∃ window, next = some window ∧ ∀ id, id ∉ history.window.set ∧ id ∈ window.set ↔
        id = message.envelope.messageId ∧ result.accepted = true ∧ 0 < capacity) ∧
      (result.accepted = false → next = some history.window ∧ ∀ resend : Message, resend.Valid →
        resend.envelope.messageId = message.envelope.messageId →
        message.envelope.messageId ∉ history.acceptedIds.rtake capacity →
        (resend.validate next).1.accepted = true) := by
  intro history result next
  obtain ⟨same, holds⟩ := history_holds capacity messages
  have order : history.window.order = history.acceptedIds.rtake capacity := by
    rw [← same]
    exact holds.order
  have mem_iff (id : Text) :
      id ∈ history.window.set ↔ id ∈ history.acceptedIds.rtake capacity := by
    rw [← order]
    exact holds.mem_iff
  refine ⟨⟨order, holds.nodup, holds.set, ?_⟩, ?_, ?_, ?_⟩
  · rw [order]
    exact ReplayWindow.length_rtake_le
  · rw [← mem_iff]
    exact Message.accepted_iff
  · cases accepted : result.accepted with
    | false =>
        refine ⟨history.window, Message.next_of_rejected accepted, fun id => ?_⟩
        constructor
        · rintro ⟨absent, mem⟩
          exact absurd mem absent
        · rintro ⟨-, impossible, -⟩
          cases impossible
    | true =>
        refine ⟨_, Message.next_of_accepted accepted, fun id => ?_⟩
        rw [holds.entered (Message.accepted_iff.mp accepted).2, same]
        constructor
        · rintro ⟨rfl, positive⟩
          exact ⟨rfl, rfl, positive⟩
        · rintro ⟨rfl, -, positive⟩
          exact ⟨rfl, positive⟩
  · intro rejected
    have unchanged : next = some history.window := Message.next_of_rejected rejected
    refine ⟨unchanged, fun resend valid same_id fresh => ?_⟩
    rw [unchanged]
    apply Message.accepted_iff.mpr
    refine ⟨valid, ?_⟩
    rwa [same_id, mem_iff]

end History

end DawnDock
