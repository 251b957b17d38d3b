import DawnDock.Library.CarryCounter
import Mathlib.Data.Set.Lattice
import Mathlib.Order.CompletePartialOrder
import Mathlib.Order.Interval.Set.Defs

/-!
The rotary encoder (`quadrature_encoder.cpp`).

A sample is a place in the Gray order, and a turn is the way from one sample to the next
(`turn`). The encoder is a carry counter of modulus 4 over the turns, with a gap wherever a
press or a diagonal jump makes the way unknown (`sample_tracks`). So it accounts for every
turn (`rotation_accounted`).
-/

namespace DawnDock

open CarryCounter

/-- The signed step between phases `A<<1 | B`; 2 is the impossible diagonal jump. -/
def kStep : Vector (Vector Int 4) 4 :=
  #v[#v[0, 1, -1, 2], #v[-1, 0, 2, 1], #v[1, 2, 0, -1], #v[2, -1, 1, 0]]

structure QuadratureEncoder where
  phase : Option (Fin 4) := none
  progress : Int := 0
  wasPressed : Bool := false
deriving DecidableEq, Repr

/-- The phase of a sample. -/
def phaseOf (aHigh bHigh : Bool) : Fin 4 := (if aHigh then 2 else 0) ||| (if bHigh then 1 else 0)

def QuadratureEncoder.sample (encoder : QuadratureEncoder) (aHigh bHigh pressed : Bool) :
    Option Int × QuadratureEncoder :=
  let phase := phaseOf aHigh bHigh
  match encoder.phase with
  -- the first sample only establishes a reference
  | none => (none, { encoder with phase := some phase, wasPressed := pressed })
  | some before =>
    if pressed then (none, { phase := some phase, progress := 0, wasPressed := true })
    else if encoder.wasPressed then
      (none, { phase := some phase, progress := 0, wasPressed := false })
    else
      let step := kStep[before][phase]
      if step = 0 then (none, encoder)
      else if step = 2 ∨ step = -2 then
        (none, { encoder with progress := 0, phase := some phase })
      else
        let progress := encoder.progress + step
        if progress = 4 then (some 1, { encoder with phase := some phase, progress := 0 })
        else if progress = -4 then (some (-1), { encoder with phase := some phase, progress := 0 })
        else (none, { encoder with phase := some phase, progress })

/-! ### Turns -/

structure EncoderSample where
  aHigh : Bool
  bHigh : Bool
  pressed : Bool
deriving DecidableEq, Repr

/-- The place in the Gray order 00, 01, 11, 10. -/
def EncoderSample.place (s : EncoderSample) : Int :=
  match s.aHigh, s.bHigh with
  | false, false => 0
  | false, true => 1
  | true, true => 2
  | true, false => 3

/-- Both contacts change at once. -/
def Diagonal (s t : EncoderSample) : Prop := s.aHigh ≠ t.aHigh ∧ s.bHigh ≠ t.bHigh

instance (s t : EncoderSample) : Decidable (Diagonal s t) := inferInstanceAs (Decidable (_ ∧ _))

/-- The way from one sample to the next around the Gray order. -/
def turn (s t : EncoderSample) : Int := Int.bmod (t.place - s.place) 4

/-- The net displacement from the first sample to the last. -/
def displacement : List EncoderSample → Int
  | s :: t :: rest => turn s t + displacement (t :: rest)
  | _ => 0

/-- A stretch without presses and diagonal jumps. -/
def Unbroken (stretch : List EncoderSample) : Prop :=
  (∀ s ∈ stretch, s.pressed = false) ∧ stretch.IsChain fun s t => ¬ Diagonal s t

/-! ### The encoder as a counter -/

namespace QuadratureEncoder

/-- The encoder's step on a sample. -/
def step (encoder : QuadratureEncoder) (s : EncoderSample) : Option Int × QuadratureEncoder :=
  encoder.sample s.aHigh s.bHigh s.pressed

abbrev after (encoder : QuadratureEncoder) (samples : List EncoderSample) : QuadratureEncoder :=
  Mealy.after step encoder samples

/-- What each sample emits. -/
abbrev events (encoder : QuadratureEncoder) (samples : List EncoderSample) : List (Option Int) :=
  Mealy.outputs step encoder samples

end QuadratureEncoder

/-- The turn into a sample, unless the way from the sample before it is unknown. -/
def movement (before : Option EncoderSample) (s : EncoderSample) : Option Int :=
  before.bind fun before =>
    if before.pressed || s.pressed || Diagonal before s then none else some (turn before s)

/-- Each sample's movement from the sample before it. -/
abbrev movements (before : Option EncoderSample) (samples : List EncoderSample) :
    List (Option Int) :=
  Mealy.outputs (fun before s => (movement before s, some s)) before samples

/-- The encoder behind a sample, with the sum of its counter. -/
structure CounterTracks (before : Option EncoderSample) (encoder : QuadratureEncoder) (sum : Int) :
    Prop where
  phase : encoder.phase = before.map fun before => phaseOf before.aHigh before.bHigh
  wasPressed : encoder.wasPressed = before.any (·.pressed)
  progress : encoder.progress = sum
  inside : -4 < sum ∧ sum < 4
  fresh : before = none → sum = 0

/-- The table holds the turns, and 2 for the diagonal jumps. -/
theorem kStep_eq (s t : EncoderSample) :
    kStep[phaseOf s.aHigh s.bHigh][phaseOf t.aHigh t.bHigh] =
      if Diagonal s t then 2 else turn s t := by
  obtain ⟨a, b, p⟩ := s
  obtain ⟨a', b', p'⟩ := t
  decide +revert

theorem turn_small {s t : EncoderSample} (adjacent : ¬ Diagonal s t) :
    -1 ≤ turn s t ∧ turn s t ≤ 1 := by
  obtain ⟨a, b, p⟩ := s
  obtain ⟨a', b', p'⟩ := t
  decide +revert

/-- Without a turn and a jump the phase stays. -/
theorem phaseOf_eq_of_turn {s t : EncoderSample} (adjacent : ¬ Diagonal s t)
    (still : turn s t = 0) : phaseOf t.aHigh t.bHigh = phaseOf s.aHigh s.bHigh := by
  obtain ⟨a, b, p⟩ := s
  obtain ⟨a', b', p'⟩ := t
  decide +revert

theorem movement_of_press {before : Option EncoderSample} {s : EncoderSample}
    (press : s.pressed = true) : movement before s = none := by
  cases before with
  | none => rfl
  | some before => simp [movement, press]

theorem movement_of_release {before s : EncoderSample} (held : before.pressed = true) :
    movement (some before) s = none := by
  simp [movement, held]

theorem movement_of_free {before s : EncoderSample} (before_free : before.pressed = false)
    (free : s.pressed = false) :
    movement (some before) s = if Diagonal before s then none else some (turn before s) := by
  simp [movement, before_free, free]

theorem movement_small {before : Option EncoderSample} {s : EncoderSample} :
    ∀ step ∈ movement before s, -1 ≤ step ∧ step ≤ 1 := by
  intro step moved
  cases before with
  | none => cases moved
  | some before =>
      change (if _ then none else _) = some step at moved
      split at moved
      · cases moved
      · rename_i clear
        cases moved
        simp only [Bool.or_eq_true, decide_eq_true_eq, not_or] at clear
        exact turn_small clear.2

/-- The encoder makes of a sample what its counter makes of the movement. -/
theorem sample_tracks {before : Option EncoderSample} {encoder : QuadratureEncoder} {sum : Int}
    (tracks : CounterTracks before encoder sum) (s : EncoderSample) :
    (encoder.step s).1 = (next 4 sum (movement before s)).1 ∧
      CounterTracks (some s) (encoder.step s).2 (next 4 sum (movement before s)).2 := by
  obtain ⟨phase, wasPressed, progress, inside, fresh⟩ := tracks
  have stays := next_lt (by omega) (@movement_small before s) inside
  unfold QuadratureEncoder.step QuadratureEncoder.sample
  rw [phase]
  cases before with
  | none =>
      refine ⟨rfl, rfl, rfl, ?_, stays, fun none => by cases none⟩
      rw [progress, fresh rfl]
      rfl
  | some before =>
      dsimp only [Option.map_some]
      by_cases press : s.pressed = true
      · rw [if_pos press]
        rw [movement_of_press press] at stays ⊢
        exact ⟨rfl, rfl, press.symm, rfl, stays, fun none => by cases none⟩
      rw [if_neg press]
      rw [Bool.not_eq_true] at press
      by_cases held : before.pressed = true
      · rw [if_pos (wasPressed.trans held)]
        rw [movement_of_release held] at stays ⊢
        exact ⟨rfl, rfl, press.symm, rfl, stays, fun none => by cases none⟩
      rw [if_neg (by rwa [wasPressed])]
      rw [Bool.not_eq_true] at held
      have free : encoder.wasPressed = s.pressed := by rw [wasPressed, press]; exact held
      rw [kStep_eq]
      rw [movement_of_free held press] at stays ⊢
      by_cases jump : Diagonal before s
      · simp only [jump, if_true] at stays ⊢
        exact ⟨rfl, rfl, free, rfl, stays, fun none => by cases none⟩
      simp only [jump, if_false] at stays ⊢
      have small := turn_small jump
      by_cases still : turn before s = 0
      · have kept : next 4 sum (some 0) = (none, sum) := by
          rw [next, Int.add_zero, if_neg (by omega), if_neg (by omega)]
        rw [still] at stays ⊢
        rw [kept] at stays ⊢
        refine ⟨rfl, ?_, free, progress, stays, fun none => by cases none⟩
        rw [if_pos rfl, phase, Option.map_some, Option.map_some, phaseOf_eq_of_turn jump still]
      rw [if_neg still, if_neg (by omega), progress]
      unfold next
      dsimp only
      split
      · exact ⟨rfl, rfl, free, rfl, by omega, fun none => by cases none⟩
      split
      · exact ⟨rfl, rfl, free, rfl, by omega, fun none => by cases none⟩
      · exact ⟨rfl, rfl, free, rfl, by omega, fun none => by cases none⟩

theorem run_tracks {before : Option EncoderSample} {encoder : QuadratureEncoder} {sum : Int}
    (tracks : CounterTracks before encoder sum) (samples : List EncoderSample) :
    encoder.events samples = carries 4 sum (movements before samples) ∧
      (encoder.after samples).progress = settle 4 sum (movements before samples) := by
  induction samples generalizing before encoder sum with
  | nil => exact ⟨rfl, tracks.progress⟩
  | cons s rest ih =>
      obtain ⟨emitted, tracks⟩ := sample_tracks tracks s
      obtain ⟨events, progress⟩ := ih tracks
      constructor
      · exact congrArg₂ List.cons emitted events
      · exact progress

theorem tracks_start : CounterTracks none {} 0 := ⟨rfl, rfl, rfl, by omega, fun _ => rfl⟩

/-- The encoder behind a sample is behind the last of its samples. -/
theorem after_tracks {before : Option EncoderSample} {encoder : QuadratureEncoder} {sum : Int}
    (tracks : CounterTracks before encoder sum) (samples : List EncoderSample) (last : EncoderSample) :
    CounterTracks (some last) (encoder.after (samples ++ [last]))
      (settle 4 sum (movements before (samples ++ [last]))) := by
  induction samples generalizing before encoder sum with
  | nil => exact (sample_tracks tracks last).2
  | cons s rest ih => exact ih (sample_tracks tracks s).2

/-! ### Stretches -/

/-- The movements of a stretch behind its first sample are its turns. -/
theorem movements_of_unbroken {s : EncoderSample} {rest : List EncoderSample}
    (unbroken : Unbroken (s :: rest)) :
    ∃ turns : List Int, movements (some s) rest = turns.map some ∧
      turns.sum = displacement (s :: rest) := by
  induction rest generalizing s with
  | nil => exact ⟨[], rfl, rfl⟩
  | cons t rest ih =>
      obtain ⟨free, adjacent⟩ := unbroken
      rw [List.forall_mem_cons] at free
      rw [List.isChain_cons_cons] at adjacent
      obtain ⟨turns, turns_eq, sum_eq⟩ := ih ⟨free.2, adjacent.2⟩
      have known : movement (some s) t = some (turn s t) := by
        rw [movement_of_free free.1 (free.2 t List.mem_cons_self), if_neg adjacent.1]
      refine ⟨turn s t :: turns, ?_, ?_⟩
      · exact congrArg₂ List.cons known turns_eq
      · rw [List.sum_cons, sum_eq, displacement]

theorem movement_eq_some {s t : EncoderSample} {moved : Int}
    (known : movement (some s) t = some moved) :
    s.pressed = false ∧ t.pressed = false ∧ ¬ Diagonal s t ∧ moved = turn s t := by
  change (if _ then none else _) = some moved at known
  split at known
  · cases known
  · rename_i clear
    cases known
    simp only [Bool.or_eq_true, decide_eq_true_eq, not_or, Bool.not_eq_true] at clear
    exact ⟨clear.1.1, clear.1.2, clear.2, rfl⟩

/-- Samples whose movements have no gap are a stretch. -/
theorem unbroken_of_movements {s : EncoderSample} {rest : List EncoderSample} {turns : List Int}
    (nonempty : rest ≠ []) (moved : movements (some s) rest = turns.map some) :
    Unbroken (s :: rest) ∧ displacement (s :: rest) = turns.sum := by
  induction rest generalizing s turns with
  | nil => exact absurd rfl nonempty
  | cons t rest ih =>
      obtain ⟨first, later, rfl, first_eq, later_eq⟩ := List.map_eq_cons_iff.mp moved.symm
      obtain ⟨s_free, t_free, adjacent, rfl⟩ := movement_eq_some first_eq.symm
      rw [displacement, List.sum_cons]
      by_cases last : rest = []
      · subst last
        obtain rfl := List.map_eq_nil_iff.mp later_eq
        refine ⟨⟨?_, ?_⟩, rfl⟩
        · simp [s_free, t_free]
        · rw [List.isChain_cons_cons]
          exact ⟨adjacent, .singleton _⟩
      · obtain ⟨⟨free, chain⟩, sum_eq⟩ := ih last later_eq.symm
        refine ⟨⟨?_, ?_⟩, by rw [sum_eq]⟩
        · exact List.forall_mem_cons.mpr ⟨s_free, free⟩
        · rw [List.isChain_cons_cons]
          exact ⟨adjacent, chain⟩

theorem movements_drop {samples : List EncoderSample} {k : Nat} {s : EncoderSample}
    (placed : samples[k]? = some s) (before : Option EncoderSample) :
    (movements before samples).drop (k + 1) = movements (some s) (samples.drop (k + 1)) := by
  induction samples generalizing before k with
  | nil => cases placed
  | cons first rest ih =>
      cases k with
      | zero =>
          cases placed
          rfl
      | succ k => exact ih placed (some first)

theorem movements_small {before : Option EncoderSample} {samples : List EncoderSample} :
    ∀ input ∈ movements before samples, ∀ step ∈ input, -1 ≤ step ∧ step ≤ 1 := by
  induction samples generalizing before with
  | nil => exact List.forall_mem_nil _
  | cons s rest ih => exact List.forall_mem_cons.mpr ⟨movement_small, ih⟩

/-! ### The account -/

/-- The samples from one index to another. -/
def stretchOf (samples : List EncoderSample) (first last : Nat) : List EncoderSample :=
  (samples.take (last + 1)).drop first

/-- A stretch that a detent has turned by, up to the sample that emits the event. -/
structure Detent (samples : List EncoderSample) (first last : Nat) (emitted : Int) : Prop where
  direction : emitted = 1 ∨ emitted = -1
  ordered : first < last
  unbroken : Unbroken (stretchOf samples first last)
  turned : displacement (stretchOf samples first last) = 4 * emitted

/-- An event has a stretch of its own, which starts at or behind the event before it. -/
theorem event_detent {samples : List EncoderSample} {e : Nat} {emitted : Int}
    (event : (({} : QuadratureEncoder).events samples)[e]? = some (some emitted)) :
    ∃ first, Detent samples first e emitted ∧
      ∀ earlier < e, ∀ other, (({} : QuadratureEncoder).events samples)[earlier]? =
        some (some other) → earlier ≤ first := by
  rw [(run_tracks tracks_start samples).1] at event ⊢
  obtain ⟨direction, start, within, turns, turns_eq, full, behind⟩ := carry_justified event
  rw [Mealy.outputs_take] at turns_eq
  have cut_length : (samples.take (e + 1)).length = e + 1 := by
    obtain ⟨placed, -⟩ := List.getElem?_eq_some_iff.mp event
    rw [Mealy.length_outputs, Mealy.length_outputs] at placed
    exact List.length_take_of_le placed
  generalize cut_eq : samples.take (e + 1) = cut at *
  cases start with
  | zero =>
      -- the first sample has no movement
      cases cut with
      | nil => cases cut_length
      | cons s rest =>
          obtain ⟨_, _, -, never, -⟩ := List.map_eq_cons_iff.mp turns_eq.symm
          cases never
  | succ first =>
      refine ⟨first, ?_, fun earlier sooner other fired =>
        Nat.le_of_lt_succ (behind earlier sooner other fired)⟩
      have placed : first < cut.length := by omega
      have reference := List.getElem?_eq_getElem placed
      rw [movements_drop reference] at turns_eq
      have nonempty : cut.drop (first + 1) ≠ [] := by
        rw [ne_eq, List.drop_eq_nil_iff]
        omega
      obtain ⟨unbroken, turned⟩ := unbroken_of_movements nonempty turns_eq
      rw [← List.drop_eq_getElem_cons placed, ← cut_eq] at unbroken turned
      constructor
      case direction => exact direction
      case ordered => exact within
      case unbroken => exact unbroken
      case turned => exact turned.trans full

/-- What the encoder says of the samples. -/
structure RotationAccounted (samples : List EncoderSample) : Prop where
  justified : ∃ first : Nat → Nat, ∀ e emitted,
    (({} : QuadratureEncoder).events samples)[e]? = some (some emitted) →
      Detent samples (first e) e emitted ∧
      ∀ e' emitted', (({} : QuadratureEncoder).events samples)[e']? = some (some emitted') →
        e' ≠ e → Disjoint (Set.Ioc (first e') e') (Set.Ioc (first e) e)
  conserved : ∀ before reference rest behind,
    samples = before ++ reference :: rest ++ behind → Unbroken (reference :: rest) →
      4 * total ((({} : QuadratureEncoder).after (before ++ [reference])).events rest) +
          ((({} : QuadratureEncoder).after (before ++ reference :: rest)).progress -
            (({} : QuadratureEncoder).after (before ++ [reference])).progress) =
        displacement (reference :: rest)
  bounded : -3 ≤ (({} : QuadratureEncoder).after samples).progress ∧
    (({} : QuadratureEncoder).after samples).progress ≤ 3

/-- Every event has its own stretch of a whole detent, and between presses and jumps events
and progress add up to the displacement. Stretches of events meet at most in the sample where
one ends and the next starts. -/
theorem rotation_accounted (samples : List EncoderSample) : RotationAccounted samples := by
  constructor
  case justified =>
    have detents : ∀ e, ∃ first, ∀ emitted,
        (({} : QuadratureEncoder).events samples)[e]? = some (some emitted) →
          Detent samples first e emitted ∧ ∀ earlier < e, ∀ other,
            (({} : QuadratureEncoder).events samples)[earlier]? = some (some other) →
              earlier ≤ first := by
      intro e
      by_cases event : ∃ emitted,
          (({} : QuadratureEncoder).events samples)[e]? = some (some emitted)
      · obtain ⟨emitted, event⟩ := event
        obtain ⟨first, detent, behind⟩ := event_detent event
        refine ⟨first, fun other same => ?_⟩
        rw [event] at same
        cases same
        exact ⟨detent, behind⟩
      · exact ⟨0, fun emitted same => absurd ⟨emitted, same⟩ event⟩
    choose first detents using detents
    refine ⟨first, fun e emitted event => ⟨(detents e emitted event).1, ?_⟩⟩
    intro e' emitted' event' apart
    rw [Set.disjoint_left]
    rintro i ⟨above', below'⟩ ⟨above, below⟩
    rcases Nat.lt_or_gt_of_ne apart with sooner | later
    · have := (detents e emitted event).2 e' sooner emitted' event'
      omega
    · have := (detents e' emitted' event').2 e later emitted event
      omega
  case conserved =>
    rintro before reference rest behind rfl unbroken
    have reached := after_tracks tracks_start before reference
    obtain ⟨turns, turns_eq, turned⟩ := movements_of_unbroken unbroken
    obtain ⟨events, progress⟩ := run_tracks reached rest
    have onward : ({} : QuadratureEncoder).after (before ++ reference :: rest) =
        (({} : QuadratureEncoder).after (before ++ [reference])).after rest := by
      rw [List.append_cons before reference rest]
      exact Mealy.after_append _ rest
    rw [onward, events, progress, reached.progress, turns_eq, conserves, turned]
  case bounded =>
    have progress := (run_tracks tracks_start samples).2
    have inside := @settle_lt 4 0 (by omega) _ (@movements_small none samples) (by omega)
    rw [progress]
    omega

end DawnDock
