import Mathlib.Data.List.Sort
import Mathlib.Data.List.Nodup

/-!
The difference of two lists whose elements have distinct keys.

An element of either side is new, dropped, replaced or kept, and its key is in one of the
four classes (`keys_nodup`, `mem_keys`); whatever drops, replaces and adds so has the new
side for its result (`mem_replay`). Sorted by key, a class does not depend on the order
of the sides (`sortByKey_eq_of_perm`).
-/

namespace KeyedDiff

section Sorting

variable {α κ : Type} [LE κ] [DecidableLE κ] [Std.IsLinearOrder κ] (key : α → κ)

/-- In increasing order of the keys. -/
def sortByKey (values : List α) : List α := values.insertionSort fun a b => key a ≤ key b

omit [Std.IsLinearOrder κ] in
theorem sortByKey_perm (values : List α) : (sortByKey key values).Perm values :=
  List.perm_insertionSort _ values

omit [Std.IsLinearOrder κ] in
theorem mem_sortByKey {values : List α} {a : α} : a ∈ sortByKey key values ↔ a ∈ values :=
  (sortByKey_perm key values).mem_iff

theorem sortByKey_pairwise (values : List α) :
    (sortByKey key values).Pairwise fun a b => key a ≤ key b := by
  have total : Std.Total fun a b => key a ≤ key b := ⟨fun a b => Std.le_total⟩
  have transitive : IsTrans α fun a b => key a ≤ key b := ⟨fun a b c => Std.le_trans⟩
  exact List.pairwise_insertionSort (fun a b => key a ≤ key b) values

/-- With distinct keys the sorted list does not depend on the order it is given in. -/
theorem sortByKey_eq_of_perm {values others : List α} (perm : values.Perm others)
    (distinct : (values.map key).Nodup) : sortByKey key values = sortByKey key others := by
  apply List.Perm.eq_of_pairwise _ (sortByKey_pairwise key values) (sortByKey_pairwise key others)
  · exact ((sortByKey_perm key values).trans perm).trans (sortByKey_perm key others).symm
  · intro a b left right before after
    apply List.inj_on_of_nodup_map distinct ((mem_sortByKey key).mp left)
    · exact perm.mem_iff.mpr ((mem_sortByKey key).mp right)
    · exact Std.le_antisymm before after

end Sorting

section Lookup

variable {α κ : Type} [DecidableEq κ] (key : α → κ)

/-- What a map holds under a key once the values have been put into it in their order. -/
def last (values : List α) (k : κ) : Option α := values.reverse.find? fun a => key a == k

variable {key} {values : List α} {k : κ} {a : α}

theorem last_eq_none : last key values k = none ↔ k ∉ values.map key := by
  rw [last, List.find?_eq_none, List.mem_map]
  constructor
  · rintro absent ⟨a, mem, rfl⟩
    exact absent a (List.mem_reverse.mpr mem) (beq_self_eq_true _)
  · intro absent a mem same
    exact absent ⟨a, List.mem_reverse.mp mem, beq_iff_eq.mp same⟩

theorem mem_of_last (found : last key values k = some a) : a ∈ values ∧ key a = k := by
  have same := List.find?_some found
  exact ⟨List.mem_reverse.mp (List.mem_of_find?_eq_some found), beq_iff_eq.mp same⟩

theorem last_eq_some (distinct : (values.map key).Nodup) :
    last key values k = some a ↔ a ∈ values ∧ key a = k := by
  constructor
  · exact mem_of_last
  · rintro ⟨mem, rfl⟩
    cases found : last key values (key a) with
    | none => exact absurd (List.mem_map_of_mem mem) (last_eq_none.mp found)
    | some b =>
        obtain ⟨listed, same⟩ := mem_of_last found
        rw [List.inj_on_of_nodup_map distinct listed mem same]

theorem last_perm {others : List α} (perm : values.Perm others)
    (distinct : (values.map key).Nodup) (k : κ) : last key values k = last key others k := by
  apply Option.ext
  intro a
  rw [last_eq_some distinct, last_eq_some ((perm.map key).nodup_iff.mp distinct), perm.mem_iff]

end Lookup

section Classes

variable {α κ : Type} {key : α → κ} {old new added removed replaced kept : List α}

/-- The elements of two lists by what became of them. -/
structure Classes (key : α → κ) (old new added removed replaced kept : List α) : Prop where
  added (a : α) : a ∈ added ↔ a ∈ new ∧ key a ∉ old.map key
  removed (a : α) : a ∈ removed ↔ a ∈ old ∧ key a ∉ new.map key
  replaced (a : α) : a ∈ replaced ↔ a ∈ new ∧ a ∉ old ∧ key a ∈ old.map key
  kept (a : α) : a ∈ kept ↔ a ∈ new ∧ a ∈ old

variable (classes : Classes key old new added removed replaced kept)
include classes

theorem mem_keys (k : κ) :
    k ∈ (added ++ removed ++ replaced ++ kept).map key ↔ k ∈ old.map key ∨ k ∈ new.map key := by
  rw [List.map_append, List.map_append, List.map_append, List.mem_append, List.mem_append,
    List.mem_append]
  constructor
  · rintro (((mem | mem) | mem) | mem)
    · obtain ⟨a, listed, rfl⟩ := List.mem_map.mp mem
      exact .inr (List.mem_map_of_mem ((classes.added a).mp listed).1)
    · obtain ⟨a, listed, rfl⟩ := List.mem_map.mp mem
      exact .inl (List.mem_map_of_mem ((classes.removed a).mp listed).1)
    · obtain ⟨a, listed, rfl⟩ := List.mem_map.mp mem
      exact .inr (List.mem_map_of_mem ((classes.replaced a).mp listed).1)
    · obtain ⟨a, listed, rfl⟩ := List.mem_map.mp mem
      exact .inr (List.mem_map_of_mem ((classes.kept a).mp listed).1)
  · intro either
    by_cases proposed : k ∈ new.map key
    · obtain ⟨a, mem, rfl⟩ := List.mem_map.mp proposed
      by_cases known : key a ∈ old.map key
      · by_cases same : a ∈ old
        · exact .inr (List.mem_map_of_mem ((classes.kept a).mpr ⟨mem, same⟩))
        · exact .inl (.inr (List.mem_map_of_mem ((classes.replaced a).mpr ⟨mem, same, known⟩)))
      · exact .inl (.inl (.inl (List.mem_map_of_mem ((classes.added a).mpr ⟨mem, known⟩))))
    · obtain ⟨a, mem, rfl⟩ := List.mem_map.mp (either.resolve_right proposed)
      exact .inl (.inl (.inr (List.mem_map_of_mem ((classes.removed a).mpr ⟨mem, proposed⟩))))

/-- No key is in two classes, and in none of them twice. -/
theorem keys_nodup (distinct : (new.map key).Nodup) (addedNodup : (added.map key).Nodup)
    (removedNodup : (removed.map key).Nodup) (replacedNodup : (replaced.map key).Nodup)
    (keptNodup : (kept.map key).Nodup) :
    ((added ++ removed ++ replaced ++ kept).map key).Nodup := by
  rw [List.map_append, List.map_append, List.map_append]
  apply List.Nodup.append
  · apply List.Nodup.append
    · apply List.Nodup.append addedNodup removedNodup
      intro k left right
      obtain ⟨a, mem, rfl⟩ := List.mem_map.mp left
      obtain ⟨b, dropped, same⟩ := List.mem_map.mp right
      exact ((classes.added a).mp mem).2
        (List.mem_map.mpr ⟨b, ((classes.removed b).mp dropped).1, same⟩)
    · exact replacedNodup
    · intro k left right
      obtain ⟨a, mem, rfl⟩ := List.mem_map.mp right
      obtain ⟨proposed, -, known⟩ := (classes.replaced a).mp mem
      rcases List.mem_append.mp left with other | other
      · obtain ⟨b, fresh, same⟩ := List.mem_map.mp other
        exact ((classes.added b).mp fresh).2 (same ▸ known)
      · obtain ⟨b, dropped, same⟩ := List.mem_map.mp other
        exact ((classes.removed b).mp dropped).2 (same ▸ List.mem_map_of_mem proposed)
  · exact keptNodup
  · intro k left right
    obtain ⟨a, mem, rfl⟩ := List.mem_map.mp right
    obtain ⟨proposed, known⟩ := (classes.kept a).mp mem
    rcases List.mem_append.mp left with either | other
    · rcases List.mem_append.mp either with other | other
      · obtain ⟨b, fresh, same⟩ := List.mem_map.mp other
        exact ((classes.added b).mp fresh).2 (same ▸ List.mem_map_of_mem known)
      · obtain ⟨b, dropped, same⟩ := List.mem_map.mp other
        exact ((classes.removed b).mp dropped).2 (same ▸ List.mem_map_of_mem proposed)
    · obtain ⟨b, changed, same⟩ := List.mem_map.mp other
      obtain ⟨listed, differs, -⟩ := (classes.replaced b).mp changed
      exact differs (List.inj_on_of_nodup_map distinct listed proposed same ▸ known)

/-- Drop, replace and add. -/
def replay (dropped : α → Bool) (update : α → α) (added old : List α) : List α :=
  (old.filter fun a => !dropped a).map update ++ added

theorem mem_replay {dropped : α → Bool} {update : α → α}
    (drops : ∀ a ∈ old, dropped a = true ↔ a ∈ removed)
    (updates : ∀ a ∈ old, ∀ b ∈ new, key b = key a → update a = b) (a : α) :
    a ∈ replay dropped update added old ↔ a ∈ new := by
  have survives (b : α) (mem : b ∈ old) : (!dropped b) = true ↔ key b ∈ new.map key := by
    rw [Bool.not_eq_true', ← Bool.not_eq_true, drops b mem, classes.removed b, not_and, not_not]
    exact ⟨fun stays => stays mem, fun stays _ => stays⟩
  rw [replay, List.mem_append, List.mem_map]
  constructor
  · rintro (⟨b, mem, rfl⟩ | fresh)
    · obtain ⟨known, stays⟩ := List.mem_filter.mp mem
      obtain ⟨c, proposed, same⟩ := List.mem_map.mp ((survives b known).mp stays)
      rw [updates b known c proposed same]
      exact proposed
    · exact ((classes.added a).mp fresh).1
  · intro proposed
    by_cases known : key a ∈ old.map key
    · obtain ⟨b, mem, same⟩ := List.mem_map.mp known
      have stays : key b ∈ new.map key := same ▸ List.mem_map_of_mem proposed
      exact .inl ⟨b, List.mem_filter.mpr ⟨mem, (survives b mem).mpr stays⟩,
        updates b mem a proposed same.symm⟩
    · exact .inr ((classes.added a).mpr ⟨proposed, known⟩)

end Classes

end KeyedDiff
