/-
# ZephyrSamples.Lib.Msgq -- bounded queues

A queue of fixed size whose operations never wait: `put` fails on a full queue and leaves it as it is,
`get` fails on an empty one. The bound is part of the type, so a queue that holds more than it may
cannot be built. `put_eq_some` and `get_eq_some` say all that a successful operation does.

Nothing here names a program.
-/
import Mathlib.Data.List.Basic

namespace ZephyrSamples.Lib

universe u

/-- At most `size` items, the oldest first. -/
structure Msgq (α : Type u) (size : Nat) where
  items : List α
  fits : items.length ≤ size
  deriving DecidableEq

namespace Msgq

variable {α : Type u} {size : Nat}

def empty : Msgq α size := ⟨[], Nat.zero_le size⟩

def numUsed (q : Msgq α size) : Nat := q.items.length

def numFree (q : Msgq α size) : Nat := size - q.items.length

def put (q : Msgq α size) (a : α) : Option (Msgq α size) :=
  if h : q.items.length < size then some ⟨q.items ++ [a], by
    rw [List.length_append, List.length_singleton]
    exact h⟩ else none

def get (q : Msgq α size) : Option (α × Msgq α size) :=
  match hq : q.items with
  | [] => none
  | a :: rest => some (a, ⟨rest, by
      have hfits := q.fits
      rw [hq, List.length_cons] at hfits
      exact Nat.le_of_succ_le hfits⟩)

theorem ext {q q' : Msgq α size} (h : q.items = q'.items) : q = q' := by
  obtain ⟨items, fits⟩ := q
  obtain ⟨items', fits'⟩ := q'
  obtain rfl : items = items' := h
  rfl

/-! ## `put` -/

/-- A full queue refuses. -/
theorem put_eq_none_iff {q : Msgq α size} {a : α} : q.put a = none ↔ q.numFree = 0 := by
  unfold put numFree
  have hfits := q.fits
  split_ifs with hroom
  · constructor
    · intro h
      cases h
    · intro h
      omega
  · constructor
    · intro _
      omega
    · intro _
      rfl

/-- One that does not takes the item behind the others. -/
theorem put_eq_some {q q' : Msgq α size} {a : α} (h : q.put a = some q') :
    q'.items = q.items ++ [a] := by
  unfold put at h
  split_ifs at h with hroom
  obtain rfl := Option.some.inj h
  rfl

theorem exists_put {q : Msgq α size} (h : 0 < q.numFree) (a : α) : ∃ q', q.put a = some q' := by
  apply Option.ne_none_iff_exists'.mp
  intro hnone
  rw [put_eq_none_iff] at hnone
  omega

/-! ## `get` -/

/-- An empty queue has nothing to give. -/
theorem get_eq_none_iff {q : Msgq α size} : q.get = none ↔ q.numUsed = 0 := by
  obtain ⟨items, fits⟩ := q
  rcases items with _ | ⟨a, rest⟩
  · exact iff_of_true rfl rfl
  · refine iff_of_false (fun h => by cases h) ?_
    exact Nat.succ_ne_zero rest.length

/-- One that has gives the oldest item. -/
theorem get_eq_some {q q' : Msgq α size} {a : α} (h : q.get = some (a, q')) :
    q.items = a :: q'.items := by
  obtain ⟨items, fits⟩ := q
  rcases items with _ | ⟨b, rest⟩
  · cases h
  · obtain ⟨rfl, rfl⟩ := Prod.mk.inj (Option.some.inj h)
    rfl

theorem exists_get {q : Msgq α size} (h : q.numUsed ≠ 0) : ∃ a q', q.get = some (a, q') := by
  obtain ⟨⟨a, q'⟩, hget⟩ := Option.ne_none_iff_exists'.mp (mt get_eq_none_iff.mp h)
  exact ⟨a, q', hget⟩

/-- The oldest item, spelled out. -/
theorem exists_get_of_cons {q : Msgq α size} {a : α} {rest : List α} (h : q.items = a :: rest) :
    ∃ q', q'.items = rest ∧ q.get = some (a, q') := by
  obtain ⟨items, fits⟩ := q
  obtain rfl : items = a :: rest := h
  exact ⟨_, rfl, rfl⟩

end Msgq

end ZephyrSamples.Lib
