/-
# ZephyrSamples.Lib.Wrap -- a buffer that is written over again

A writer stores symbol after symbol into a buffer and goes back to its first place when the last one is
written. What it has stored since it last did so, its `lap`, stands at the start of the buffer; whatever
stood there before has been written over as far as the lap goes, and is still there behind it.

Nothing here names a program.
-/
import Mathlib.Data.List.DropRight
import Mathlib.Logic.Function.Basic

namespace ZephyrSamples.Lib.Wrap

variable {α : Type*} {size : Nat} {l : List α}

/-- What has been written since the writer last went back, with `size` places to write to. -/
def lap (size : Nat) (written : List α) : List α := written.rtake (written.length % size)

theorem length_lap (size : Nat) (l : List α) : (lap size l).length = l.length % size := by
  have hle := Nat.mod_le l.length size
  unfold lap List.rtake
  rw [List.length_drop]
  omega

/-- Up to the first return it is all that was written. -/
theorem lap_of_lt (h : l.length < size) : lap size l = l := by
  unfold lap List.rtake
  rw [Nat.mod_eq_of_lt h, Nat.sub_self, List.drop_zero]

theorem mem_of_mem_lap {a : α} (h : a ∈ lap size l) : a ∈ l := List.mem_of_mem_drop h

/-- A symbol written in front of the last place extends the lap. -/
theorem lap_concat (a : α) (h : l.length % size + 1 < size) :
    lap size (l ++ [a]) = lap size l ++ [a] := by
  have hmod : (l ++ [a]).length % size = l.length % size + 1 := by
    rw [List.length_append, List.length_singleton, Nat.add_mod, Nat.mod_eq_of_lt (a := 1) (by omega),
      Nat.mod_eq_of_lt h]
  unfold lap
  rw [hmod, List.rtake_concat_succ]

/-- One written to the last place ends it. -/
theorem lap_concat_last (a : α) (h : l.length % size + 1 = size) : lap size (l ++ [a]) = [] := by
  have hmod : (l ++ [a]).length % size = 0 := by
    rw [List.length_append, List.length_singleton, ← Nat.div_add_mod l.length size, Nat.add_assoc, h,
      Nat.mul_add_mod, Nat.mod_self]
  unfold lap
  rw [hmod, List.rtake_zero]

/-! ## The buffer -/

/-- The first places of the buffer hold the list. -/
def Holds (buf : Nat → α) (l : List α) : Prop := ∀ i (h : i < l.length), buf i = l[i]

theorem holds_nil (buf : Nat → α) : Holds buf [] := fun i h => absurd h (Nat.not_lt_zero i)

/-- Writing behind the list leaves it, and extends it by what is written next to it. -/
theorem Holds.concat {buf : Nat → α} (h : Holds buf l) (a : α) :
    Holds (Function.update buf l.length a) (l ++ [a]) := by
  intro i hi
  rw [List.length_append, List.length_singleton] at hi
  rcases Nat.lt_succ_iff_lt_or_eq.mp hi with hlt | rfl
  · rw [Function.update_of_ne (Nat.ne_of_lt hlt), List.getElem_append_left hlt]
    exact h i hlt
  · rw [Function.update_self, List.getElem_concat_length rfl]

theorem Holds.update {buf : Nat → α} (h : Holds buf l) {k : Nat} (hk : l.length ≤ k) (a : α) :
    Holds (Function.update buf k a) l := by
  intro i hi
  rw [Function.update_of_ne (by omega)]
  exact h i hi

end ZephyrSamples.Lib.Wrap
