/-
# ZephyrSamples.Lib.Pieces -- output assembled piece by piece

A sequence of pieces is turned into output by a function that may lose some of what each piece owes but
adds nothing. Then nothing is lost on the whole exactly if nothing is lost of any piece: what is
missing from one piece cannot be made up for by another.

A producer that counts owes the values of a sequence in order. What has been delivered of them, as long
as it is a beginning, is told by its length alone (`eq_numbered_of_prefix`).
-/
import Mathlib.Data.List.Flatten
import Mathlib.Data.List.Forall2
import Mathlib.Data.List.Range

namespace ZephyrSamples.Lib.Pieces

variable {α β : Type*} {f g : α → List β} {l : List α}

/-- Losing from each piece is losing from the whole. -/
theorem flatMap_sublist (h : ∀ x ∈ l, (f x).Sublist (g x)) : (l.flatMap f).Sublist (l.flatMap g) := by
  induction l with
  | nil => exact List.Sublist.refl _
  | cons x xs ih =>
      obtain ⟨hx, hxs⟩ := List.forall_mem_cons.mp h
      exact hx.append (ih hxs)

/-- **Whole and pieces.** -/
theorem flatMap_eq_iff (h : ∀ x ∈ l, (f x).Sublist (g x)) :
    l.flatMap f = l.flatMap g ↔ ∀ x ∈ l, f x = g x := by
  induction l with
  | nil => simp
  | cons x xs ih =>
      obtain ⟨hx, hxs⟩ := List.forall_mem_cons.mp h
      rw [List.forall_mem_cons, ← ih hxs, List.flatMap_cons, List.flatMap_cons]
      constructor
      · intro heq
        -- neither part can be longer than its counterpart, so neither is shorter
        have hlen := congrArg List.length heq
        rw [List.length_append, List.length_append] at hlen
        have hhead := hx.length_le
        have htail := (flatMap_sublist hxs).length_le
        have hpiece : f x = g x := hx.eq_of_length (by omega)
        rw [hpiece] at heq
        exact ⟨hpiece, List.append_cancel_left heq⟩
      · rintro ⟨hhead, htail⟩
        rw [hhead, htail]

/-- Leaving pieces out loses nothing exactly if those left out are empty. -/
theorem flatMap_filter_eq_iff (keep : α → Bool) (f : α → List β) (l : List α) :
    (l.filter keep).flatMap f = l.flatMap f ↔ ∀ x ∈ l, f x ≠ [] → keep x = true := by
  have hfilter : (l.filter keep).flatMap f = l.flatMap fun x => if keep x then f x else [] := by
    induction l with
    | nil => rfl
    | cons x xs ih =>
        cases hx : keep x with
        | true => simp [hx, ih]
        | false => simp [hx, ih]
  rw [hfilter, flatMap_eq_iff]
  · refine forall₂_congr fun x _ => ?_
    cases keep x with
    | true => simp
    | false => simp [eq_comm]
  · intro x _
    cases keep x with
    | true => exact List.Sublist.refl _
    | false => exact List.nil_sublist _

/-! ## Corresponding pieces -/

/-- Each piece has its counterpart. -/
theorem exists_of_mem_left {R : α → β → Prop} {xs : List α} {ys : List β}
    (h : List.Forall₂ R xs ys) {a : α} (ha : a ∈ xs) : ∃ b ∈ ys, R a b := by
  obtain ⟨i, hi, rfl⟩ := List.mem_iff_getElem.mp ha
  have hi' : i < ys.length := h.length_eq ▸ hi
  exact ⟨ys[i], List.getElem_mem hi', h.get hi hi'⟩

theorem exists_of_mem_right {R : α → β → Prop} {xs : List α} {ys : List β}
    (h : List.Forall₂ R xs ys) {b : β} (hb : b ∈ ys) : ∃ a ∈ xs, R a b :=
  exists_of_mem_left (R := flip R) h.flip hb

/-! ## Numbered output -/

/-- The first `n` values of a sequence. -/
def numbered (v : Nat → β) (n : Nat) : List β := (List.range n).map v

theorem numbered_succ (v : Nat → β) (n : Nat) : numbered v (n + 1) = numbered v n ++ [v n] := by
  unfold numbered
  rw [List.range_succ, List.map_append]
  rfl

theorem length_numbered (v : Nat → β) (n : Nat) : (numbered v n).length = n := by
  rw [numbered, List.length_map, List.length_range]

theorem numbered_prefix (v : Nat → β) {k n : Nat} (h : k ≤ n) : numbered v k <+: numbered v n := by
  obtain ⟨d, rfl⟩ := Nat.exists_eq_add_of_le h
  rw [numbered, numbered, List.range_add, List.map_append]
  exact List.prefix_append _ _

/-- A beginning of them is the first values, as many as it has. -/
theorem eq_numbered_of_prefix {v : Nat → β} {out : List β} {n : Nat} (h : out <+: numbered v n) :
    out = numbered v out.length := by
  have hle := h.length_le
  rw [length_numbered] at hle
  have htake : out = (numbered v n).take out.length := List.prefix_iff_eq_take.mp h
  rw [numbered, ← List.map_take, List.take_range, Nat.min_eq_left hle] at htake
  exact htake

end ZephyrSamples.Lib.Pieces
