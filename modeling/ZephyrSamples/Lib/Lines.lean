/-
# ZephyrSamples.Lib.Lines -- a stream cut into terminated lines

`splitBy` reads a stream from left to right: a symbol of a given class completes the line in progress,
any other one extends it. Reading a stream in pieces is reading it at once (`splitBy_append`), so
whoever keeps the line in progress between two pieces reports the lines of the whole stream. `split` is
the case of one terminator.

The alphabet and the terminator are arbitrary.
-/
import Mathlib.Data.List.Basic
import Mathlib.Data.List.Induction

namespace ZephyrSamples.Lib.Lines

/-! ## Lines ended by a class of symbols -/

section Class

variable {α : Type*} (ends : α → Bool)

/-- The lines completed while reading, when `line` was in progress before, and the line in progress
afterwards. -/
def splitBy (line : List α) : List α → List (List α) × List α
  | [] => ([], line)
  | b :: bs =>
      if ends b then (line :: (splitBy [] bs).1, (splitBy [] bs).2) else splitBy (line ++ [b]) bs

/-- The lines of a stream. -/
def completeBy (stream : List α) : List (List α) := (splitBy ends [] stream).1

/-- What follows its last terminator. -/
def unfinishedBy (stream : List α) : List α := (splitBy ends [] stream).2

/-- Reading in two pieces is reading at once. -/
theorem splitBy_append (line xs ys : List α) :
    splitBy ends line (xs ++ ys) =
      ((splitBy ends line xs).1 ++ (splitBy ends (splitBy ends line xs).2 ys).1,
        (splitBy ends (splitBy ends line xs).2 ys).2) := by
  induction xs generalizing line with
  | nil => rfl
  | cons b bs ih =>
      simp only [List.cons_append, splitBy]
      split_ifs
      · rw [ih []]
        rfl
      · exact ih (line ++ [b])

/-- Reading on completes more lines and changes none. -/
theorem completeBy_prefix_append (xs ys : List α) : completeBy ends xs <+: completeBy ends (xs ++ ys) := by
  unfold completeBy
  rw [splitBy_append]
  exact List.prefix_append _ _

variable {ends}

theorem completeBy_concat_end (stream : List α) {b : α} (h : ends b = true) :
    completeBy ends (stream ++ [b]) = completeBy ends stream ++ [unfinishedBy ends stream] := by
  unfold completeBy unfinishedBy
  rw [splitBy_append]
  simp only [splitBy, h, if_true]

theorem unfinishedBy_concat_end (stream : List α) {b : α} (h : ends b = true) :
    unfinishedBy ends (stream ++ [b]) = [] := by
  unfold unfinishedBy
  rw [splitBy_append]
  simp only [splitBy, h, if_true]

/-- Symbols that end no line extend the line in progress. -/
theorem splitBy_of_forall (line : List α) {xs : List α} (h : ∀ b ∈ xs, ends b = false) :
    splitBy ends line xs = ([], line ++ xs) := by
  induction xs generalizing line with
  | nil => simp [splitBy]
  | cons b bs ih =>
      obtain ⟨hb, hbs⟩ := List.forall_mem_cons.mp h
      rw [splitBy, hb, if_neg Bool.false_ne_true, ih (line ++ [b]) hbs, List.append_assoc]
      rfl

theorem completeBy_append_of_forall (stream : List α) {xs : List α} (h : ∀ b ∈ xs, ends b = false) :
    completeBy ends (stream ++ xs) = completeBy ends stream := by
  rw [completeBy, splitBy_append, splitBy_of_forall _ h, List.append_nil]
  rfl

theorem unfinishedBy_append_of_forall (stream : List α) {xs : List α} (h : ∀ b ∈ xs, ends b = false) :
    unfinishedBy ends (stream ++ xs) = unfinishedBy ends stream ++ xs := by
  rw [unfinishedBy, splitBy_append, splitBy_of_forall _ h]
  rfl

theorem completeBy_concat (stream : List α) {b : α} (h : ¬ ends b = true) :
    completeBy ends (stream ++ [b]) = completeBy ends stream :=
  completeBy_append_of_forall stream (List.forall_mem_singleton.mpr (Bool.eq_false_iff.mpr h))

theorem unfinishedBy_concat (stream : List α) {b : α} (h : ¬ ends b = true) :
    unfinishedBy ends (stream ++ [b]) = unfinishedBy ends stream ++ [b] :=
  unfinishedBy_append_of_forall stream (List.forall_mem_singleton.mpr (Bool.eq_false_iff.mpr h))

/-- A line in progress is completed by one symbol more and a terminator. -/
theorem mem_completeBy_concat_concat (stream : List α) {b t : α} (hb : ¬ ends b = true)
    (ht : ends t = true) :
    unfinishedBy ends stream ++ [b] ∈ completeBy ends (stream ++ [b] ++ [t]) := by
  rw [completeBy_concat_end _ ht, unfinishedBy_concat _ hb]
  exact List.mem_append_right _ (List.mem_singleton_self _)

/-- What the symbols carry besides is carried along. -/
theorem splitBy_map {β : Type*} (f : β → α) (line xs : List β) :
    splitBy ends (line.map f) (xs.map f) =
      ((splitBy (fun b => ends (f b)) line xs).1.map (List.map f),
        (splitBy (fun b => ends (f b)) line xs).2.map f) := by
  induction xs generalizing line with
  | nil => rfl
  | cons b bs ih =>
      simp only [List.map_cons, splitBy]
      split_ifs
      · rw [show ([] : List α) = ([] : List β).map f from rfl, ih []]
        rfl
      · rw [← ih (line ++ [b]), List.map_append]
        rfl

/-- A line holds nothing but symbols of the stream. -/
theorem mem_of_mem_unfinishedBy {stream : List α} {b : α} (h : b ∈ unfinishedBy ends stream) :
    b ∈ stream := by
  induction stream using List.reverseRecOn with
  | nil => cases h
  | append_singleton stream x ih =>
      by_cases hx : ends x = true
      · rw [unfinishedBy_concat_end stream hx] at h
        cases h
      · rw [unfinishedBy_concat stream hx] at h
        rcases List.mem_append.mp h with hold | hnew
        · exact List.mem_append_left _ (ih hold)
        · exact List.mem_append_right _ hnew

theorem mem_of_mem_completeBy {stream line : List α} {b : α} (hline : line ∈ completeBy ends stream)
    (hb : b ∈ line) : b ∈ stream := by
  induction stream using List.reverseRecOn with
  | nil => cases hline
  | append_singleton stream x ih =>
      by_cases hx : ends x = true
      · rw [completeBy_concat_end stream hx] at hline
        rcases List.mem_append.mp hline with hold | hnew
        · exact List.mem_append_left _ (ih hold)
        · rw [List.mem_singleton.mp hnew] at hb
          exact List.mem_append_left _ (mem_of_mem_unfinishedBy hb)
      · rw [completeBy_concat stream hx] at hline
        exact List.mem_append_left _ (ih hline)

end Class

/-! ## Lines ended by one symbol -/

section Term

variable {α : Type*} [DecidableEq α] (term : α)

/-- The lines completed while reading, when `line` was in progress before, and the line in progress
afterwards. -/
def split (line stream : List α) : List (List α) × List α := splitBy (fun b => decide (b = term)) line stream

/-- The lines of a stream. -/
def complete (stream : List α) : List (List α) := completeBy (fun b => decide (b = term)) stream

/-- What follows its last terminator. -/
def unfinished (stream : List α) : List α := unfinishedBy (fun b => decide (b = term)) stream

theorem complete_eq_completeBy (stream : List α) :
    complete term stream = completeBy (fun b => decide (b = term)) stream := rfl

theorem unfinished_eq_unfinishedBy (stream : List α) :
    unfinished term stream = unfinishedBy (fun b => decide (b = term)) stream := rfl

variable {term}

theorem decide_eq_of_notMem {xs : List α} (h : term ∉ xs) : ∀ b ∈ xs, decide (b = term) = false := by
  intro b hb
  exact decide_eq_false fun heq => h (heq ▸ hb)

variable (term)

/-- A piece without terminator completes nothing. -/
theorem complete_append_of_notMem (stream : List α) {xs : List α} (h : term ∉ xs) :
    complete term (stream ++ xs) = complete term stream :=
  completeBy_append_of_forall stream (decide_eq_of_notMem h)

theorem unfinished_append_of_notMem (stream : List α) {xs : List α} (h : term ∉ xs) :
    unfinished term (stream ++ xs) = unfinished term stream ++ xs :=
  unfinishedBy_append_of_forall stream (decide_eq_of_notMem h)

/-- A terminator completes the line in progress. -/
theorem complete_append_term (stream : List α) :
    complete term (stream ++ [term]) = complete term stream ++ [unfinished term stream] :=
  completeBy_concat_end stream (decide_eq_true rfl)

theorem unfinished_append_term (stream : List α) : unfinished term (stream ++ [term]) = [] :=
  unfinishedBy_concat_end stream (decide_eq_true rfl)

end Term

end ZephyrSamples.Lib.Lines
