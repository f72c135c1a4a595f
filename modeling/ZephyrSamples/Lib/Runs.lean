/-
# ZephyrSamples.Lib.Runs -- runs given by the order of their steps

Where the parties of a program are deterministic, a run is told by who moves when: a list of steps, each a
function on states. `Along` asks something of every state of a run, `Steps` asks something of every step.
`along_of_steps` and `along_iff_steps` reduce the first to the second: an invariant carries a run as long as
its steps are good, and if a bad step shows, the good runs are all there are.

Nothing here names a program.
-/
import Mathlib.Init

namespace ZephyrSamples.Lib

universe u v

variable {σ : Type u} {ι : Type v} (step : σ → ι → σ)

/-- Every state of the run meets `P`. -/
def Along (P : σ → Prop) : σ → List ι → Prop
  | s, [] => P s
  | s, i :: is => P s ∧ Along P (step s i) is

/-- Every step of the run meets `Q`, which may ask about the state before it. -/
def Steps (Q : σ → ι → Prop) : σ → List ι → Prop
  | _, [] => True
  | s, i :: is => Q s i ∧ Steps Q (step s i) is

instance decidableAlong (P : σ → Prop) [DecidablePred P] (s : σ) (is : List ι) :
    Decidable (Along step P s is) :=
  match is with
  | [] => inferInstanceAs (Decidable (P s))
  | i :: is =>
      have : Decidable (Along step P (step s i) is) := decidableAlong P (step s i) is
      inferInstanceAs (Decidable (P s ∧ Along step P (step s i) is))

instance decidableSteps (Q : σ → ι → Prop) [∀ s i, Decidable (Q s i)] (s : σ) (is : List ι) :
    Decidable (Steps step Q s is) :=
  match is with
  | [] => inferInstanceAs (Decidable True)
  | i :: is =>
      have : Decidable (Steps step Q (step s i) is) := decidableSteps Q (step s i) is
      inferInstanceAs (Decidable (Q s i ∧ Steps step Q (step s i) is))

section Rules

variable {I P : σ → Prop} {Q : σ → ι → Prop} {s : σ}

/-- The first state of a run is one of its states. -/
theorem Along.head {is : List ι} (h : Along step P s is) : P s := by
  rcases is with _ | ⟨i, is⟩
  · exact h
  · exact h.1

variable {step} in
/-- So is the last. -/
theorem Along.last {is : List ι} (h : Along step P s is) : P (is.foldl step s) := by
  induction is generalizing s with
  | nil => exact h
  | cons i is ih => exact ih h.2

/-- The steps of a run that goes on. -/
theorem steps_append {is js : List ι} :
    Steps step Q s (is ++ js) ↔ Steps step Q s is ∧ Steps step Q (is.foldl step s) js := by
  induction is generalizing s with
  | nil => exact (and_iff_right trivial).symm
  | cons i is ih => exact (and_congr_right fun _ => ih).trans and_assoc.symm

/-- Where it does not depend on the state, each step is asked by itself. -/
theorem steps_iff_forall {R : ι → Prop} (h : ∀ s i, Q s i ↔ R i) (s : σ) (is : List ι) :
    Steps step Q s is ↔ ∀ i ∈ is, R i := by
  induction is generalizing s with
  | nil => exact iff_of_true trivial fun i hi => absurd hi List.not_mem_nil
  | cons i is ih =>
      rw [List.forall_mem_cons, ← h s i, ← ih (step s i)]
      rfl

/-- **The rule of good steps.** -/
theorem along_of_steps (hP : ∀ s, I s → P s) (hgood : ∀ s i, I s → Q s i → I (step s i)) (h : I s)
    {is : List ι} (hsteps : Steps step Q s is) : Along step P s is := by
  induction is generalizing s with
  | nil => exact hP s h
  | cons i is ih => exact ⟨hP s h, ih (hgood s i h hsteps.1) hsteps.2⟩

/-- **The rule of telling steps.** If besides a bad step is seen in the state it leads to, the good steps
are necessary too. -/
theorem along_iff_steps (hP : ∀ s, I s → P s) (hgood : ∀ s i, I s → Q s i → I (step s i))
    (hbad : ∀ s i, I s → P (step s i) → Q s i) (h : I s) (is : List ι) :
    Along step P s is ↔ Steps step Q s is := by
  constructor
  · intro halong
    induction is generalizing s with
    | nil => exact trivial
    | cons i is ih =>
        have hq : Q s i := hbad s i h halong.2.head
        exact ⟨hq, ih (hgood s i h hq) halong.2⟩
  · exact along_of_steps step hP hgood h

end Rules

end ZephyrSamples.Lib
