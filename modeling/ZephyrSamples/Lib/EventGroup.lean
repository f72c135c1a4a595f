/-
# ZephyrSamples.Lib.EventGroup -- event objects

An event object is a word of bits. A thread waits for any of the bits of a mask or for all of them; what
happens to the bits when it calls and when it is served is a matter of its options. `serve` is the test a
waiter undergoes, at its call and again whenever bits have changed; `call` may clear the word before it.
The bits somebody is interested in are compared with those of the word by `Within`.

Nothing here names a program.
-/
import Mathlib.Init

namespace ZephyrSamples.Lib

/-- How a thread waits. -/
structure WaitOptions where
  /-- for all the bits of the mask, not for any of them -/
  all : Bool
  /-- the call clears the word before it tests or blocks -/
  reset : Bool
  /-- the bits returned are cleared in the same step -/
  clear : Bool
  deriving DecidableEq, Repr

namespace WaitOptions

variable {w : Nat} (o : WaitOptions) (mask events : BitVec w)

/-- The wait is over. -/
def met : Bool := if o.all then events &&& mask == mask else events &&& mask != 0#w

/-- The bits returned, if the wait is over, and the word afterwards. -/
def serve : Option (BitVec w) × BitVec w :=
  if o.met mask events then
    (some (events &&& mask), if o.clear then events &&& ~~~(events &&& mask) else events)
  else (none, events)

/-- The call of the waiting thread: it returns at once or blocks. -/
def call : Option (BitVec w) × BitVec w := o.serve mask (if o.reset then 0#w else events)

variable {o mask events}

theorem serve_of_met (h : o.met mask events = true) :
    o.serve mask events =
      (some (events &&& mask), if o.clear then events &&& ~~~(events &&& mask) else events) :=
  if_pos h

theorem serve_of_not_met (h : ¬ o.met mask events = true) : o.serve mask events = (none, events) :=
  if_neg h

/-- With the word cleared first, a call for a bit or more always blocks. -/
theorem call_of_reset (hreset : o.reset = true) (hmask : mask ≠ 0#w) :
    o.call mask events = (none, 0#w) := by
  unfold call
  rw [hreset, if_pos rfl]
  apply serve_of_not_met
  unfold met
  rw [BitVec.zero_and]
  split
  · simpa using Ne.symm hmask
  · simp

end WaitOptions

/-! ## Bits that are set -/

section Within

variable {w : Nat}

/-- Every bit of `u` is set in `events`. -/
def Within (u events : BitVec w) : Prop := u &&& events = u

instance (u events : BitVec w) : Decidable (Within u events) := decEq _ _

variable {u v e m : BitVec w}

theorem within_iff : Within u e ↔ ∀ i, u.getLsbD i = true → e.getLsbD i = true := by
  constructor
  · intro h i hi
    have hbit := congrArg (BitVec.getLsbD · i) h
    simp only [BitVec.getLsbD_and, hi, Bool.true_and] at hbit
    exact hbit
  · intro h
    apply BitVec.eq_of_getLsbD_eq
    intro i _
    rw [BitVec.getLsbD_and]
    rcases hi : u.getLsbD i with _ | _
    · rfl
    · rw [h i hi]
      rfl

theorem zero_within (e : BitVec w) : Within 0#w e := BitVec.zero_and

/-- Setting the same bits in both. -/
theorem Within.or (h : Within u e) (b : BitVec w) : Within (u ||| b) (e ||| b) := by
  rw [within_iff] at h ⊢
  intro i hi
  rw [BitVec.getLsbD_or] at hi ⊢
  rcases hb : b.getLsbD i with _ | _
  · rw [hb, Bool.or_false] at hi
    rw [h i hi]
    rfl
  · exact Bool.or_true _

theorem Within.union (h : Within u e) (h' : Within v e) : Within (u ||| v) e := by
  rw [within_iff] at h h' ⊢
  intro i hi
  rw [BitVec.getLsbD_or, Bool.or_eq_true] at hi
  rcases hi with hi | hi
  · exact h i hi
  · exact h' i hi

/-- Taking bits from one of them only. -/
theorem within_diff_iff (h : Within u e) : Within u (e &&& ~~~m) ↔ u &&& m = 0#w := by
  rw [within_iff] at h ⊢
  constructor
  · intro hall
    apply BitVec.eq_of_getLsbD_eq
    intro i hi
    rw [BitVec.getLsbD_and, BitVec.getLsbD_zero]
    rcases hu : u.getLsbD i with _ | _
    · rfl
    · have hbit := hall i hu
      simp only [BitVec.getLsbD_and, BitVec.getLsbD_not, Bool.and_eq_true, Bool.not_eq_true'] at hbit
      rw [hbit.2.2]
      rfl
  · intro hzero i hu
    have hlt : i < w := BitVec.lt_of_getLsbD hu
    have hbit := congrArg (BitVec.getLsbD · i) hzero
    simp only [BitVec.getLsbD_and, hu, Bool.true_and, BitVec.getLsbD_zero] at hbit
    rw [BitVec.getLsbD_and, BitVec.getLsbD_not, h i hu, hbit, decide_eq_true hlt]
    rfl

/-- What is within two words is gone when their common bits are. -/
theorem diff_and_eq_zero (he : Within u e) (hm : Within u m) : u &&& ~~~(e &&& m) = 0#w := by
  rw [within_iff] at he hm
  apply BitVec.eq_of_getLsbD_eq
  intro i _
  rcases hu : u.getLsbD i with _ | _
  · simp [hu]
  · simp [he i hu, hm i hu]

end Within

end ZephyrSamples.Lib
