/-
# ZephyrSamples.Lib.Transition -- labelled transition systems and their invariants

A `System` is a set of initial states and a step relation whose label says who moves. Programs made
of several threads are given this way: one label a thread, one constructor of the step relation an
atomic action. The module packages the inductions once: an invariant that holds initially and
survives every step holds in every reachable state (`Reachable.invariant`), a refinement mapping
carries runs to runs (`Reachable.project`), a scheduling discipline only removes behaviour
(`Reachable.of_restrict`), and a round that can be repeated can be repeated any number of times
(`Reachable.iterate`), which is how runs of unbounded length are built. What every run comes by if it
only goes on is `Inevitable`; a rank that every step lowers proves it (`Inevitable.of_rank`).

Nothing here names a program.
-/
import Mathlib.Init

namespace ZephyrSamples.Lib

universe u v w x

/-- A labelled transition system. -/
structure System (σ : Type u) (ℓ : Type v) where
  init : σ → Prop
  step : ℓ → σ → σ → Prop

namespace System

variable {σ : Type u} {ℓ : Type v} {S : System σ ℓ}

/-- The states of some finite run. -/
inductive Reachable (S : System σ ℓ) : σ → Prop
  | init {s : σ} : S.init s → Reachable S s
  | step {s t : σ} {l : ℓ} : Reachable S s → S.step l s t → Reachable S t

/-- **The invariant rule.** The step premise may use that the state is reachable, so invariants
can be proved one after the other. -/
theorem Reachable.invariant {I : σ → Prop} (hinit : ∀ s, S.init s → I s)
    (hstep : ∀ s t l, S.Reachable s → I s → S.step l s t → I t) {s : σ} (h : S.Reachable s) :
    I s := by
  induction h with
  | init h0 => exact hinit _ h0
  | step hr hs ih => exact hstep _ _ _ hr ih hs

/-- **The refinement rule.** A map that sends initial states to initial states, and every step to a
step or to no change, sends reachable states to reachable states. -/
theorem Reachable.project {τ : Type w} {m : Type x} {T : System τ m} (f : τ → σ)
    (hinit : ∀ t, T.init t → S.init (f t))
    (hstep : ∀ t t' k, T.step k t t' → f t' = f t ∨ ∃ l, S.step l (f t) (f t')) {t : τ}
    (h : T.Reachable t) : S.Reachable (f t) := by
  induction h with
  | init h0 => exact .init (hinit _ h0)
  | step _ hs ih =>
      rcases hstep _ _ _ hs with hsame | ⟨l, hl⟩
      · rw [hsame]
        exact ih
      · exact .step ih hl

/-- The same system under a scheduling discipline: a step needs the scheduler's leave. -/
def restrict (S : System σ ℓ) (allow : ℓ → σ → Prop) : System σ ℓ where
  init := S.init
  step l s t := allow l s ∧ S.step l s t

/-- A discipline removes behaviour and adds none. -/
theorem Reachable.of_restrict {allow : ℓ → σ → Prop} {s : σ}
    (h : (S.restrict allow).Reachable s) : S.Reachable s := by
  refine Reachable.project (S := S) (T := S.restrict allow) id (fun _ h0 => h0) ?_ h
  intro _ _ l hs
  exact Or.inr ⟨l, hs.2⟩

/-- A round that leads from every state of the family `P n` to one of `P (n + 1)` can be repeated
any number of times. -/
theorem Reachable.iterate {P : Nat → σ → Prop} {s : σ} (h : S.Reachable s) (h0 : P 0 s)
    (round : ∀ n t, S.Reachable t → P n t → ∃ t', S.Reachable t' ∧ P (n + 1) t') (n : Nat) :
    ∃ t, S.Reachable t ∧ P n t := by
  induction n with
  | zero => exact ⟨s, h, h0⟩
  | succ n ih =>
      obtain ⟨t, ht, hp⟩ := ih
      exact round n t ht hp

/-! ## Progress -/

/-- Every run from here comes by a state of `P`, and none is stuck before it does. -/
inductive Inevitable (S : System σ ℓ) (P : σ → Prop) : σ → Prop
  | now {s : σ} : P s → Inevitable S P s
  | later {s : σ} : (∃ l t, S.step l s t) → (∀ l t, S.step l s t → Inevitable S P t) →
      Inevitable S P s

/-- **The progress rule.** Outside `P` some step is possible, and every step leads to a lower rank. -/
theorem Inevitable.of_rank {P : σ → Prop} (R : Nat → σ → Prop)
    (hstep : ∀ n s, R n s → P s ∨
      ((∃ l t, S.step l s t) ∧ ∀ l t, S.step l s t → ∃ m, m < n ∧ R m t))
    {n : Nat} {s : σ} (h : R n s) : S.Inevitable P s := by
  induction n using Nat.strongRecOn generalizing s with
  | _ n ih =>
      rcases hstep n s h with hp | ⟨hmoves, hlower⟩
      · exact .now hp
      · refine .later hmoves fun l t hs => ?_
        obtain ⟨m, hm, hr⟩ := hlower l t hs
        exact ih m hm hr

end System

end ZephyrSamples.Lib
