/-
# ZephyrSamples.Lib.Monitor -- what a system can write

A system writes a log, a letter at a time. A monitor is a deterministic automaton that reads one and says of each
letter whether it may come next. If the monitor follows the system step by step, it accepts every log
(`run_of_reachable`); if besides the system can be brought to write whatever the monitor allows, the logs are
exactly what the monitor accepts (`logs_iff`).

Nothing here names a program.
-/
import ZephyrSamples.Lib.Transition
import Mathlib.Data.List.Induction

namespace ZephyrSamples.Lib

universe u v w x

structure Monitor (σ : Type u) (α : Type v) where
  start : σ
  next : σ → α → Option σ

namespace Monitor

variable {σ : Type u} {α : Type v} (M : Monitor σ α)

/-- The state after a log, if it is accepted. -/
def run (log : List α) : Option σ := log.foldlM M.next M.start

def Accepts (log : List α) : Prop := (M.run log).isSome

instance (log : List α) : Decidable (M.Accepts log) := inferInstanceAs (Decidable (_ = true))

variable {M}

theorem run_concat (log : List α) (a : α) : M.run (log ++ [a]) = (M.run log).bind fun m => M.next m a := by
  unfold run
  rw [List.foldlM_append]
  rcases log.foldlM M.next M.start with _ | m
  · rfl
  · exact bind_pure (M.next m a)

/-- An accepted log with a letter behind it. -/
theorem accepts_concat {log : List α} {a : α} (h : M.Accepts (log ++ [a])) :
    ∃ m n, M.run log = some m ∧ M.next m a = some n := by
  unfold Accepts at h
  rw [run_concat] at h
  rcases hrun : M.run log with _ | m
  · rw [hrun] at h
    cases h
  · rw [hrun] at h
    exact ⟨m, (M.next m a).get h, rfl, Option.some_get h |>.symm⟩

variable {τ : Type w} {ℓ : Type x} {S : System τ ℓ} {log : τ → List α} {abs : τ → σ}

/-- **The monitor follows.** Every step writes nothing and leaves what the monitor sees, or writes a letter that
the monitor allows. -/
theorem run_of_reachable (hinit : ∀ s, S.init s → log s = [] ∧ abs s = M.start)
    (hstep : ∀ s t l, S.Reachable s → S.step l s t →
      (log t = log s ∧ abs t = abs s) ∨ ∃ a, log t = log s ++ [a] ∧ M.next (abs s) a = some (abs t))
    {s : τ} (h : S.Reachable s) : M.run (log s) = some (abs s) := by
  apply h.invariant
  · intro s hs
    obtain ⟨hlog, habs⟩ := hinit s hs
    rw [hlog, habs]
    rfl
  · intro s t l hs ih hst
    rcases hstep s t l hs hst with ⟨hlog, habs⟩ | ⟨a, hlog, hnext⟩
    · rw [hlog, habs]
      exact ih
    · rw [hlog, run_concat, ih]
      exact hnext

/-- **The system can do it all.** From every state that is ready whatever the monitor allows can be written. -/
theorem log_of_accepts (Ready : τ → Prop) (hinit : ∃ s, S.init s ∧ Ready s ∧ log s = [])
    (hfollows : ∀ s, S.Reachable s → M.run (log s) = some (abs s))
    (hnext : ∀ s a m, S.Reachable s → Ready s → M.next (abs s) a = some m →
      ∃ t, S.Reachable t ∧ Ready t ∧ log t = log s ++ [a])
    {l : List α} (h : M.Accepts l) : ∃ s, S.Reachable s ∧ Ready s ∧ log s = l := by
  induction l using List.reverseRecOn with
  | nil =>
      obtain ⟨s, hs, hready, hlog⟩ := hinit
      exact ⟨s, .init hs, hready, hlog⟩
  | append_singleton l a ih =>
      obtain ⟨m, n, hrun, hallowed⟩ := accepts_concat h
      have haccepts : M.Accepts l := by
        unfold Accepts
        rw [hrun]
        rfl
      obtain ⟨s, hs, hready, rfl⟩ := ih haccepts
      have habs : abs s = m := Option.some.inj ((hfollows s hs).symm.trans hrun)
      rw [← habs] at hallowed
      exact hnext s a n hs hready hallowed

/-- **The logs** are what the monitor accepts. -/
theorem logs_iff (Ready : τ → Prop) (hinit : ∃ s, S.init s ∧ Ready s ∧ log s = [])
    (hfollows : ∀ s, S.Reachable s → M.run (log s) = some (abs s))
    (hnext : ∀ s a m, S.Reachable s → Ready s → M.next (abs s) a = some m →
      ∃ t, S.Reachable t ∧ Ready t ∧ log t = log s ++ [a])
    (l : List α) : (∃ s, S.Reachable s ∧ log s = l) ↔ M.Accepts l := by
  constructor
  · rintro ⟨s, hs, rfl⟩
    unfold Accepts
    rw [hfollows s hs]
    rfl
  · intro h
    obtain ⟨s, hs, -, hlog⟩ := log_of_accepts Ready hinit hfollows hnext h
    exact ⟨s, hs, hlog⟩

end Monitor

end ZephyrSamples.Lib
