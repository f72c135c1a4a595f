/-
# ZephyrSamples.Uart.DmaTransmission -- transmissions paced by a semaphore that only success gives

In `UART/_07` `main` takes the semaphore, hands the buffer to the driver and sleeps; the driver transmits by DMA
and reports an event. The handler gives the semaphore for `UART_TX_DONE` and does nothing for `UART_TX_ABORTED`,
and `main` does not look at what `uart_tx` returned. One token stands for the right to transmit: it is in the
semaphore, with `main`, with the driver, or lost (`Token`).

So `uart_tx` is never called while the driver is busy (`dma_exclusive`), and the sample goes on for ever exactly
as long as no transmission was refused or aborted (`dma_goesOn_iff`).
-/
import ZephyrSamples.Lib.CString
import ZephyrSamples.Lib.Transition

namespace ZephyrSamples.Uart.DmaTransmission

open ZephyrSamples.Lib
open ZephyrSamples.Lib.CString

/-- `tx_buf`, which `sizeof` counts with its NUL. -/
def txBuf : List UInt8 := ascii "Hola DMA uart Tx from DMA sending more bytes\r\n" ++ [0]

/-- Where `main` stands in its loop: before `k_sem_take`, before `uart_tx`, before `k_msleep`. -/
inductive MainPc where
  | take
  | tx
  | sleep
  deriving DecidableEq, Repr

/-- The semaphore, whether the driver transmits, the place of `main`, and a history: how many transmissions
were started and done, and how many were refused or aborted; what was sent of those that were done. -/
structure Tx where
  txSem : Nat
  busy : Bool
  pc : MainPc
  started : Nat
  completed : Nat
  lost : Nat
  emitted : List UInt8

/-- `k_sem_init`, `k_sem_reset` and the first `k_sem_give`. -/
def start : Tx := ⟨1, false, .take, 0, 0, 0, []⟩

/-- `k_sem_give`; the limit is 1. -/
def give (count : Nat) : Nat := if count < 1 then count + 1 else count

inductive Label where
  | main
  /-- `uart_tx` returns an error, or 0 -/
  | tx (accepted : Bool)
  | done
  | aborted
  deriving DecidableEq, Repr

/-- A busy driver refuses; one that is not may refuse too. -/
inductive Step : Label → Tx → Tx → Prop
  | take {s : Tx} : s.pc = .take → 0 < s.txSem →
      Step .main s { s with txSem := s.txSem - 1, pc := .tx }
  | sleep {s : Tx} : s.pc = .sleep → Step .main s { s with pc := .take }
  | accepted {s : Tx} : s.pc = .tx → s.busy = false →
      Step (.tx true) s { s with busy := true, pc := .sleep, started := s.started + 1 }
  | refused {s : Tx} : s.pc = .tx → Step (.tx false) s { s with pc := .sleep, lost := s.lost + 1 }
  | done {s : Tx} : s.busy = true →
      Step .done s
        { s with
          txSem := give s.txSem
          busy := false
          completed := s.completed + 1
          emitted := s.emitted ++ txBuf }
  | aborted {s : Tx} : s.busy = true → Step .aborted s { s with busy := false, lost := s.lost + 1 }

def dmaTransmission : System Tx Label where
  init s := s = start
  step := Step

/-! ## The token -/

def MainPc.token : MainPc → Nat
  | .tx => 1
  | .take | .sleep => 0

/-- There is one token. -/
structure Token (s : Tx) : Prop where
  one : s.txSem + s.pc.token + s.busy.toNat + s.lost = 1
  counts : s.started = s.completed + s.busy.toNat ∨ s.lost = 1
  emitted : s.emitted = (List.replicate s.completed txBuf).flatten

theorem Token.step {s t : Tx} {l : Label} (h : Token s) (hstep : Step l s t) : Token t := by
  obtain ⟨hone, hcounts, hemitted⟩ := h
  cases hstep with
  | take hpc hup =>
      rw [hpc] at hone
      simp only [MainPc.token] at hone
      refine ⟨?_, hcounts, hemitted⟩
      show s.txSem - 1 + 1 + s.busy.toNat + s.lost = 1
      omega
  | sleep hpc =>
      rw [hpc] at hone
      exact ⟨hone, hcounts, hemitted⟩
  | accepted hpc hfree =>
      rw [hpc, hfree] at hone
      rw [hfree] at hcounts
      simp only [MainPc.token, Bool.toNat_false] at hone hcounts
      refine ⟨?_, ?_, hemitted⟩
      · show s.txSem + 0 + 1 + s.lost = 1
        omega
      · show s.started + 1 = s.completed + 1 ∨ s.lost = 1
        omega
  | refused hpc =>
      rw [hpc] at hone
      simp only [MainPc.token] at hone
      refine ⟨?_, Or.inr ?_, hemitted⟩
      · show s.txSem + 0 + s.busy.toNat + (s.lost + 1) = 1
        omega
      · show s.lost + 1 = 1
        omega
  | done hbusy =>
      rw [hbusy] at hone hcounts
      simp only [Bool.toNat_true] at hone hcounts
      have hzero : s.txSem = 0 := by omega
      refine ⟨?_, ?_, ?_⟩
      · show give s.txSem + s.pc.token + 0 + s.lost = 1
        rw [hzero]
        show 0 + 1 + s.pc.token + 0 + s.lost = 1
        omega
      · show s.started = s.completed + 1 + 0 ∨ s.lost = 1
        omega
      · show s.emitted ++ txBuf = (List.replicate (s.completed + 1) txBuf).flatten
        rw [hemitted, List.replicate_succ', List.flatten_append, List.flatten_singleton]
  | aborted hbusy =>
      rw [hbusy] at hone
      simp only [Bool.toNat_true] at hone
      refine ⟨?_, Or.inr ?_, hemitted⟩
      · show s.txSem + s.pc.token + 0 + (s.lost + 1) = 1
        omega
      · show s.lost + 1 = 1
        omega

theorem token_of_reachable {s : Tx} (h : dmaTransmission.Reachable s) : Token s := by
  refine h.invariant ?_ fun s t l _ hinv hstep => hinv.step hstep
  rintro s rfl
  exact ⟨rfl, Or.inl rfl, rfl⟩

/-- **One at a time.** In every reachable state `uart_tx` finds the driver free, the semaphore is given only
while its count is 0, at most one transmission was ever lost, and each that was done has sent the whole text
with its NUL. -/
theorem dma_exclusive {s : Tx} (h : dmaTransmission.Reachable s) :
    (s.pc = .tx → s.busy = false) ∧ (s.busy = true → s.txSem = 0) ∧ s.lost ≤ 1 ∧
      (s.lost = 0 → s.started = s.completed + s.busy.toNat) ∧
      s.emitted = (List.replicate s.completed txBuf).flatten := by
  obtain ⟨hone, hcounts, hemitted⟩ := token_of_reachable h
  refine ⟨fun hpc => ?_, fun hbusy => ?_, by omega, fun hlost => by omega, hemitted⟩
  · rw [hpc] at hone
    simp only [MainPc.token] at hone
    rcases hb : s.busy with _ | _
    · rfl
    · rw [hb, Bool.toNat_true] at hone
      omega
  · rw [hbusy, Bool.toNat_true] at hone
    omega

theorem start_reachable : dmaTransmission.Reachable start := .init rfl

/-- One transmission is done and the next one going on. -/
def second : Tx := ⟨0, true, .sleep, 2, 1, 0, txBuf⟩

/-- The next one is aborted. -/
def secondAborted : Tx := ⟨0, false, .sleep, 2, 1, 1, txBuf⟩

theorem second_reachable : dmaTransmission.Reachable second ∧ dmaTransmission.Reachable secondAborted := by
  have next : ∀ (l : Label) {s t : Tx}, dmaTransmission.Reachable s → Step l s t →
      dmaTransmission.Reachable t := fun _ _ _ hs hstep => hs.step hstep
  have htaken := next .main start_reachable (.take rfl Nat.one_pos)
  have hdone := next .done (next (.tx true) htaken (.accepted rfl rfl)) (.done rfl)
  have hagain := next .main (next .main hdone (.sleep rfl)) (.take rfl Nat.one_pos)
  have hsecond := next (.tx true) hagain (.accepted rfl rfl)
  exact ⟨hsecond, next .aborted hsecond (.aborted rfl)⟩

/-- The second transmission holds the token, and loses it. -/
theorem dma_exclusive_second :
    (second.txSem = 0 ∧ second.started = 1 + 1 ∧ second.emitted = (List.replicate 1 txBuf).flatten) ∧
      secondAborted.lost ≤ 1 ∧ secondAborted.emitted = (List.replicate 1 txBuf).flatten := by
  obtain ⟨hsecond, haborted⟩ := second_reachable
  obtain ⟨-, hsem, -, hstarted, hemitted⟩ := dma_exclusive hsecond
  obtain ⟨-, -, hlost, -, hemitted'⟩ := dma_exclusive haborted
  exact ⟨⟨hsem rfl, hstarted rfl, hemitted⟩, hlost, hemitted'⟩

/-! ## How long it goes on -/

/-- From now on nothing is refused or aborted. -/
def faultless : System Tx Label := dmaTransmission.restrict fun l _ => l ≠ .tx false ∧ l ≠ .aborted

def MainPc.rank : MainPc → Nat
  | .sleep => 2
  | .take => 1
  | .tx => 0

/-- How many steps there are before the next transmission. -/
def rank (s : Tx) : Nat := s.pc.rank + s.busy.toNat

/-- Without a loss some step is possible, and it starts a transmission or brings the next one nearer. -/
theorem faultless_moves {s : Tx} (h : Token s) (hlost : s.lost = 0) : ∃ l t, faultless.step l s t := by
  have hone := h.one
  rcases hpc : s.pc with _ | _ | _
  · by_cases hup : 0 < s.txSem
    · exact ⟨.main, _, ⟨by simp, by simp⟩, .take hpc hup⟩
    · rw [hpc] at hone
      simp only [MainPc.token] at hone
      have hbusy : s.busy = true := by
        rcases hb : s.busy with _ | _
        · rw [hb, Bool.toNat_false] at hone
          omega
        · rfl
      exact ⟨.done, _, ⟨by simp, by simp⟩, .done hbusy⟩
  · rw [hpc] at hone
    simp only [MainPc.token] at hone
    have hfree : s.busy = false := by
      rcases hb : s.busy with _ | _
      · rfl
      · rw [hb, Bool.toNat_true] at hone
        omega
    exact ⟨.tx true, _, ⟨by simp, by simp⟩, .accepted hpc hfree⟩
  · exact ⟨.main, _, ⟨by simp, by simp⟩, .sleep hpc⟩

theorem faultless_step {s t : Tx} {l : Label} (h : faultless.step l s t) :
    t.lost = s.lost ∧ (t.started = s.started + 1 ∨ (t.started = s.started ∧ rank t < rank s)) := by
  obtain ⟨⟨haccepted, hdone⟩, hstep⟩ := h
  cases hstep with
  | take hpc hup =>
      refine ⟨rfl, Or.inr ⟨rfl, ?_⟩⟩
      simp [rank, hpc, MainPc.rank]
  | sleep hpc =>
      refine ⟨rfl, Or.inr ⟨rfl, ?_⟩⟩
      simp [rank, hpc, MainPc.rank]
  | accepted => exact ⟨rfl, Or.inl rfl⟩
  | refused => exact absurd rfl haccepted
  | done hbusy =>
      refine ⟨rfl, Or.inr ⟨rfl, ?_⟩⟩
      simp [rank, hbusy]
  | aborted => exact absurd rfl hdone

theorem started_of_lost {s t : Tx} {l : Label} (h : Token s) (hlost : s.lost ≠ 0) (hstep : Step l s t) :
    t.started = s.started := by
  cases hstep with
  | accepted hpc =>
      have hone := h.one
      rw [hpc] at hone
      simp only [MainPc.token] at hone
      omega
  | take | sleep | refused | done | aborted => rfl

/-- With the token lost no transmission is ever started. -/
theorem not_inevitable_of_lost {s : Tx} {n : Nat} (h : Token s) (hlost : s.lost ≠ 0) (hn : s.started ≤ n) :
    ¬ faultless.Inevitable (fun t => n < t.started) s := by
  intro hinevitable
  induction hinevitable with
  | now hstarted => omega
  | later hmoves _ ih =>
      obtain ⟨l, t, hstep⟩ := hmoves
      refine ih l t hstep (h.step hstep.2) ?_ ?_
      · rw [(faultless_step hstep).1]
        exact hlost
      · rw [started_of_lost h hlost hstep.2]
        exact hn

/-- **For ever, exactly when nothing was lost.** From a reachable state, if nothing is refused or aborted from
now on, every run comes to the next transmission, if and only if nothing was refused or aborted before;
otherwise `main` waits for a semaphore that nobody gives. -/
theorem dma_goesOn_iff {s : Tx} (h : dmaTransmission.Reachable s) :
    faultless.Inevitable (fun t => s.started < t.started) s ↔ s.lost = 0 := by
  have htoken := token_of_reachable h
  constructor
  · intro hinevitable
    by_contra hlost
    exact not_inevitable_of_lost htoken hlost (Nat.le_refl _) hinevitable
  · intro hlost
    refine System.Inevitable.of_rank (n := rank s + 1)
      (fun n t => Token t ∧ t.lost = 0 ∧
        (s.started < t.started ∨ (t.started = s.started ∧ n = rank t + 1))) ?_ ⟨htoken, hlost, Or.inr ⟨rfl, rfl⟩⟩
    rintro n t ⟨ht, hlost', hstarted | ⟨hsame, rfl⟩⟩
    · exact Or.inl hstarted
    · refine Or.inr ⟨faultless_moves ht hlost', fun l u hstep => ?_⟩
      obtain ⟨hkept, hmore⟩ := faultless_step hstep
      have hu : Token u := ht.step hstep.2
      rcases hmore with hstarted | ⟨hsame', hrank⟩
      · exact ⟨0, Nat.succ_pos _, hu, hkept.trans hlost', Or.inl (by omega)⟩
      · exact ⟨rank u + 1, Nat.succ_lt_succ hrank, hu, hkept.trans hlost', Or.inr ⟨hsame'.trans hsame, rfl⟩⟩

/-- One transmission is aborted; the semaphore is never given again. -/
def aborted : Tx := ⟨0, false, .sleep, 1, 0, 1, []⟩

theorem aborted_reachable : dmaTransmission.Reachable aborted := by
  have next : ∀ (l : Label) {s t : Tx}, dmaTransmission.Reachable s → Step l s t →
      dmaTransmission.Reachable t := fun _ _ _ hs hstep => hs.step hstep
  have htaken := next .main start_reachable (.take rfl Nat.one_pos)
  have hstarted := next (.tx true) htaken (.accepted rfl rfl)
  exact next .aborted hstarted (.aborted rfl)

theorem dma_goesOn_start : faultless.Inevitable (fun t => start.started < t.started) start ∧
    ¬ faultless.Inevitable (fun t => aborted.started < t.started) aborted := by
  refine ⟨(dma_goesOn_iff start_reachable).mpr rfl, ?_⟩
  rw [dma_goesOn_iff aborted_reachable]
  exact Nat.one_ne_zero

end ZephyrSamples.Uart.DmaTransmission
