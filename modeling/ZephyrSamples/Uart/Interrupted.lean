/-
# ZephyrSamples.Uart.Interrupted -- the same transmission without a semaphore

In `UART/_03` nothing keeps `main` from assigning `tx_count` while the handler is in the middle of a message:
it relies on a second being long enough. Whatever the order of steps, the handler stays inside the message and
what it sends are beginnings of it (`interrupted_safe`). It sends whole messages, one behind the other, exactly
as long as `main` finds each message sent or not begun (`interrupted_iff`).
-/
import ZephyrSamples.Lib.Runs
import ZephyrSamples.Uart.Transmission

namespace ZephyrSamples.Uart.Interrupted

open ZephyrSamples.Lib
open ZephyrSamples.Lib.CString
open ZephyrSamples.Uart.Transmission (Message Fill TxIrq Loaded)

/-- Where `main` stands in its loop: before the assignment to `tx_count`, before `uart_irq_tx_enable`, before
`k_msleep`. -/
inductive MainPc where
  | reset
  | enable
  | sleep
  deriving DecidableEq, Repr

/-- `struct uart_msg`, the interrupt enable bit, the place of `main`, and a history. -/
structure Tx where
  txBuf : Memory
  txCount : UInt8
  txLen : UInt8
  irqEnabled : Bool
  pc : MainPc
  emitted : List UInt8
  fills : List Fill

/-- Up to the loop. -/
def start (msg : Message) (garbage : Memory) : Tx where
  txBuf := garbage.blit 0 (msg.bytes ++ [0])
  txCount := UInt8.ofNat (strlen (msg.bytes ++ [0]))
  txLen := UInt8.ofNat (strlen (msg.bytes ++ [0]))
  irqEnabled := false
  pc := .reset
  emitted := []
  fills := []

namespace Tx

/-- The next step of `main`. -/
def main (s : Tx) : Tx :=
  match s.pc with
  | .reset => { s with txCount := s.txLen, pc := .enable }
  | .enable => { s with irqEnabled := true, pc := .sleep }
  | .sleep => { s with pc := .reset }

/-- `index = tx_len - tx_count`, `uart_fifo_fill`, and the subtraction of its result. -/
def fill (s : Tx) (room : Nat) : Tx :=
  let index := s.txLen - s.txCount
  let sended := min room s.txCount.toNat
  { s with
    txCount := s.txCount - UInt8.ofNat sended
    emitted := s.emitted ++ s.txBuf.slice index.toNat sended
    fills := s.fills ++ [⟨index, s.txCount, s.txLen, sended⟩] }

end Tx

/-- `uart_cb` -/
def uartCb (s : Tx) (i : TxIrq) : Tx :=
  if i.update && i.isPending then
    let s := if i.txReady then (if s.txCount ≠ 0 then s.fill i.room else s) else s
    if s.txCount = 0 then { s with irqEnabled := false } else s
  else s

inductive Op where
  | main
  | irq (i : TxIrq)
  deriving DecidableEq, Repr

/-- An interrupt that is not enabled does not come. -/
def step (s : Tx) : Op → Tx
  | .main => s.main
  | .irq i => if s.irqEnabled then uartCb s i else s

/-! ## What every run keeps -/

/-- Beginnings of the message, the last of them up to where the counter stands. -/
structure Beginnings (msg : Message) (s : Tx) : Prop where
  loaded : Loaded msg s.txBuf s.txCount s.txLen
  emitted : ∃ before : List (List UInt8), (∀ p ∈ before, p <+: msg.bytes) ∧
    s.emitted = before.flatten ++ msg.bytes.take (msg.bytes.length - s.txCount.toNat)
  fills : ∀ f ∈ s.fills, f.index.toNat + f.txCount.toNat = msg.bytes.length ∧ f.sended ≤ f.txCount.toNat

variable {msg : Message} {s : Tx}

theorem loaded_start (msg : Message) (garbage : Memory) :
    Loaded msg (start msg garbage).txBuf (start msg garbage).txCount (start msg garbage).txLen ∧
      (start msg garbage).txCount.toNat = msg.bytes.length := by
  have hbefore := Transmission.inv_start msg garbage
  have hlen : (start msg garbage).txCount.toNat = msg.bytes.length := hbefore.len
  exact ⟨⟨hbefore.buf, hbefore.len, Nat.le_of_eq hlen⟩, hlen⟩

/-- A fill sends the next bytes, whatever was sent before this copy. -/
theorem emitted_fill (h : Loaded msg s.txBuf s.txCount s.txLen) (room : Nat) {sent : List UInt8}
    (hsent : s.emitted = sent ++ msg.bytes.take (msg.bytes.length - s.txCount.toNat)) :
    (s.fill room).emitted =
      sent ++ msg.bytes.take (msg.bytes.length - (s.fill room).txCount.toNat) := by
  show s.emitted ++ s.txBuf.slice (s.txLen - s.txCount).toNat (min room s.txCount.toNat) = _
  rw [hsent, List.append_assoc, h.take_fill room]
  rfl

/-- The handler does nothing, or a fill and perhaps the disabling behind it. -/
theorem step_irq_cases (s : Tx) (i : TxIrq) :
    ∃ b, step s (.irq i) = { s with irqEnabled := b } ∨
      step s (.irq i) = { s.fill i.room with irqEnabled := b } := by
  unfold step uartCb
  dsimp only
  split_ifs
  all_goals first
    | exact ⟨false, Or.inr rfl⟩
    | exact ⟨(s.fill i.room).irqEnabled, Or.inr rfl⟩
    | exact ⟨false, Or.inl rfl⟩
    | exact ⟨s.irqEnabled, Or.inl rfl⟩

/-- `main` assigns the counter or leaves it alone. -/
theorem step_main_cases (s : Tx) :
    (s.pc = .reset ∧ step s .main = { s with txCount := s.txLen, pc := .enable }) ∨
      (s.pc ≠ .reset ∧ ∃ b pc, step s .main = { s with irqEnabled := b, pc := pc }) := by
  unfold step Tx.main
  rcases hpc : s.pc with _ | _ | _
  · exact Or.inl ⟨rfl, rfl⟩
  · exact Or.inr ⟨by simp, true, .sleep, rfl⟩
  · exact Or.inr ⟨by simp, s.irqEnabled, .reset, rfl⟩

theorem Beginnings.next (h : Beginnings msg s) (op : Op) : Beginnings msg (step s op) := by
  obtain ⟨hloaded, ⟨before, hbefore, hemitted⟩, hfills⟩ := h
  rcases op with _ | i
  · rcases step_main_cases s with ⟨-, hstep⟩ | ⟨-, b, pc, hstep⟩
    · rw [hstep]
      refine ⟨⟨hloaded.buf, hloaded.len, Nat.le_of_eq hloaded.len⟩, ?_, hfills⟩
      refine ⟨before ++ [msg.bytes.take (msg.bytes.length - s.txCount.toNat)], ?_, ?_⟩
      · exact List.forall_mem_append.mpr ⟨hbefore, List.forall_mem_singleton.mpr (List.take_prefix _ _)⟩
      · show s.emitted = _ ++ msg.bytes.take (msg.bytes.length - s.txLen.toNat)
        rw [hloaded.len, Nat.sub_self, List.take_zero, List.append_nil, List.flatten_append,
          List.flatten_singleton]
        exact hemitted
    · rw [hstep]
      exact ⟨hloaded, ⟨before, hbefore, hemitted⟩, hfills⟩
  · obtain ⟨b, hstep | hstep⟩ := step_irq_cases s i
    · rw [hstep]
      exact ⟨hloaded, ⟨before, hbefore, hemitted⟩, hfills⟩
    · rw [hstep]
      refine ⟨hloaded.fill i.room, ⟨before, hbefore, emitted_fill hloaded i.room hemitted⟩, ?_⟩
      refine List.forall_mem_append.mpr ⟨hfills, List.forall_mem_singleton.mpr ?_⟩
      have hleft := hloaded.left
      show (s.txLen - s.txCount).toNat + s.txCount.toNat = msg.bytes.length ∧ _ ≤ s.txCount.toNat
      rw [hloaded.index_toNat]
      exact ⟨by omega, Nat.min_le_right ..⟩

/-- **Beginnings.** In every run, whenever the counter is assigned and whatever the FIFO accepts, each fill
goes from its index to the end of the message, and what is sent are beginnings of the message, one behind the
other. -/
theorem interrupted_safe (msg : Message) (garbage : Memory) (ops : List Op) :
    Along step (Beginnings msg) (start msg garbage) ops := by
  obtain ⟨hloaded, hcount⟩ := loaded_start msg garbage
  refine along_of_steps step (I := Beginnings msg) (Q := fun _ _ => True) (fun _ h => h)
    (fun s op h _ => h.next op) ⟨hloaded, ⟨[], ?_, ?_⟩, ?_⟩ ?_
  · exact fun p hp => absurd hp List.not_mem_nil
  · rw [hcount, Nat.sub_self, List.take_zero]
    rfl
  · exact fun f hf => absurd hf List.not_mem_nil
  · exact (steps_iff_forall step (R := fun _ => True) (fun _ _ => Iff.rfl) _ ops).mpr fun _ _ => trivial

/-! ## Whole messages -/

/-- Whole messages have been sent, and of the next one what the counter says. -/
def Whole (msg : Message) (s : Tx) : Prop :=
  ∃ k, s.emitted = msg.copies k ++ msg.bytes.take (msg.bytes.length - s.txCount.toNat)

/-- `main` assigns the counter when the message is sent, or not begun. -/
def Timely (s : Tx) (op : Op) : Prop := op = .main → s.pc = .reset → s.txCount = 0 ∨ s.txCount = s.txLen

theorem Whole.next (hloaded : Loaded msg s.txBuf s.txCount s.txLen) (h : Whole msg s) {op : Op} (htimely : Timely s op) :
    Loaded msg (step s op).txBuf (step s op).txCount (step s op).txLen ∧ Whole msg (step s op) := by
  obtain ⟨k, hk⟩ := h
  rcases op with _ | i
  · rcases step_main_cases s with ⟨hpc, hstep⟩ | ⟨-, b, pc, hstep⟩
    · rw [hstep]
      refine ⟨⟨hloaded.buf, hloaded.len, Nat.le_of_eq hloaded.len⟩, ?_⟩
      have hnone : msg.bytes.take (msg.bytes.length - s.txLen.toNat) = [] := by
        rw [hloaded.len, Nat.sub_self, List.take_zero]
      rcases htimely rfl hpc with hzero | hfull
      · refine ⟨k + 1, ?_⟩
        show s.emitted = msg.copies (k + 1) ++ msg.bytes.take (msg.bytes.length - s.txLen.toNat)
        rw [hnone, hk, hzero, msg.copies_succ, List.append_nil]
        show _ ++ msg.bytes.take msg.bytes.length = _
        rw [List.take_length]
      · refine ⟨k, ?_⟩
        show s.emitted = msg.copies k ++ msg.bytes.take (msg.bytes.length - s.txLen.toNat)
        rw [hk, hfull]
    · rw [hstep]
      exact ⟨hloaded, k, hk⟩
  · obtain ⟨b, hstep | hstep⟩ := step_irq_cases s i
    · rw [hstep]
      exact ⟨hloaded, k, hk⟩
    · rw [hstep]
      exact ⟨hloaded.fill i.room, k, emitted_fill hloaded i.room hk⟩

/-- An assignment in the middle of a message shows: what was sent is no number of whole messages. -/
theorem Whole.timely (hloaded : Loaded msg s.txBuf s.txCount s.txLen) (h : Whole msg s) {op : Op} (hafter : Whole msg (step s op)) :
    Timely s op := by
  rintro rfl hpc
  obtain ⟨k, hk⟩ := h
  obtain ⟨k', hk'⟩ := hafter
  have hstep : step s .main = { s with txCount := s.txLen, pc := .enable } := by
    rcases step_main_cases s with ⟨-, hstep⟩ | ⟨hother, -⟩
    · exact hstep
    · exact absurd hpc hother
  rw [hstep] at hk'
  have hsent : s.emitted = msg.copies k' ++ msg.bytes.take (msg.bytes.length - s.txLen.toNat) := hk'
  rw [hloaded.len, Nat.sub_self, List.take_zero, List.append_nil, hk] at hsent
  have hlength := congrArg List.length hsent
  rw [List.length_append, msg.length_copies, msg.length_copies, List.length_take, Nat.min_eq_left (by omega)]
    at hlength
  have hmod := congrArg (· % msg.bytes.length) hlength
  simp only [Nat.mul_add_mod_self_right, Nat.mul_mod_left] at hmod
  have hleft := hloaded.left
  have hpos := msg.nonempty
  by_cases hfull : s.txCount.toNat = msg.bytes.length
  · right
    exact UInt8.toNat_inj.mp (hfull.trans hloaded.len.symm)
  · left
    by_contra hne
    have hnonzero : s.txCount.toNat ≠ 0 := fun h0 => hne (UInt8.toNat_inj.mp h0)
    rw [Nat.mod_eq_of_lt (by omega)] at hmod
    omega

/-- **Whole messages, exactly when timely.** In every run, whole messages have been sent in every state, and of
the next one what the counter says, if and only if `main` never assigns the counter in the middle of one. -/
theorem interrupted_iff (msg : Message) (garbage : Memory) (ops : List Op) :
    Along step (Whole msg) (start msg garbage) ops ↔ Steps step Timely (start msg garbage) ops := by
  obtain ⟨hloaded, hcount⟩ := loaded_start msg garbage
  refine along_iff_steps step (I := fun s => Loaded msg s.txBuf s.txCount s.txLen ∧ Whole msg s) (fun _ h => h.2) ?_ ?_ ⟨hloaded, 0, ?_⟩ ops
  · exact fun s op h htimely => Whole.next h.1 h.2 htimely
  · exact fun s op h hafter => Whole.timely h.1 h.2 hafter
  · rw [hcount, Nat.sub_self, List.take_zero]
    rfl

end ZephyrSamples.Uart.Interrupted
