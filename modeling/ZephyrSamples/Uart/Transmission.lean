/-
# ZephyrSamples.Uart.Transmission -- whole messages, paced by a semaphore

`main` takes the semaphore, resets `tx_count` and enables the TX interrupt; `uart_cb` feeds the FIFO
from `tx_buf`, and when the last byte is in it disables the interrupt and gives the semaphore. The two
share `tx_count` without a lock. Who may touch it is told by the semaphore and the interrupt enable bit
together: the semaphore is up while nobody transmits, `main` has it between `take` and `enable`, and
the handler has it while the interrupt is enabled (`Stage`).

`transmission_proper`: on every interleaving, whatever the FIFO accepts, the bytes sent are whole
messages and a beginning of one, `tx_count` is reset only between two messages, and the semaphore is
given once for each.
-/
import Mathlib.Data.List.Range
import ZephyrSamples.Lib.CString
import ZephyrSamples.Lib.Transition

namespace ZephyrSamples.Uart.Transmission

open ZephyrSamples.Lib
open ZephyrSamples.Lib.CString

/-! ## Data -/

/-- A text for `tx_buf`, which has 50 bytes and needs one for the NUL. -/
structure Message where
  bytes : List UInt8
  nulFree : 0 ∉ bytes
  nonempty : 0 < bytes.length
  fits : bytes.length < 50

/-- `k` copies of the message, one behind the other. -/
def Message.copies (msg : Message) (k : Nat) : List UInt8 := (List.replicate k msg.bytes).flatten

theorem Message.copies_succ (msg : Message) (k : Nat) :
    msg.copies (k + 1) = msg.copies k ++ msg.bytes := by
  unfold Message.copies
  rw [List.replicate_succ', List.flatten_append, List.flatten_singleton]

theorem Message.length_copies (msg : Message) (k : Nat) :
    (msg.copies k).length = k * msg.bytes.length := by
  unfold Message.copies
  rw [List.length_flatten, List.map_replicate, List.sum_replicate_nat]

/-- A call of `uart_fifo_fill`: the arguments and the number of bytes accepted. -/
structure Fill where
  index : UInt8
  txCount : UInt8
  txLen : UInt8
  sended : Nat
  deriving DecidableEq, Repr

/-- A `k_sem_give` of the handler: the count it found, and what had been sent. -/
structure Give where
  count : Nat
  emitted : List UInt8
  deriving DecidableEq, Repr

/-- The assignment of `main` to `tx_count`: the interrupt enable bit, and what had been sent. -/
structure Reset where
  irqEnabled : Bool
  emitted : List UInt8
  deriving DecidableEq, Repr

/-- Where `main` stands in its loop: before `k_sem_take`, before the assignment to `tx_count`, before
`uart_irq_tx_enable`, before `k_msleep`. -/
inductive MainPc where
  | take
  | reset
  | enable
  | sleep
  deriving DecidableEq, Repr

/-- `struct uart_msg`, the interrupt enable bit, the place of `main`, and a history. -/
structure Tx where
  txBuf : Memory
  txCount : UInt8
  txLen : UInt8
  txDone : Nat
  irqEnabled : Bool
  pc : MainPc
  emitted : List UInt8
  fills : List Fill
  gives : List Give
  resets : List Reset

/-! ## `main` -/

/-- Up to the loop: `strcpy`, `strlen`, and the semaphore with its first give. -/
def start (msg : Message) (garbage : Memory) : Tx where
  txBuf := garbage.blit 0 (msg.bytes ++ [0])
  txCount := UInt8.ofNat (strlen (msg.bytes ++ [0]))
  txLen := UInt8.ofNat (strlen (msg.bytes ++ [0]))
  txDone := 1
  irqEnabled := false
  pc := .take
  emitted := []
  fills := []
  gives := []
  resets := []

namespace Tx

/-- `k_sem_take(&tx_message.tx_done, K_FOREVER)`, once the count allows it. -/
def take (s : Tx) : Tx := { s with txDone := s.txDone - 1, pc := .reset }

/-- `tx_message.tx_count = tx_message.tx_len` -/
def reset (s : Tx) : Tx :=
  { s with
    txCount := s.txLen
    pc := .enable
    resets := s.resets ++ [⟨s.irqEnabled, s.emitted⟩] }

/-- `uart_irq_tx_enable(serial)` -/
def enable (s : Tx) : Tx := { s with irqEnabled := true, pc := .sleep }

/-- `k_msleep(1000)` -/
def sleep (s : Tx) : Tx := { s with pc := .take }

/-! ## `uart_cb` -/

/-- `index = tx_len - tx_count`, the call of `uart_fifo_fill`, and the subtraction of its result. The
FIFO has room for `room` bytes. -/
def fill (s : Tx) (room : Nat) : Tx :=
  let index := s.txLen - s.txCount
  let sended := min room s.txCount.toNat
  { s with
    txCount := s.txCount - UInt8.ofNat sended
    emitted := s.emitted ++ s.txBuf.slice index.toNat sended
    fills := s.fills ++ [⟨index, s.txCount, s.txLen, sended⟩] }

/-- `uart_irq_tx_disable(dev)` and `k_sem_give(&message->tx_done)`; the limit of the semaphore is 1. -/
def finish (s : Tx) : Tx :=
  { s with
    irqEnabled := false
    txDone := if s.txDone < 1 then s.txDone + 1 else s.txDone
    gives := s.gives ++ [⟨s.txDone, s.emitted⟩] }

end Tx

/-- What one interrupt finds. -/
structure TxIrq where
  update : Bool
  isPending : Bool
  txReady : Bool
  room : Nat
  deriving DecidableEq, Repr

/-- `uart_cb` -/
def uartCb (s : Tx) (i : TxIrq) : Tx :=
  if i.update && i.isPending then
    let s := if i.txReady then (if s.txCount ≠ 0 then s.fill i.room else s) else s
    if s.txCount = 0 then s.finish else s
  else s

/-! ## The system -/

inductive TxLabel where
  | main
  | irq (i : TxIrq)
  deriving DecidableEq, Repr

inductive TxStep : TxLabel → Tx → Tx → Prop
  | take {s : Tx} : s.pc = .take → 0 < s.txDone → TxStep .main s s.take
  | reset {s : Tx} : s.pc = .reset → TxStep .main s s.reset
  | enable {s : Tx} : s.pc = .enable → TxStep .main s s.enable
  | sleep {s : Tx} : s.pc = .sleep → TxStep .main s s.sleep
  | irq {s : Tx} {i : TxIrq} : s.irqEnabled = true → TxStep (.irq i) s (uartCb s i)

/-- `main` and the handler, which runs to completion whenever the interrupt is enabled. -/
def transmission (msg : Message) : System Tx TxLabel where
  init s := ∃ garbage, s = start msg garbage
  step := TxStep

/-- What the sample owes: every fill starts behind what was sent of the message and stays inside it,
whole messages and a beginning of one are sent, `tx_count` is reset between two messages with the
interrupt off, and the semaphore is given at the end of each message, while its count is 0. -/
structure Proper (msg : Message) (s : Tx) : Prop where
  fills : ∀ f ∈ s.fills, f.index.toNat + f.txCount.toNat = f.txLen.toNat ∧
    f.index.toNat < f.txLen.toNat ∧ f.txLen.toNat = msg.bytes.length ∧ f.sended ≤ f.txCount.toNat
  emitted : ∃ k part, part <+: msg.bytes ∧ s.emitted = msg.copies k ++ part
  resets : ∀ r ∈ s.resets, r.irqEnabled = false ∧ ∃ k, r.emitted = msg.copies k
  gives : s.gives = (List.range (s.emitted.length / msg.bytes.length)).map fun i =>
    ⟨0, msg.copies (i + 1)⟩

/-! ## One fill -/

/-- The message in `tx_buf`, its length in `tx_len`, and as many bytes of it to go as `tx_count` says. -/
structure Loaded (msg : Message) (txBuf : Memory) (txCount txLen : UInt8) : Prop where
  buf : txBuf.slice 0 msg.bytes.length = msg.bytes
  len : txLen.toNat = msg.bytes.length
  left : txCount.toNat ≤ msg.bytes.length

/-- What a fill leaves to send. -/
theorem toNat_sub_sended (txCount : UInt8) (room : Nat) :
    (txCount - UInt8.ofNat (min room txCount.toNat)).toNat = txCount.toNat - min room txCount.toNat := by
  have hlt := txCount.toNat_lt
  have hsended : (UInt8.ofNat (min room txCount.toNat)).toNat = min room txCount.toNat := by
    rw [UInt8.toNat_ofNat_of_lt']
    show min room txCount.toNat < 256
    omega
  rw [UInt8.toNat_sub_of_le _ _ (UInt8.le_iff_toNat_le.mpr (by omega)), hsended]

namespace Loaded

variable {msg : Message} {txBuf : Memory} {txCount txLen : UInt8}

/-- The index of a fill is where the message goes on. -/
theorem index_toNat (h : Loaded msg txBuf txCount txLen) :
    (txLen - txCount).toNat = msg.bytes.length - txCount.toNat := by
  have hlen := h.len
  have hleft := h.left
  rw [UInt8.toNat_sub_of_le _ _ (UInt8.le_iff_toNat_le.mpr (by omega)), hlen]

/-- The message stays where it is. -/
theorem fill (h : Loaded msg txBuf txCount txLen) (room : Nat) :
    Loaded msg txBuf (txCount - UInt8.ofNat (min room txCount.toNat)) txLen where
  buf := h.buf
  len := h.len
  left := by
    rw [toNat_sub_sended]
    exact Nat.le_trans (Nat.sub_le ..) h.left

/-- A fill sends its next bytes, behind those already sent. -/
theorem take_fill (h : Loaded msg txBuf txCount txLen) (room : Nat) :
    msg.bytes.take (msg.bytes.length - txCount.toNat) ++
        txBuf.slice (txLen - txCount).toNat (min room txCount.toNat) =
      msg.bytes.take (msg.bytes.length - (txCount - UInt8.ofNat (min room txCount.toNat)).toNat) := by
  have hleft := h.left
  have hpiece : ∀ j ≤ msg.bytes.length, msg.bytes.take j = txBuf.slice 0 j := by
    intro j hj
    rw [← take_slice txBuf 0 hj, h.buf]
  have hsplit : msg.bytes.length - (txCount.toNat - min room txCount.toNat) =
      msg.bytes.length - txCount.toNat + min room txCount.toNat := by omega
  rw [h.index_toNat, toNat_sub_sended, hpiece _ (by omega), hpiece _ (by omega), hsplit, slice_add,
    Nat.zero_add]

end Loaded

/-! ## The invariant -/

/-- Who owns `tx_count`, after `k` whole messages: nobody, `main`, or the handler, which has `left`
bytes of the next one to send. -/
inductive Stage (msg : Message) (s : Tx) (k : Nat) : Prop
  | idle : s.pc = .take ∨ s.pc = .sleep → s.irqEnabled = false → s.txDone = 1 →
      s.emitted = msg.copies k → Stage msg s k
  | owned : s.pc = .reset ∨ (s.pc = .enable ∧ s.txCount = s.txLen) → s.irqEnabled = false →
      s.txDone = 0 → s.emitted = msg.copies k → Stage msg s k
  | sending : s.pc = .take ∨ s.pc = .sleep → s.irqEnabled = true → s.txDone = 0 →
      0 < s.txCount.toNat → s.txCount.toNat ≤ msg.bytes.length →
      s.emitted = msg.copies k ++ msg.bytes.take (msg.bytes.length - s.txCount.toNat) →
      Stage msg s k

/-- The stage, the unchanging part of the structure, and the history. -/
structure TxInv (msg : Message) (s : Tx) (k : Nat) : Prop where
  buf : s.txBuf.slice 0 msg.bytes.length = msg.bytes
  len : s.txLen.toNat = msg.bytes.length
  stage : Stage msg s k
  fills : ∀ f ∈ s.fills, f.index.toNat + f.txCount.toNat = f.txLen.toNat ∧
    f.index.toNat < f.txLen.toNat ∧ f.txLen.toNat = msg.bytes.length ∧ f.sended ≤ f.txCount.toNat
  resets : ∀ r ∈ s.resets, r.irqEnabled = false ∧ ∃ k, r.emitted = msg.copies k
  gives : s.gives = (List.range k).map fun i => ⟨0, msg.copies (i + 1)⟩

namespace Stage

variable {msg : Message} {s : Tx} {k : Nat}

/-- With the counter in the hands of `main` the interrupt is off and whole messages have been sent. -/
theorem of_owned (h : Stage msg s k) (hpc : s.pc = .reset ∨ s.pc = .enable) :
    (s.pc = .enable → s.txCount = s.txLen) ∧ s.irqEnabled = false ∧ s.txDone = 0 ∧
      s.emitted = msg.copies k := by
  rcases h with ⟨hother, -, -, -⟩ | ⟨howned, hoff, hzero, hsent⟩ | ⟨hother, -, -, -, -, -⟩
  · rcases hpc with hpc | hpc <;> simp [hpc] at hother
  · refine ⟨fun henable => ?_, hoff, hzero, hsent⟩
    rcases howned with hreset | ⟨-, hcount⟩
    · cases hreset.symm.trans henable
    · exact hcount
  · rcases hpc with hpc | hpc <;> simp [hpc] at hother

/-- A semaphore that is up has nobody transmitting. -/
theorem of_up (h : Stage msg s k) (hup : 0 < s.txDone) :
    s.irqEnabled = false ∧ s.txDone = 1 ∧ s.emitted = msg.copies k := by
  rcases h with ⟨-, hoff, hone, hsent⟩ | ⟨-, -, hzero, -⟩ | ⟨-, -, hzero, -, -, -⟩
  · exact ⟨hoff, hone, hsent⟩
  · omega
  · omega

end Stage

theorem inv_start (msg : Message) (garbage : Memory) : TxInv msg (start msg garbage) 0 := by
  have hlen : strlen (msg.bytes ++ [0]) = msg.bytes.length := by
    have h := strlen_overwrite msg.nulFree []
    rwa [overwrite, List.drop_nil, List.append_nil] at h
  refine ⟨?_, ?_, ?_, ?_, ?_, rfl⟩
  · have hstored := slice_blit garbage 0 (msg.bytes ++ [0])
    have htake := congrArg (List.take msg.bytes.length) hstored
    rwa [take_slice _ _ (by simp), List.take_left] at htake
  · have hfits := msg.fits
    show (UInt8.ofNat (strlen (msg.bytes ++ [0]))).toNat = _
    rw [hlen, UInt8.toNat_ofNat_of_lt']
    show msg.bytes.length < 256
    omega
  · exact .idle (Or.inl rfl) rfl rfl rfl
  · exact fun f hf => absurd hf List.not_mem_nil
  · exact fun r hr => absurd hr List.not_mem_nil

namespace TxInv

variable {msg : Message} {s : Tx} {k : Nat}

/-! ### Steps of `main` -/

theorem take (h : TxInv msg s k) (hup : 0 < s.txDone) : TxInv msg s.take k := by
  obtain ⟨hoff, hone, hsent⟩ := h.stage.of_up hup
  refine ⟨h.buf, h.len, .owned (Or.inl rfl) hoff ?_ hsent, h.fills, h.resets, h.gives⟩
  show s.txDone - 1 = 0
  rw [hone]

theorem reset (h : TxInv msg s k) (hpc : s.pc = .reset) : TxInv msg s.reset k := by
  obtain ⟨-, hoff, hzero, hsent⟩ := h.stage.of_owned (Or.inl hpc)
  refine ⟨h.buf, h.len, .owned (Or.inr ⟨rfl, rfl⟩) hoff hzero hsent, h.fills, ?_, h.gives⟩
  exact List.forall_mem_append.mpr ⟨h.resets, List.forall_mem_singleton.mpr ⟨hoff, k, hsent⟩⟩

theorem enable (h : TxInv msg s k) (hpc : s.pc = .enable) : TxInv msg s.enable k := by
  obtain ⟨hcount, -, hzero, hsent⟩ := h.stage.of_owned (Or.inr hpc)
  have hfull : s.txCount.toNat = msg.bytes.length := by
    rw [hcount hpc]
    exact h.len
  have hpos : 0 < s.txCount.toNat := by
    rw [hfull]
    exact msg.nonempty
  refine ⟨h.buf, h.len, .sending (Or.inr rfl) rfl hzero hpos (Nat.le_of_eq hfull) ?_, h.fills,
    h.resets, h.gives⟩
  show s.emitted = msg.copies k ++ msg.bytes.take (msg.bytes.length - s.txCount.toNat)
  rw [hfull, Nat.sub_self, List.take_zero, List.append_nil]
  exact hsent

theorem sleep (h : TxInv msg s k) (hpc : s.pc = .sleep) : TxInv msg s.sleep k := by
  refine ⟨h.buf, h.len, ?_, h.fills, h.resets, h.gives⟩
  rcases h.stage with ⟨-, hoff, hone, hsent⟩ | ⟨hpc', -, -, -⟩ | ⟨-, hon, hzero, hpos, hle, hsent⟩
  · exact .idle (Or.inl rfl) hoff hone hsent
  · simp [hpc] at hpc'
  · exact .sending (Or.inl rfl) hon hzero hpos hle hsent

end TxInv

/-! ### The handler -/

/-- The handler at work on the message behind `k` whole ones, with `tx_count` bytes to go, none left
included. -/
structure InProgress (msg : Message) (s : Tx) (k : Nat) : Prop where
  buf : s.txBuf.slice 0 msg.bytes.length = msg.bytes
  len : s.txLen.toNat = msg.bytes.length
  pc : s.pc = .take ∨ s.pc = .sleep
  enabled : s.irqEnabled = true
  taken : s.txDone = 0
  left : s.txCount.toNat ≤ msg.bytes.length
  emitted : s.emitted = msg.copies k ++ msg.bytes.take (msg.bytes.length - s.txCount.toNat)
  fills : ∀ f ∈ s.fills, f.index.toNat + f.txCount.toNat = f.txLen.toNat ∧
    f.index.toNat < f.txLen.toNat ∧ f.txLen.toNat = msg.bytes.length ∧ f.sended ≤ f.txCount.toNat
  resets : ∀ r ∈ s.resets, r.irqEnabled = false ∧ ∃ k, r.emitted = msg.copies k
  gives : s.gives = (List.range k).map fun i => ⟨0, msg.copies (i + 1)⟩

/-- Whenever the handler is entered, it has something to send. -/
theorem TxInv.inProgress {msg : Message} {s : Tx} {k : Nat} (h : TxInv msg s k)
    (hon : s.irqEnabled = true) : InProgress msg s k ∧ 0 < s.txCount.toNat := by
  rcases h.stage with ⟨-, hoff, -, -⟩ | ⟨-, hoff, -, -⟩ | ⟨hpc, -, hzero, hpos, hle, hsent⟩
  · exact absurd (hoff.symm.trans hon) Bool.false_ne_true
  · exact absurd (hoff.symm.trans hon) Bool.false_ne_true
  · exact ⟨⟨h.buf, h.len, hpc, hon, hzero, hle, hsent, h.fills, h.resets, h.gives⟩, hpos⟩

namespace InProgress

variable {msg : Message} {s : Tx} {k : Nat}

theorem inv (h : InProgress msg s k) (hpos : 0 < s.txCount.toNat) : TxInv msg s k :=
  ⟨h.buf, h.len, .sending h.pc h.enabled h.taken hpos h.left h.emitted, h.fills, h.resets, h.gives⟩

theorem loaded (h : InProgress msg s k) : Loaded msg s.txBuf s.txCount s.txLen :=
  ⟨h.buf, h.len, h.left⟩

/-- A fill sends the next bytes of the message. -/
theorem fill (h : InProgress msg s k) (hpos : 0 < s.txCount.toNat) (room : Nat) :
    InProgress msg (s.fill room) k where
  buf := h.buf
  len := h.len
  pc := h.pc
  enabled := h.enabled
  taken := h.taken
  left := (h.loaded.fill room).left
  emitted := by
    show s.emitted ++ s.txBuf.slice (s.txLen - s.txCount).toNat (min room s.txCount.toNat) = _
    rw [h.emitted, List.append_assoc, h.loaded.take_fill room]
    rfl
  fills := by
    have hleft := h.left
    refine List.forall_mem_append.mpr ⟨h.fills, List.forall_mem_singleton.mpr ?_⟩
    show (s.txLen - s.txCount).toNat + s.txCount.toNat = s.txLen.toNat ∧
      (s.txLen - s.txCount).toNat < s.txLen.toNat ∧ s.txLen.toNat = _ ∧ _ ≤ _
    rw [h.loaded.index_toNat, h.len]
    exact ⟨by omega, by omega, rfl, Nat.min_le_right ..⟩
  resets := h.resets
  gives := h.gives

/-- With nothing left the message is whole, and the semaphore is given. -/
theorem finish (h : InProgress msg s k) (hzero : s.txCount = 0) : TxInv msg s.finish (k + 1) := by
  have hwhole : s.emitted = msg.copies (k + 1) := by
    rw [h.emitted, hzero, msg.copies_succ]
    show _ ++ msg.bytes.take msg.bytes.length = _
    rw [List.take_length]
  refine ⟨h.buf, h.len, ?_, h.fills, h.resets, ?_⟩
  · refine .idle h.pc rfl ?_ hwhole
    show (if s.txDone < 1 then s.txDone + 1 else s.txDone) = 1
    rw [h.taken]
    rfl
  · show s.gives ++ [⟨s.txDone, s.emitted⟩] = _
    rw [h.gives, h.taken, hwhole, List.range_succ, List.map_append]
    rfl

/-- The end of the handler. -/
theorem leave (h : InProgress msg s k) :
    ∃ k', TxInv msg (if s.txCount = 0 then s.finish else s) k' := by
  split_ifs with hzero
  · exact ⟨k + 1, h.finish hzero⟩
  · refine ⟨k, h.inv (Nat.pos_of_ne_zero fun heq => hzero ?_)⟩
    exact UInt8.toNat_inj.mp heq

end InProgress

theorem TxInv.uartCb {msg : Message} {s : Tx} {k : Nat} (h : TxInv msg s k)
    (hon : s.irqEnabled = true) (i : TxIrq) : ∃ k', TxInv msg (uartCb s i) k' := by
  obtain ⟨hprog, hpos⟩ := h.inProgress hon
  have hne : s.txCount ≠ 0 := by
    rintro hzero
    rw [hzero] at hpos
    exact absurd hpos (by decide)
  unfold Transmission.uartCb
  rw [if_pos hne]
  split_ifs with hpending hready
  · exact (hprog.fill hpos i.room).leave
  · exact hprog.leave
  · exact ⟨k, h⟩

theorem inv_of_reachable {msg : Message} {s : Tx} (h : (transmission msg).Reachable s) :
    ∃ k, TxInv msg s k := by
  refine h.invariant (I := fun s => ∃ k, TxInv msg s k) ?_ ?_
  · rintro s ⟨garbage, rfl⟩
    exact ⟨0, inv_start msg garbage⟩
  · rintro s t l - ⟨k, hinv⟩ hstep
    rcases hstep with ⟨-, hup⟩ | hpc | hpc | hpc | hon
    · exact ⟨k, hinv.take hup⟩
    · exact ⟨k, hinv.reset hpc⟩
    · exact ⟨k, hinv.enable hpc⟩
    · exact ⟨k, hinv.sleep hpc⟩
    · exact hinv.uartCb hon _

/-- What has been sent, in every stage: `k` messages and less than one more. -/
theorem TxInv.emitted {msg : Message} {s : Tx} {k : Nat} (h : TxInv msg s k) :
    ∃ part, part <+: msg.bytes ∧ part.length < msg.bytes.length ∧
      s.emitted = msg.copies k ++ part := by
  have hpos := msg.nonempty
  rcases h.stage with ⟨-, -, -, hsent⟩ | ⟨-, -, -, hsent⟩ | ⟨-, -, -, hleft, -, hsent⟩
  · exact ⟨[], List.nil_prefix, hpos, by rw [hsent, List.append_nil]⟩
  · exact ⟨[], List.nil_prefix, hpos, by rw [hsent, List.append_nil]⟩
  · refine ⟨_, List.take_prefix _ _, ?_, hsent⟩
    rw [List.length_take]
    omega

theorem TxInv.proper {msg : Message} {s : Tx} {k : Nat} (h : TxInv msg s k) : Proper msg s := by
  obtain ⟨part, hpart, hshort, hsent⟩ := h.emitted
  refine ⟨h.fills, ⟨k, part, hpart, hsent⟩, h.resets, ?_⟩
  have hwhole : s.emitted.length / msg.bytes.length = k := by
    rw [hsent, List.length_append, msg.length_copies, Nat.mul_comm,
      Nat.mul_add_div msg.nonempty, Nat.div_eq_of_lt hshort, Nat.add_zero]
  rw [hwhole]
  exact h.gives

/-- **Paced transmission.** For every message and whatever the stack held, in every state of every
interleaving of `main` with the interrupts, and whatever the FIFO accepts: every fill starts where the
message goes on and stays inside it, whole messages and a beginning of one were sent, `tx_count` was
reset only between two messages, and the semaphore was given once for each, while its count was 0. -/
theorem transmission_proper {msg : Message} {s : Tx} (h : (transmission msg).Reachable s) :
    Proper msg s := by
  obtain ⟨k, hinv⟩ := inv_of_reachable h
  exact hinv.proper

/-- The message `ok`. -/
def okMessage : Message := ⟨[111, 107], by decide, by decide, by decide⟩

/-- The message sent byte by byte, and the semaphore taken again. -/
def okSent : Tx :=
  (uartCb (uartCb (start okMessage fun _ => 0).take.reset.enable ⟨true, true, true, 1⟩)
    ⟨true, true, true, 1⟩).sleep.take

theorem okSent_reachable : (transmission okMessage).Reachable okSent := by
  have hstart : (transmission okMessage).Reachable (start okMessage fun _ => 0) := .init ⟨_, rfl⟩
  have henabled := ((hstart.step (.take rfl (by decide))).step (.reset rfl)).step (.enable rfl)
  have hfirst := henabled.step (.irq (i := ⟨true, true, true, 1⟩) rfl)
  have hsecond := hfirst.step (.irq (i := ⟨true, true, true, 1⟩) rfl)
  exact (hsecond.step (.sleep rfl)).step (.take rfl (by decide))

theorem okSent_proper : Proper okMessage okSent := transmission_proper okSent_reachable

end ZephyrSamples.Uart.Transmission
