/-
# ZephyrSamples.Uart.NetBuf -- three messages in net buffers

`main` takes a semaphore, fills all three buffers of the pool, queues the last two and starts the
transmission of the first. From there on `uart_cb` goes along: at every end of a transmission it gives the
buffer back and starts the next one of the queue, and at the end of the queue it gives the semaphore. A
buffer is handed on without a lock, from `main` to the queue, to `ref_buff`, to the driver and back to the
pool. `NetBufInv` lists the buffers that are out, in the order of their messages; where each of them stands
follows from where the two parties stand (`Stage`).

The pool answers with any buffer that is free, and does as it likes with the list node of one that was
given back.
-/
import Mathlib.Data.List.Basic
import ZephyrSamples.Lib.CString
import ZephyrSamples.Lib.Slist
import ZephyrSamples.Lib.Transition

namespace ZephyrSamples.Uart.NetBuf

open ZephyrSamples.Lib
open ZephyrSamples.Lib.CString

/-! ## Data -/

/-- A buffer of `tx_net_pool`, which has `MAX_BUFFERS` of them. -/
abbrev Buf := Fin 3

def maxBuffSize : Nat := 64

def text : Fin 3 → String
  | 0 => "First: Hola DMA uart Tx from DMA sending more\r\n"
  | 1 => "Second: Este s otro mensaje muy difernete\r\n"
  | 2 => "Third: Aqui hay uno mas para mandar seguido\r\n"

/-- `message1`, `message2`, `message3`: the array of a string literal ends in NUL. -/
def message (i : Fin 3) : List UInt8 := (text i).toList.map (fun c => UInt8.ofNat c.toNat) ++ [0]

/-- Every `memcpy` stays inside its buffer. -/
theorem message_fits (i : Fin 3) : (message i).length ≤ maxBuffSize := by
  revert i
  decide

/-- The messages of one round. -/
def round : List (List UInt8) := [message 0, message 1, message 2]

/-- `k` rounds. -/
def rounds (k : Nat) : List (List UInt8) := (List.replicate k round).flatten

theorem rounds_succ (k : Nat) : rounds (k + 1) = rounds k ++ round := by
  unfold rounds
  rw [List.replicate_succ', List.flatten_append, List.flatten_singleton]

/-- Where `main` stands: before `k_sem_take`, before the allocation of a buffer, before filling it, before
each `k_fifo_put`, before the assignment to `ref_buff`, before `uart_tx`, before `k_msleep`. -/
inductive MainPc where
  | take
  | alloc (i : Fin 3)
  | fill (i : Fin 3)
  | put2
  | put3
  | setRef
  | tx
  | sleep
  deriving DecidableEq, Repr

/-- Where `uart_cb` stands in the case of `UART_TX_DONE`: before `net_buf_unref`, before `k_fifo_get`,
before the test of `ref_buff`, before `uart_tx`, before `k_sem_give`; `idle` when it is not running. -/
inductive CbPc where
  | idle
  | unref
  | get
  | test
  | tx
  | give
  deriving DecidableEq, Repr

/-- Calls on a buffer, and the end of a transfer. -/
inductive Act where
  | alloc (b : Option Buf)
  | uartTx (b : Buf) (busy : Bool)
  | done (b : Buf)
  | unref (b : Buf)
  deriving DecidableEq, Repr

/-- `struct serial_tx`, the pool (reference count, memory and `len` of each buffer), the two parties, the
driver's transfer, and a history: the messages started and the acts, the newest act first. -/
structure Serial where
  txSem : Nat
  txQueue : Slist Buf
  /-- `tx_buf1`, `tx_buf2`, `tx_buf3` -/
  txBuf : Fin 3 → Option Buf
  refBuff : Option Buf
  ref : Buf → Nat
  mem : Buf → Memory
  len : Buf → Nat
  main : MainPc
  cb : CbPc
  active : Option Buf
  sent : List (List UInt8)
  log : List Act

namespace Serial

/-- Up to the loop: the semaphore is up, the pool and the queue are as they were defined. -/
def start (next : Buf → Option Buf) (mem : Buf → Memory) (len : Buf → Nat) : Serial where
  txSem := 1
  txQueue := .empty next
  txBuf _ := none
  refBuff := none
  ref _ := 0
  mem := mem
  len := len
  main := .take
  cb := .idle
  active := none
  sent := []
  log := []

/-- The bytes between `data` and `data + len`. -/
def content (s : Serial) (b : Buf) : List UInt8 := (s.mem b).slice 0 (s.len b)

/-- `uart_tx(dev, b->data, b->len, SYS_FOREVER_US)`: `-EBUSY` during a transfer. -/
def uartTx (s : Serial) (b : Buf) : Serial :=
  match s.active with
  | none => { s with
      active := some b
      sent := s.sent ++ [s.content b]
      log := .uartTx b false :: s.log }
  | some _ => { s with log := .uartTx b true :: s.log }

/-! ### `main` -/

/-- `k_sem_take(&serial.tx_sem, K_FOREVER)`, once the count allows it. -/
def take (s : Serial) : Serial := { s with txSem := s.txSem - 1, main := .alloc 0 }

/-- `net_buf_alloc` returns a buffer, empty and referenced once. -/
def alloc (s : Serial) (i : Fin 3) (b : Buf) : Serial :=
  { s with
    ref := Function.update s.ref b 1
    len := Function.update s.len b 0
    txBuf := Function.update s.txBuf i (some b)
    main := .fill i
    log := .alloc (some b) :: s.log }

/-- `net_buf_alloc` returns `NULL`. -/
def allocFails (s : Serial) (i : Fin 3) : Serial :=
  { s with
    txBuf := Function.update s.txBuf i none
    main := .fill i
    log := .alloc none :: s.log }

end Serial

/-- What follows the filling of a buffer. -/
def MainPc.afterFill : Fin 3 → MainPc
  | 0 => .alloc 1
  | 1 => .alloc 2
  | 2 => .put2

namespace Serial

/-- `memcpy` and `net_buf_add` -/
def fill (s : Serial) (i : Fin 3) (b : Buf) : Serial :=
  { s with
    mem := Function.update s.mem b ((s.mem b).blit 0 (message i))
    len := Function.update s.len b (s.len b + (message i).length)
    main := .afterFill i }

/-- `k_fifo_put(&serial.tx_queue, b)` -/
def put (s : Serial) (b : Buf) (next : MainPc) : Serial :=
  { s with txQueue := s.txQueue.append b, main := next }

/-- `serial.ref_buff = serial.tx_buf1` -/
def setRef (s : Serial) : Serial := { s with refBuff := s.txBuf 0, main := .tx }

/-- The `uart_tx` of `main`. -/
def tx (s : Serial) (b : Buf) : Serial := { s.uartTx b with main := .sleep }

/-- `k_msleep(1000)` -/
def sleep (s : Serial) : Serial := { s with main := .take }

/-! ### The driver and `uart_cb` -/

/-- The transfer ends and the callback is entered with `UART_TX_DONE`. -/
def done (s : Serial) (b : Buf) : Serial :=
  { s with active := none, cb := .unref, log := .done b :: s.log }

/-- `net_buf_unref(serial->ref_buff)`; a buffer that goes back to the pool has its node linked there. -/
def unref (s : Serial) (b : Buf) (link : Option Buf) : Serial :=
  { s with
    ref := Function.update s.ref b (s.ref b - 1)
    txQueue := if s.ref b = 1 then s.txQueue.setNext b link else s.txQueue
    cb := .get
    log := .unref b :: s.log }

/-- `serial->ref_buff = k_fifo_get(&serial->tx_queue, K_NO_WAIT)` -/
def get (s : Serial) : Serial :=
  { s with txQueue := s.txQueue.get.2, refBuff := s.txQueue.get.1, cb := .test }

/-- `if(serial->ref_buff != NULL)` -/
def test (s : Serial) : Serial := { s with cb := if s.refBuff.isSome then .tx else .give }

/-- The `uart_tx` of `uart_cb`. -/
def send (s : Serial) (b : Buf) : Serial := { s.uartTx b with cb := .idle }

/-- `k_sem_give(&serial->tx_sem)`; the limit of the semaphore is 1. -/
def give (s : Serial) : Serial := { s with txSem := min 1 (s.txSem + 1), cb := .idle }

end Serial

inductive Party where
  | main
  | driver
  deriving DecidableEq, Repr

/-- One call or assignment of one party. Using a `NULL` buffer is no step. -/
inductive Serial.Step : Party → Serial → Serial → Prop
  | take {s : Serial} : s.main = .take → 0 < s.txSem → Step .main s s.take
  | alloc {s : Serial} {i : Fin 3} {b : Buf} : s.main = .alloc i → s.ref b = 0 →
      Step .main s (s.alloc i b)
  | allocFails {s : Serial} {i : Fin 3} : s.main = .alloc i → (∀ b, s.ref b ≠ 0) →
      Step .main s (s.allocFails i)
  | fill {s : Serial} {i : Fin 3} {b : Buf} : s.main = .fill i → s.txBuf i = some b →
      Step .main s (s.fill i b)
  | put2 {s : Serial} {b : Buf} : s.main = .put2 → s.txBuf 1 = some b → Step .main s (s.put b .put3)
  | put3 {s : Serial} {b : Buf} : s.main = .put3 → s.txBuf 2 = some b →
      Step .main s (s.put b .setRef)
  | setRef {s : Serial} : s.main = .setRef → Step .main s s.setRef
  | tx {s : Serial} {b : Buf} : s.main = .tx → s.refBuff = some b → Step .main s (s.tx b)
  | sleep {s : Serial} : s.main = .sleep → Step .main s s.sleep
  | done {s : Serial} {b : Buf} : s.active = some b → s.cb = .idle → Step .driver s (s.done b)
  | unref {s : Serial} {b : Buf} {link : Option Buf} : s.cb = .unref → s.refBuff = some b →
      Step .driver s (s.unref b link)
  | get {s : Serial} : s.cb = .get → Step .driver s s.get
  | test {s : Serial} : s.cb = .test → Step .driver s s.test
  | send {s : Serial} {b : Buf} : s.cb = .tx → s.refBuff = some b → Step .driver s (s.send b)
  | give {s : Serial} : s.cb = .give → Step .driver s s.give

/-- `main` and the driver with its callback, in any order. -/
def netBufs : System Serial Party where
  init s := ∃ next mem len, s = .start next mem len
  step := Serial.Step

/-- No allocation fails. Each buffer is allocated, sent, done and given back in turn, once each. No
`uart_tx` meets a transfer. The messages started are 1, 2, 3, 1, 2, 3 and so on, and the one under way
is still in its buffer. While the semaphore is up everything is back. -/
structure Tidy (s : Serial) : Prop where
  allocs : .alloc none ∉ s.log
  inTurn : ∀ b, s.log.count (.unref b) ≤ s.log.count (.done b) ∧
    s.log.count (.done b) ≤ s.log.count (.uartTx b false) ∧
    s.log.count (.uartTx b false) ≤ s.log.count (.alloc (some b)) ∧
    s.log.count (.alloc (some b)) ≤ s.log.count (.unref b) + 1
  notBusy : ∀ b, .uartTx b true ∉ s.log
  order : ∃ k, s.sent <+: rounds k
  intact : ∀ b, s.active = some b → s.sent.getLast? = some (s.content b)
  back : 0 < s.txSem → (∀ b, s.ref b = 0 ∧ s.log.count (.alloc (some b)) = s.log.count (.unref b)) ∧
    s.txQueue.head = none ∧ s.refBuff = none

/-! ## Where the buffers are -/

/-- While `main` prepares a round: how many buffers it has allocated in it. -/
def MainPc.allocated : MainPc → Option Nat
  | .take | .sleep => none
  | .alloc i => some i.val
  | .fill i => some (i.val + 1)
  | .put2 | .put3 | .setRef | .tx => some 3

/-- How many of them it has filled. -/
def MainPc.filled : MainPc → Nat
  | .take | .sleep => 0
  | .alloc i | .fill i => i.val
  | .put2 | .put3 | .setRef | .tx => 3

/-- Those it has queued. -/
def MainPc.queued (bs : List Buf) : MainPc → List Buf
  | .put3 => (bs.drop 1).take 1
  | .setRef | .tx => bs.drop 1
  | _ => []

/-- What it has stored in `ref_buff`. -/
def MainPc.marked (bs : List Buf) : MainPc → Option Buf
  | .tx => bs.head?
  | _ => none

/-- The buffer `uart_cb` is about to give back. -/
def CbPc.leaving (refBuff : Option Buf) : CbPc → List Buf
  | .unref => refBuff.toList
  | _ => []

/-- `main` prepares a round and has allocated `bs`. -/
structure Building (s : Serial) (bs : List Buf) : Prop where
  allocated : s.main.allocated = some bs.length
  txSem : s.txSem = 0
  cb : s.cb = .idle
  active : s.active = none
  refBuff : s.refBuff = s.main.marked bs
  queue : s.txQueue.Represents (s.main.queued bs)
  txBuf : ∀ j : Fin 3, j.val < bs.length → s.txBuf j = bs[j.val]?
  filled : (bs.take s.main.filled).map s.content = round.take s.main.filled
  fresh : ∀ b ∈ bs.drop s.main.filled, s.len b = 0

/-- `uart_cb` goes along the queue: `bs` are the buffers not given back, `waiting` those not started. -/
def Chain (s : Serial) (bs waiting : List Buf) : CbPc → Prop
  | .idle => ∃ x, s.active = some x ∧ s.refBuff = some x ∧ bs = x :: waiting ∧
      s.txQueue.Represents waiting ∧ s.sent.getLast? = some (s.content x)
  | .unref => s.active = none ∧ ∃ x, s.refBuff = some x ∧ bs = x :: waiting ∧
      s.txQueue.Represents waiting
  | .get => s.active = none ∧ bs = waiting ∧ s.txQueue.Represents waiting
  | .test => s.active = none ∧ bs = waiting ∧ s.refBuff = waiting.head? ∧
      s.txQueue.Represents waiting.tail
  | .tx => s.active = none ∧ bs = waiting ∧ ∃ x l, waiting = x :: l ∧ s.refBuff = some x ∧
      s.txQueue.Represents l
  | .give => s.active = none ∧ bs = [] ∧ waiting = [] ∧ s.refBuff = none ∧
      s.txQueue.Represents []

/-- Who is at work: nobody, `main`, or the driver with its callback. -/
inductive Stage (s : Serial) : List Buf → List Buf → Prop
  | idle : s.main.allocated = none → s.txSem = 1 → s.cb = .idle → s.active = none →
      s.refBuff = none → s.txQueue.Represents [] → Stage s [] []
  | building {bs : List Buf} : Building s bs → Stage s bs []
  | chain {bs waiting : List Buf} : s.main.allocated = none → s.txSem = 0 →
      Chain s bs waiting s.cb → Stage s bs waiting

/-- Behind every buffer: its acts so far, counted. -/
structure History (s : Serial) (bs : List Buf) : Prop where
  allocs : ∀ b, s.log.count (.alloc (some b)) = s.log.count (.unref b) + bs.count b
  txs : ∀ b, s.log.count (.uartTx b false) = s.log.count (.done b) + s.active.toList.count b
  dones : ∀ b, s.log.count (.done b) =
    s.log.count (.unref b) + (s.cb.leaving s.refBuff).count b
  noNull : .alloc none ∉ s.log
  notBusy : ∀ b, .uartTx b true ∉ s.log

/-- With the buffers `bs` out, `waiting` not started, and `k` rounds started or being started. -/
structure NetBufInv (s : Serial) (bs waiting : List Buf) (k : Nat) : Prop where
  stage : Stage s bs waiting
  nodup : bs.Nodup
  refs : ∀ b, s.ref b = bs.count b
  history : History s bs
  account : s.sent ++ waiting.map s.content = rounds k

namespace Stage

variable {s : Serial} {bs waiting : List Buf}

/-- While `main` prepares a round it alone is at work, with as many buffers out as its place says. -/
theorem of_building (h : Stage s bs waiting) {n : Nat} (hpc : s.main.allocated = some n) :
    Building s bs ∧ bs.length = n ∧ waiting = [] := by
  rcases h with ⟨hout, -, -, -, -, -⟩ | hbuild | ⟨hout, -, -⟩
  · cases hout.symm.trans hpc
  · exact ⟨hbuild, Option.some.inj (hbuild.allocated.symm.trans hpc), rfl⟩
  · cases hout.symm.trans hpc

/-- A callback that is running goes along the queue. -/
theorem of_cb (h : Stage s bs waiting) (hcb : s.cb ≠ .idle) :
    s.main.allocated = none ∧ s.txSem = 0 ∧ Chain s bs waiting s.cb := by
  rcases h with ⟨-, -, hidle, -, -, -⟩ | hbuild | ⟨hout, hzero, hchain⟩
  · exact absurd hidle hcb
  · exact absurd hbuild.cb hcb
  · exact ⟨hout, hzero, hchain⟩

/-- So does a transfer. -/
theorem of_active (h : Stage s bs waiting) {x : Buf} (hactive : s.active = some x)
    (hcb : s.cb = .idle) : s.main.allocated = none ∧ s.txSem = 0 ∧ s.refBuff = some x ∧
      bs = x :: waiting ∧ s.txQueue.Represents waiting := by
  rcases h with ⟨-, -, -, hnone, -, -⟩ | hbuild | ⟨hout, hzero, hchain⟩
  · cases hnone.symm.trans hactive
  · cases hbuild.active.symm.trans hactive
  · rw [hcb] at hchain
    obtain ⟨y, hy, href, hbs, hqueue, -⟩ := hchain
    obtain rfl : x = y := Option.some.inj (hactive.symm.trans hy)
    exact ⟨hout, hzero, href, hbs, hqueue⟩

/-- Its first act is on a buffer that is out. -/
theorem out_of_unref (h : Stage s bs waiting) (hcb : s.cb = .unref) :
    bs.length = waiting.length + 1 := by
  obtain ⟨-, -, hchain⟩ := h.of_cb (by simp [hcb])
  rw [hcb] at hchain
  obtain ⟨-, x, -, rfl, -⟩ := hchain
  rfl

/-- A semaphore that is up has everything back. -/
theorem of_up (h : Stage s bs waiting) (hup : 0 < s.txSem) :
    s.txSem = 1 ∧ s.cb = .idle ∧ s.active = none ∧ s.refBuff = none ∧ s.txQueue.Represents [] ∧
      bs = [] ∧ waiting = [] := by
  rcases h with ⟨-, hone, hidle, hnone, href, hqueue⟩ | hbuild | ⟨-, hzero, -⟩
  · exact ⟨hone, hidle, hnone, href, hqueue, rfl, rfl⟩
  · rw [hbuild.txSem] at hup
    cases hup
  · rw [hzero] at hup
    cases hup

/-- The buffer of the transfer and the one about to be given back are one buffer that is out. -/
theorem count_le (h : Stage s bs waiting) (b : Buf) :
    s.active.toList.count b + (s.cb.leaving s.refBuff).count b ≤ bs.count b := by
  rcases h with ⟨-, -, hidle, hnone, -, -⟩ | hbuild | ⟨-, -, hchain⟩
  · rw [hidle, hnone]
    exact Nat.le_refl 0
  · rw [hbuild.cb, hbuild.active]
    exact Nat.zero_le _
  · rcases hcb : s.cb with _ | _ | _ | _ | _ | _ <;> rw [hcb] at hchain
    · obtain ⟨x, hactive, -, rfl, -, -⟩ := hchain
      rw [hactive]
      simp [CbPc.leaving, List.count_cons]
    · obtain ⟨hnone, x, href, rfl, -⟩ := hchain
      rw [hnone, href]
      simp [CbPc.leaving, List.count_cons]
    · rw [hchain.1]
      exact Nat.zero_le _
    · rw [hchain.1]
      exact Nat.zero_le _
    · rw [hchain.1]
      exact Nat.zero_le _
    · rw [hchain.1]
      exact Nat.zero_le _

end Stage

namespace History

variable {s t : Serial} {bs : List Buf} {b : Buf}

/-- A step that is no act. -/
theorem still (h : History s bs) (hlog : t.log = s.log) (hactive : t.active = s.active)
    (hleaving : t.cb.leaving t.refBuff = s.cb.leaving s.refBuff) : History t bs := by
  refine ⟨?_, ?_, ?_, ?_, ?_⟩ <;> rw [hlog]
  · exact h.allocs
  · rw [hactive]
    exact h.txs
  · rw [hleaving]
    exact h.dones
  · exact h.noNull
  · exact h.notBusy

/-- A buffer taken from the pool is out from now on. -/
theorem allocated (h : History s bs) (hlog : t.log = .alloc (some b) :: s.log)
    (hactive : t.active = s.active) (hleaving : t.cb.leaving t.refBuff = s.cb.leaving s.refBuff) :
    History t (bs ++ [b]) := by
  refine ⟨?_, ?_, ?_, ?_, ?_⟩ <;> rw [hlog]
  · intro x
    simp [List.count_cons, h.allocs x, Nat.add_assoc]
  · intro x
    simpa [hactive] using h.txs x
  · intro x
    simpa [hleaving] using h.dones x
  · simpa using h.noNull
  · intro x
    simpa using h.notBusy x

/-- A `uart_tx` that finds the driver free. -/
theorem started (h : History s bs) (hlog : t.log = .uartTx b false :: s.log)
    (hnone : s.active = none) (hactive : t.active = some b)
    (hleaving : t.cb.leaving t.refBuff = s.cb.leaving s.refBuff) : History t bs := by
  refine ⟨?_, ?_, ?_, ?_, ?_⟩ <;> rw [hlog]
  · intro x
    simpa using h.allocs x
  · intro x
    have htxs := h.txs x
    rw [hnone] at htxs
    simp [hactive, List.count_cons, htxs]
  · intro x
    simpa [hleaving] using h.dones x
  · simpa using h.noNull
  · intro x
    simpa using h.notBusy x

/-- `UART_TX_DONE`: the buffer is one the callback is about to give back. -/
theorem ended (h : History s bs) (hlog : t.log = .done b :: s.log) (hsome : s.active = some b)
    (hactive : t.active = none) (hbefore : s.cb.leaving s.refBuff = [])
    (hafter : t.cb.leaving t.refBuff = [b]) : History t bs := by
  refine ⟨?_, ?_, ?_, ?_, ?_⟩ <;> rw [hlog]
  · intro x
    simpa using h.allocs x
  · intro x
    simp [hactive, hsome, List.count_cons, h.txs x]
  · intro x
    have hdones := h.dones x
    rw [hbefore, List.count_nil, Nat.add_zero] at hdones
    simp [hafter, List.count_cons, hdones]
  · simpa using h.noNull
  · intro x
    simpa using h.notBusy x

/-- The buffer that goes back to the pool is out no longer. -/
theorem given (h : History s (b :: bs)) (hlog : t.log = .unref b :: s.log)
    (hactive : t.active = s.active) (hbefore : s.cb.leaving s.refBuff = [b])
    (hafter : t.cb.leaving t.refBuff = []) : History t bs := by
  refine ⟨?_, ?_, ?_, ?_, ?_⟩ <;> rw [hlog]
  · intro x
    have hallocs := h.allocs x
    rw [List.count_cons] at hallocs
    simp [List.count_cons, hallocs]
    omega
  · intro x
    simpa [hactive] using h.txs x
  · intro x
    simp [hafter, h.dones x, hbefore, List.count_cons]
  · simpa using h.noNull
  · intro x
    simpa using h.notBusy x

end History

/-! ## Steps of `main` -/

/-- Two buffers or fewer leave one in the pool. -/
theorem exists_not_mem {bs : List Buf} (h : bs.length < 3) : ∃ b : Buf, b ∉ bs := by
  rcases bs with _ | ⟨x, _ | ⟨y, _ | ⟨z, l⟩⟩⟩
  · exact ⟨0, List.not_mem_nil⟩
  · revert x
    decide
  · revert x y
    decide
  · simp only [List.length_cons] at h
    omega

theorem afterFill_allocated (i : Fin 3) : (MainPc.afterFill i).allocated = some (i.val + 1) := by
  revert i
  decide

theorem afterFill_filled (i : Fin 3) : (MainPc.afterFill i).filled = i.val + 1 := by
  revert i
  decide

/-- Filling queues nothing, and marks none. -/
theorem afterFill_queued (bs : List Buf) (i : Fin 3) : (MainPc.afterFill i).queued bs = [] := by
  rcases i with ⟨_ | _ | _ | n, hi⟩
  · rfl
  · rfl
  · rfl
  · omega

theorem afterFill_marked (bs : List Buf) (i : Fin 3) : (MainPc.afterFill i).marked bs = none := by
  rcases i with ⟨_ | _ | _ | n, hi⟩
  · rfl
  · rfl
  · rfl
  · omega

/-- One more buffer filled is one more message of the round. -/
theorem round_take (i : Fin 3) : round.take (i.val + 1) = round.take i.val ++ [message i] := by
  rcases i with ⟨_ | _ | _ | n, hi⟩
  · rfl
  · rfl
  · rfl
  · omega

/-- A buffer just filled holds its message. -/
theorem content_fill {s : Serial} {b : Buf} (hempty : s.len b = 0) (i : Fin 3) :
    (s.fill i b).content b = message i := by
  have hmem : (s.fill i b).mem b = (s.mem b).blit 0 (message i) := Function.update_self ..
  have hlen : (s.fill i b).len b = (message i).length := by
    refine (Function.update_self ..).trans ?_
    rw [hempty, Nat.zero_add]
  rw [Serial.content, hmem, hlen]
  exact slice_blit (s.mem b) 0 (message i)

/-- The other buffers keep what they hold, also where a buffer is only allocated. -/
theorem content_fill_of_ne {s : Serial} {b x : Buf} (hne : x ≠ b) (i : Fin 3) :
    (s.fill i b).content x = s.content x := by
  have hmem : (s.fill i b).mem x = s.mem x := Function.update_of_ne hne ..
  have hlen : (s.fill i b).len x = s.len x := Function.update_of_ne hne ..
  rw [Serial.content, hmem, hlen]
  rfl

theorem content_alloc_of_ne {s : Serial} {b x : Buf} (hne : x ≠ b) (i : Fin 3) :
    (s.alloc i b).content x = s.content x := by
  have hlen : (s.alloc i b).len x = s.len x := Function.update_of_ne hne ..
  rw [Serial.content, hlen]
  rfl

namespace NetBufInv

variable {s : Serial} {bs waiting : List Buf} {k : Nat}

/-- Whatever the memory holds, at the start nothing is out. -/
theorem start (next : Buf → Option Buf) (mem : Buf → Memory) (len : Buf → Nat) :
    NetBufInv (.start next mem len) [] [] 0 where
  stage := .idle rfl rfl rfl rfl rfl (.empty next)
  nodup := List.nodup_nil
  refs _ := rfl
  history := ⟨fun _ => rfl, fun _ => rfl, fun _ => rfl, List.not_mem_nil, fun _ => List.not_mem_nil⟩
  account := rfl

/-- The semaphore is up only when everything is back, so the round begins with no buffer out. -/
theorem take (h : NetBufInv s bs waiting k) (hup : 0 < s.txSem) :
    NetBufInv s.take bs waiting k := by
  obtain ⟨hone, hcb, hnone, href, hqueue, rfl, rfl⟩ := h.stage.of_up hup
  have hsem : s.txSem - 1 = 0 := by rw [hone]
  have hbuild : Building s.take [] := by
    refine ⟨rfl, hsem, hcb, hnone, href, hqueue, ?_, rfl, ?_⟩
    · intro j hj
      cases hj
    · intro b hb
      cases hb
  exact ⟨.building hbuild, h.nodup, h.refs, h.history.still rfl rfl rfl, h.account⟩

/-- The buffer comes empty from the pool, behind those `main` has already. -/
theorem alloc (h : NetBufInv s bs waiting k) {i : Fin 3} {b : Buf} (hpc : s.main = .alloc i)
    (hfree : s.ref b = 0) : NetBufInv (s.alloc i b) (bs ++ [b]) waiting k := by
  obtain ⟨hbuild, hlen, rfl⟩ := h.stage.of_building (n := i.val) (by rw [hpc]; rfl)
  -- every buffer that is out is referenced
  have hnew : b ∉ bs := by
    intro hmem
    have hcount := h.refs b
    rw [hfree] at hcount
    exact absurd hmem (List.count_eq_zero.mp hcount.symm)
  have hqueue := hbuild.queue
  have href := hbuild.refBuff
  rw [hpc] at hqueue href
  have hfilled : (bs.take i.val).map s.content = round.take i.val := by
    have hall := hbuild.filled
    rw [hpc] at hall
    exact hall
  refine ⟨.building ⟨?_, hbuild.txSem, hbuild.cb, hbuild.active, href, hqueue, ?_, ?_, ?_⟩, ?_, ?_,
    h.history.allocated rfl rfl rfl, h.account⟩
  · show some (i.val + 1) = some (bs ++ [b]).length
    rw [List.length_append, hlen]
    rfl
  · -- tx_buf1, ..., in the order of their allocation
    intro j hj
    rw [List.length_append, List.length_singleton] at hj
    show Function.update s.txBuf i (some b) j = _
    by_cases hji : j = i
    · rw [hji, Function.update_self, ← hlen, List.getElem?_concat_length]
    · have hlt : j.val < bs.length := by
        have hne : j.val ≠ i.val := fun heq => hji (Fin.ext heq)
        omega
      rw [Function.update_of_ne hji, hbuild.txBuf j hlt, List.getElem?_append_left hlt]
  · -- the reset of the new buffer is not one of a buffer that is filled
    show ((bs ++ [b]).take i.val).map (s.alloc i b).content = round.take i.val
    rw [← hfilled, ← hlen, List.take_left, List.take_length]
    apply List.map_congr_left
    intro x hx
    apply content_alloc_of_ne
    rintro rfl
    exact hnew hx
  · intro x hx
    have hdrop : (bs ++ [b]).drop i.val = [b] := by rw [← hlen, List.drop_left]
    have hxb : x = b := List.mem_singleton.mp (hdrop ▸ hx)
    rw [hxb]
    exact Function.update_self ..
  · refine List.nodup_append.mpr ⟨h.nodup, List.nodup_cons.mpr ⟨List.not_mem_nil, List.nodup_nil⟩, ?_⟩
    intro x hx y hy
    rw [List.mem_singleton.mp hy]
    rintro rfl
    exact hnew hx
  · intro x
    show Function.update s.ref b 1 x = _
    rw [List.count_append]
    by_cases hx : x = b
    · rw [hx, Function.update_self, List.count_eq_zero.mpr hnew, List.count_singleton_self]
    · rw [Function.update_of_ne hx, h.refs, List.count_singleton, if_neg (by simpa using Ne.symm hx)]
      rfl

/-- The pool is never empty when `main` asks for a buffer. -/
theorem not_exhausted (h : NetBufInv s bs waiting k) {i : Fin 3} (hpc : s.main = .alloc i) :
    ∃ b, s.ref b = 0 := by
  obtain ⟨-, hlen, -⟩ := h.stage.of_building (n := i.val) (by rw [hpc]; rfl)
  have hfew : bs.length < 3 := by omega
  obtain ⟨b, hb⟩ := exists_not_mem hfew
  exact ⟨b, (h.refs b).trans (List.count_eq_zero.mpr hb)⟩

/-- What is filled is the buffer just allocated, and it was empty. -/
theorem fill (h : NetBufInv s bs waiting k) {i : Fin 3} {b : Buf} (hpc : s.main = .fill i)
    (hb : s.txBuf i = some b) : NetBufInv (s.fill i b) bs waiting k := by
  obtain ⟨hbuild, hlen, rfl⟩ := h.stage.of_building (n := i.val + 1) (by rw [hpc]; rfl)
  have hget : bs[i.val]? = some b := (hbuild.txBuf i (by omega)).symm.trans hb
  -- the buffer is the last of those allocated
  have hsplit : bs = bs.take i.val ++ [b] := by
    have htake := List.take_add_one (l := bs) (i := i.val)
    rw [hget, ← hlen, List.take_length] at htake
    exact htake
  have hnew : b ∉ bs.take i.val := by
    intro hmem
    have hnodup := h.nodup
    rw [hsplit] at hnodup
    exact (List.nodup_append.mp hnodup).2.2 b hmem b List.mem_cons_self rfl
  have hqueue := hbuild.queue
  have href := hbuild.refBuff
  have hfresh := hbuild.fresh
  rw [hpc] at hqueue href hfresh
  have hfilled : (bs.take i.val).map s.content = round.take i.val := by
    have hall := hbuild.filled
    rw [hpc] at hall
    exact hall
  have hempty : s.len b = 0 := by
    apply hfresh
    show b ∈ bs.drop i.val
    rw [List.drop_eq_getElem?_toList_append, hget]
    exact List.mem_cons_self
  refine ⟨.building ⟨?_, hbuild.txSem, hbuild.cb, hbuild.active, ?_, ?_, hbuild.txBuf, ?_, ?_⟩,
    h.nodup, h.refs, h.history.still rfl rfl rfl, h.account⟩
  · show (MainPc.afterFill i).allocated = _
    rw [afterFill_allocated, hlen]
  · show s.refBuff = (MainPc.afterFill i).marked bs
    rw [afterFill_marked]
    exact href
  · show s.txQueue.Represents ((MainPc.afterFill i).queued bs)
    rw [afterFill_queued]
    exact hqueue
  · show (bs.take (MainPc.afterFill i).filled).map _ = round.take (MainPc.afterFill i).filled
    have hbefore : (bs.take i.val).map (s.fill i b).content = round.take i.val := by
      rw [← hfilled]
      apply List.map_congr_left
      intro x hx
      apply content_fill_of_ne
      rintro rfl
      exact hnew hx
    rw [afterFill_filled, round_take, ← hlen, List.take_length, hsplit, List.map_append, hbefore,
      List.map_singleton, content_fill hempty]
  · show ∀ x ∈ bs.drop (MainPc.afterFill i).filled, _
    rw [afterFill_filled, ← hlen, List.drop_length]
    intro x hx
    cases hx

/-- With three buffers allocated, `tx_buf1`, `tx_buf2` and `tx_buf3` are all that is out. -/
theorem three (h : NetBufInv s bs waiting k) (hpc : s.main.allocated = some 3) :
    ∃ x y z, bs = [x, y, z] ∧ waiting = [] ∧ Building s [x, y, z] ∧ s.txBuf 0 = some x ∧
      s.txBuf 1 = some y ∧ s.txBuf 2 = some z := by
  obtain ⟨hbuild, hlen, hwaiting⟩ := h.stage.of_building hpc
  obtain ⟨x, y, z, rfl⟩ := List.length_eq_three.mp hlen
  exact ⟨x, y, z, rfl, hwaiting, hbuild, hbuild.txBuf 0 (by simp), hbuild.txBuf 1 (by simp),
    hbuild.txBuf 2 (by simp)⟩

/-- `tx_buf2` into an empty queue. -/
theorem put2 (h : NetBufInv s bs waiting k) {b : Buf} (hpc : s.main = .put2)
    (hb : s.txBuf 1 = some b) : NetBufInv (s.put b .put3) bs waiting k := by
  obtain ⟨x, y, z, rfl, rfl, hbuild, -, hy, -⟩ := h.three (by rw [hpc]; rfl)
  obtain rfl : b = y := Option.some.inj (hb.symm.trans hy)
  have hqueue := hbuild.queue
  have href := hbuild.refBuff
  have hfilled := hbuild.filled
  rw [hpc] at hqueue href hfilled
  refine ⟨.building ⟨rfl, hbuild.txSem, hbuild.cb, hbuild.active, href, ?_, hbuild.txBuf, hfilled, ?_⟩,
    h.nodup, h.refs, h.history.still rfl rfl rfl, h.account⟩
  · exact Slist.Represents.append hqueue List.not_mem_nil
  · intro x hx
    cases hx

/-- `tx_buf3` behind it. -/
theorem put3 (h : NetBufInv s bs waiting k) {b : Buf} (hpc : s.main = .put3)
    (hb : s.txBuf 2 = some b) : NetBufInv (s.put b .setRef) bs waiting k := by
  obtain ⟨x, y, z, rfl, rfl, hbuild, -, -, hz⟩ := h.three (by rw [hpc]; rfl)
  obtain rfl : b = z := Option.some.inj (hb.symm.trans hz)
  have hqueue := hbuild.queue
  have href := hbuild.refBuff
  have hfilled := hbuild.filled
  rw [hpc] at hqueue href hfilled
  have hnew : b ∉ [y] := by
    have hnodup := (List.nodup_cons.mp (List.nodup_cons.mp h.nodup).2).1
    intro hmem
    rw [List.mem_singleton.mp hmem] at hnodup
    exact hnodup List.mem_cons_self
  refine ⟨.building ⟨rfl, hbuild.txSem, hbuild.cb, hbuild.active, href, ?_, hbuild.txBuf, hfilled, ?_⟩,
    h.nodup, h.refs, h.history.still rfl rfl rfl, h.account⟩
  · exact Slist.Represents.append hqueue hnew
  · intro x hx
    cases hx

/-- `ref_buff` is `tx_buf1`, which is not in the queue. -/
theorem setRef (h : NetBufInv s bs waiting k) (hpc : s.main = .setRef) :
    NetBufInv s.setRef bs waiting k := by
  obtain ⟨x, y, z, rfl, rfl, hbuild, hx, -, -⟩ := h.three (by rw [hpc]; rfl)
  have hqueue := hbuild.queue
  have hfilled := hbuild.filled
  rw [hpc] at hqueue hfilled
  have hleaving : s.cb.leaving (s.txBuf 0) = s.cb.leaving s.refBuff := by
    rw [hbuild.cb]
    rfl
  refine ⟨.building ⟨rfl, hbuild.txSem, hbuild.cb, hbuild.active, hx, hqueue, hbuild.txBuf, hfilled, ?_⟩,
    h.nodup, h.refs, h.history.still rfl rfl hleaving, h.account⟩
  intro b hb
  cases hb

/-- The first message of the round is started; from here on the driver is at work, with two to go. -/
theorem tx (h : NetBufInv s bs waiting k) {b : Buf} (hpc : s.main = .tx)
    (hb : s.refBuff = some b) : ∃ l, NetBufInv (s.tx b) bs l (k + 1) := by
  obtain ⟨x, y, z, rfl, rfl, hbuild, -, -, -⟩ := h.three (by rw [hpc]; rfl)
  have hqueue := hbuild.queue
  have href := hbuild.refBuff
  have hfilled := hbuild.filled
  rw [hpc] at hqueue href hfilled
  obtain rfl : b = x := Option.some.inj (hb.symm.trans href)
  have hstart : s.tx b = { s with
      active := some b
      sent := s.sent ++ [s.content b]
      main := .sleep
      log := .uartTx b false :: s.log } := by
    simp only [Serial.tx, Serial.uartTx, hbuild.active]
  have hround : [s.content b] ++ [y, z].map s.content = round := hfilled
  rw [hstart]
  refine ⟨[y, z], .chain rfl hbuild.txSem ?_, h.nodup, h.refs,
    h.history.started rfl hbuild.active rfl rfl, ?_⟩
  · show Chain _ _ _ s.cb
    rw [hbuild.cb]
    exact ⟨b, rfl, hb, rfl, hqueue, List.getLast?_concat⟩
  · -- nothing waited before, so the round just started is a new one
    have haccount : s.sent = rounds k := by simpa using h.account
    show s.sent ++ [s.content b] ++ [y, z].map s.content = _
    rw [List.append_assoc, hround, haccount, rounds_succ]

/-- `main` sleeps whatever the driver does. -/
theorem sleep (h : NetBufInv s bs waiting k) (hpc : s.main = .sleep) :
    NetBufInv s.sleep bs waiting k := by
  refine ⟨?_, h.nodup, h.refs, h.history.still rfl rfl rfl, h.account⟩
  -- the callback may have given the semaphore already, or be anywhere on its way
  rcases h.stage with ⟨-, hone, hcb, hnone, href, hqueue⟩ | hbuild | ⟨-, hzero, hchain⟩
  · exact .idle rfl hone hcb hnone href hqueue
  · have hnone := hbuild.allocated
    rw [hpc] at hnone
    cases hnone
  · exact .chain rfl hzero hchain

/-! ## Steps of the driver and of `uart_cb` -/

/-- The buffer done is the one in `ref_buff`. -/
theorem done (h : NetBufInv s bs waiting k) {b : Buf} (hb : s.active = some b)
    (hcb : s.cb = .idle) : NetBufInv (s.done b) bs waiting k := by
  obtain ⟨hout, hzero, href, hbs, hqueue⟩ := h.stage.of_active hb hcb
  have hbefore : s.cb.leaving s.refBuff = [] := by
    rw [hcb]
    rfl
  have hafter : CbPc.leaving s.refBuff .unref = [b] := by
    rw [href]
    rfl
  exact ⟨.chain hout hzero ⟨rfl, b, href, hbs, hqueue⟩, h.nodup, h.refs,
    h.history.ended rfl hb rfl hbefore hafter, h.account⟩

/-- Its one reference goes and its node is linked in the pool, which is no harm to the queue. -/
theorem unref (h : NetBufInv s bs waiting k) {b : Buf} (hcb : s.cb = .unref)
    (hb : s.refBuff = some b) (link : Option Buf) :
    NetBufInv (s.unref b link) waiting waiting k := by
  obtain ⟨hout, hzero, hchain⟩ := h.stage.of_cb (by simp [hcb])
  rw [hcb] at hchain
  obtain ⟨hnone, x, href, rfl, hqueue⟩ := hchain
  obtain rfl : b = x := Option.some.inj (hb.symm.trans href)
  obtain ⟨hnew, hnodup⟩ := List.nodup_cons.mp h.nodup
  -- nobody else holds a reference, so the buffer goes back to the pool
  have hone : s.ref b = 1 := by
    rw [h.refs, List.count_cons_self, List.count_eq_zero.mpr hnew]
  have hbefore : s.cb.leaving s.refBuff = [b] := by
    rw [hcb, hb]
    rfl
  refine ⟨.chain hout hzero ⟨hnone, rfl, ?_⟩, hnodup, ?_, h.history.given rfl rfl hbefore rfl,
    h.account⟩
  · show (if s.ref b = 1 then s.txQueue.setNext b link else s.txQueue).Represents waiting
    rw [if_pos hone]
    exact hqueue.relink hnew link
  · intro x
    show Function.update s.ref b (s.ref b - 1) x = _
    by_cases hx : x = b
    · rw [hx, Function.update_self, hone, List.count_eq_zero.mpr hnew]
    · rw [Function.update_of_ne hx, h.refs, List.count_cons_of_ne (Ne.symm hx)]

/-- `k_fifo_get` hands over the next buffer of the round, or `NULL` at its end. -/
theorem get (h : NetBufInv s bs waiting k) (hcb : s.cb = .get) : NetBufInv s.get bs waiting k := by
  obtain ⟨hout, hzero, hchain⟩ := h.stage.of_cb (by simp [hcb])
  rw [hcb] at hchain
  obtain ⟨hnone, rfl, hqueue⟩ := hchain
  have hget : s.txQueue.get.1 = bs.head? ∧ s.txQueue.get.2.Represents bs.tail := by
    rcases bs with _ | ⟨x, l⟩
    · -- the third message is done: k_fifo_get returns NULL
      rw [Slist.get_of_head_none hqueue.path]
      exact ⟨rfl, hqueue⟩
    · exact hqueue.get
  have hleaving : s.cb.leaving s.refBuff = [] := by
    rw [hcb]
    rfl
  exact ⟨.chain hout hzero ⟨hnone, rfl, hget.1, hget.2⟩, h.nodup, h.refs,
    h.history.still rfl rfl hleaving.symm, h.account⟩

/-- `NULL` means that every buffer of the round is back. -/
theorem test (h : NetBufInv s bs waiting k) (hcb : s.cb = .test) : NetBufInv s.test bs waiting k := by
  obtain ⟨hout, hzero, hchain⟩ := h.stage.of_cb (by simp [hcb])
  rw [hcb] at hchain
  obtain ⟨hnone, rfl, href, hqueue⟩ := hchain
  have hleaving : s.cb.leaving s.refBuff = [] := by
    rw [hcb]
    rfl
  rcases bs with _ | ⟨x, l⟩
  · -- the round is over
    have htest : s.test = { s with cb := .give } := by
      simp only [Serial.test, href, List.head?_nil, Option.isSome_none, Bool.false_eq_true, if_false]
    rw [htest]
    exact ⟨.chain hout hzero ⟨hnone, rfl, rfl, href, hqueue⟩, h.nodup, h.refs,
      h.history.still rfl rfl hleaving.symm, h.account⟩
  · have htest : s.test = { s with cb := .tx } := by
      simp only [Serial.test, href, List.head?_cons, Option.isSome_some, if_true]
    rw [htest]
    exact ⟨.chain hout hzero ⟨hnone, rfl, x, l, rfl, href, hqueue⟩, h.nodup, h.refs,
      h.history.still rfl rfl hleaving.symm, h.account⟩

/-- The next message finds the driver free. -/
theorem send (h : NetBufInv s bs waiting k) {b : Buf} (hcb : s.cb = .tx) (hb : s.refBuff = some b) :
    ∃ l, NetBufInv (s.send b) bs l k := by
  obtain ⟨hout, hzero, hchain⟩ := h.stage.of_cb (by simp [hcb])
  rw [hcb] at hchain
  obtain ⟨hnone, rfl, x, l, rfl, href, hqueue⟩ := hchain
  obtain rfl : b = x := Option.some.inj (hb.symm.trans href)
  have hstart : s.send b = { s with
      active := some b
      sent := s.sent ++ [s.content b]
      cb := .idle
      log := .uartTx b false :: s.log } := by
    simp only [Serial.send, Serial.uartTx, hnone]
  have hleaving : s.cb.leaving s.refBuff = [] := by
    rw [hcb]
    rfl
  have haccount : s.sent ++ [s.content b] ++ l.map s.content = rounds k := by
    rw [List.append_assoc]
    exact h.account
  rw [hstart]
  exact ⟨l, .chain hout hzero ⟨b, rfl, hb, rfl, hqueue, List.getLast?_concat⟩, h.nodup, h.refs,
    h.history.started rfl hnone rfl hleaving.symm, haccount⟩

/-- The semaphore is given with nothing out. -/
theorem give (h : NetBufInv s bs waiting k) (hcb : s.cb = .give) : NetBufInv s.give bs waiting k := by
  obtain ⟨hout, hzero, hchain⟩ := h.stage.of_cb (by simp [hcb])
  rw [hcb] at hchain
  obtain ⟨hnone, rfl, rfl, href, hqueue⟩ := hchain
  have hone : min 1 (s.txSem + 1) = 1 := by
    rw [hzero]
    rfl
  have hleaving : s.cb.leaving s.refBuff = [] := by
    rw [hcb]
    rfl
  exact ⟨.idle hout hone rfl hnone href hqueue, h.nodup, h.refs,
    h.history.still rfl rfl hleaving.symm, h.account⟩

end NetBufInv

/-! ## Progress -/

/-- How far `main` is from the semaphore. -/
def MainPc.rank : MainPc → Nat
  | .alloc i => 11 - 2 * i.val
  | .fill i => 10 - 2 * i.val
  | .put2 => 5
  | .put3 => 4
  | .setRef => 3
  | .tx => 2
  | .sleep => 1
  | .take => 0

/-- How far `uart_cb` is from giving it, with `out` buffers not given back. -/
def CbPc.rank (out : Nat) : CbPc → Nat
  | .idle => 5 * out + 3
  | .unref => 5 * out + 2
  | .get => 5 * out + 6
  | .test => 5 * out + 5
  | .tx => 5 * out + 4
  | .give => 5 * out + 4

/-- A step of `main` outweighs the buffer it may add. -/
def Serial.rank (s : Serial) (bs : List Buf) : Nat := 25 * s.main.rank + s.cb.rank bs.length

/-- One more buffer out is five more steps of the callback. -/
theorem CbPc.rank_succ (pc : CbPc) (out : Nat) : pc.rank (out + 1) = pc.rank out + 5 := by
  rcases pc with _ | _ | _ | _ | _ | _ <;> simp only [CbPc.rank] <;> omega

theorem afterFill_rank (i : Fin 3) : (MainPc.afterFill i).rank < (MainPc.fill i).rank := by
  revert i
  decide

/-- `uart_tx` moves neither party. -/
theorem uartTx_main (s : Serial) (b : Buf) : (s.uartTx b).main = s.main := by
  unfold Serial.uartTx
  split <;> rfl

theorem uartTx_cb (s : Serial) (b : Buf) : (s.uartTx b).cb = s.cb := by
  unfold Serial.uartTx
  split <;> rfl

/-- A step of `main` that leaves the buffers alone. -/
theorem rank_lt_of_main {s t : Serial} {bs : List Buf} (hcb : t.cb = s.cb)
    (hmain : t.main.rank < s.main.rank) : t.rank bs < s.rank bs := by
  unfold Serial.rank
  rw [hcb]
  omega

/-- A step of the driver or of `uart_cb`. -/
theorem rank_lt_of_cb {s t : Serial} {bs bs' : List Buf} (hmain : t.main = s.main)
    (hcb : t.cb.rank bs'.length < s.cb.rank bs.length) : t.rank bs' < s.rank bs := by
  unfold Serial.rank
  rw [hmain]
  omega

namespace NetBufInv

variable {s : Serial} {bs waiting : List Buf} {k : Nat}

/-- **Step.** Every step keeps the invariant, and while the semaphore is down it brings both parties closer
to its next give. -/
theorem step (h : NetBufInv s bs waiting k) {party : Party} {t : Serial}
    (hs : Serial.Step party s t) :
    ∃ bs' waiting' k', NetBufInv t bs' waiting' k' ∧ (s.txSem = 0 → t.rank bs' < s.rank bs) := by
  cases hs with
  | take _ hup => exact ⟨_, _, _, h.take hup, fun hzero => absurd hzero (Nat.ne_of_gt hup)⟩
  | @alloc _ i b hpc hfree =>
      refine ⟨_, _, _, h.alloc hpc hfree, fun _ => ?_⟩
      -- the buffer adds five steps of the callback, the step of main counts 25
      show 25 * (10 - 2 * i.val) + s.cb.rank (bs ++ [b]).length < 25 * s.main.rank + _
      rw [hpc, List.length_append, List.length_singleton, CbPc.rank_succ]
      show _ < 25 * (11 - 2 * i.val) + _
      omega
  | allocFails hpc hall =>
      obtain ⟨b, hb⟩ := h.not_exhausted hpc
      exact absurd hb (hall b)
  | @fill _ i b hpc hb =>
      refine ⟨_, _, _, h.fill hpc hb, fun _ => rank_lt_of_main rfl ?_⟩
      rw [hpc]
      exact afterFill_rank i
  | put2 hpc hb =>
      refine ⟨_, _, _, h.put2 hpc hb, fun _ => rank_lt_of_main rfl ?_⟩
      rw [hpc]
      exact Nat.lt_succ_self 4
  | put3 hpc hb =>
      refine ⟨_, _, _, h.put3 hpc hb, fun _ => rank_lt_of_main rfl ?_⟩
      rw [hpc]
      exact Nat.lt_succ_self 3
  | setRef hpc =>
      refine ⟨_, _, _, h.setRef hpc, fun _ => rank_lt_of_main rfl ?_⟩
      rw [hpc]
      exact Nat.lt_succ_self 2
  | @tx _ b hpc hb =>
      obtain ⟨l, hinv⟩ := h.tx hpc hb
      refine ⟨_, l, _, hinv, fun _ => rank_lt_of_main (uartTx_cb s b) ?_⟩
      rw [hpc]
      exact Nat.lt_succ_self 1
  | sleep hpc =>
      refine ⟨_, _, _, h.sleep hpc, fun _ => rank_lt_of_main rfl ?_⟩
      rw [hpc]
      exact Nat.lt_succ_self 0
  | done hb hcb =>
      refine ⟨_, _, _, h.done hb hcb, fun _ => rank_lt_of_cb rfl ?_⟩
      rw [hcb]
      exact Nat.lt_succ_self _
  | unref hcb hb =>
      have hout := h.stage.out_of_unref hcb
      refine ⟨_, _, _, h.unref hcb hb _, fun _ => rank_lt_of_cb rfl ?_⟩
      -- five steps lead from this unref to the next, with one buffer less
      rw [hcb, hout]
      show 5 * waiting.length + 6 < 5 * (waiting.length + 1) + 2
      omega
  | get hcb =>
      refine ⟨_, _, _, h.get hcb, fun _ => rank_lt_of_cb rfl ?_⟩
      rw [hcb]
      exact Nat.lt_succ_self _
  | test hcb =>
      refine ⟨_, _, _, h.test hcb, fun _ => rank_lt_of_cb rfl ?_⟩
      rw [hcb]
      unfold Serial.test
      split
      · exact Nat.lt_succ_self _
      · exact Nat.lt_succ_self _
  | @send _ b hcb hb =>
      obtain ⟨l, hinv⟩ := h.send hcb hb
      refine ⟨_, l, _, hinv, fun _ => rank_lt_of_cb (uartTx_main s b) ?_⟩
      rw [hcb]
      exact Nat.lt_succ_self _
  | give hcb =>
      refine ⟨_, _, _, h.give hcb, fun _ => rank_lt_of_cb rfl ?_⟩
      rw [hcb]
      exact Nat.lt_succ_self _

/-- While the semaphore is down, `main` or the driver can go on. -/
theorem moves (h : NetBufInv s bs waiting k) (hzero : s.txSem = 0) :
    ∃ party t, netBufs.step party s t := by
  rcases h.stage with ⟨-, hone, -, -, -, -⟩ | hbuild | ⟨-, -, hchain⟩
  · cases hzero.symm.trans hone
  · have hallocated := hbuild.allocated
    rcases hpc : s.main with _ | i | i | _ | _ | _ | _ | _
    · rw [hpc] at hallocated
      cases hallocated
    · obtain ⟨b, hb⟩ := h.not_exhausted hpc
      exact ⟨_, _, Serial.Step.alloc hpc hb⟩
    · -- the pointer filled through is the one just allocated, not NULL
      rw [hpc] at hallocated
      have hlt : i.val < bs.length := by
        have hlen := Option.some.inj hallocated
        omega
      have hget : s.txBuf i = some bs[i.val] :=
        (hbuild.txBuf i hlt).trans (List.getElem?_eq_getElem hlt)
      exact ⟨_, _, Serial.Step.fill hpc hget⟩
    · obtain ⟨x, y, z, -, -, -, -, hy, -⟩ := h.three (by rw [hpc]; rfl)
      exact ⟨_, _, Serial.Step.put2 hpc hy⟩
    · obtain ⟨x, y, z, -, -, -, -, -, hz⟩ := h.three (by rw [hpc]; rfl)
      exact ⟨_, _, Serial.Step.put3 hpc hz⟩
    · exact ⟨_, _, Serial.Step.setRef hpc⟩
    · obtain ⟨x, y, z, -, -, hthree, -, -, -⟩ := h.three (by rw [hpc]; rfl)
      have href := hthree.refBuff
      rw [hpc] at href
      exact ⟨_, _, Serial.Step.tx hpc href⟩
    · exact ⟨_, _, Serial.Step.sleep hpc⟩
  · rcases hcb : s.cb with _ | _ | _ | _ | _ | _ <;> rw [hcb] at hchain
    · obtain ⟨x, hactive, -⟩ := hchain
      exact ⟨_, _, Serial.Step.done hactive hcb⟩
    · obtain ⟨-, x, href, -⟩ := hchain
      exact ⟨.driver, s.unref x none, Serial.Step.unref hcb href⟩
    · exact ⟨_, _, Serial.Step.get hcb⟩
    · exact ⟨_, _, Serial.Step.test hcb⟩
    · obtain ⟨-, -, x, l, -, href, -⟩ := hchain
      exact ⟨_, _, Serial.Step.send hcb href⟩
    · exact ⟨_, _, Serial.Step.give hcb⟩

/-- Every run comes by a state in which the semaphore is up. -/
theorem comes_back (h : NetBufInv s bs waiting k) : netBufs.Inevitable (0 < ·.txSem) s := by
  refine .of_rank (fun n s => ∃ bs waiting k, NetBufInv s bs waiting k ∧ s.rank bs = n) ?_
    ⟨bs, waiting, k, h, rfl⟩
  rintro n s ⟨bs, waiting, k, h, rfl⟩
  rcases Nat.eq_zero_or_pos s.txSem with hzero | hup
  · apply Or.inr
    refine ⟨h.moves hzero, ?_⟩
    intro party t hs
    obtain ⟨bs', waiting', k', hinv, hlower⟩ := h.step hs
    exact ⟨_, hlower hzero, bs', waiting', k', hinv, rfl⟩
  · exact Or.inl hup

/-- The invariant says what the sample owes. -/
theorem tidy (h : NetBufInv s bs waiting k) : Tidy s where
  allocs := h.history.noNull
  inTurn b := by
    have hallocs := h.history.allocs b
    have htxs := h.history.txs b
    have hdones := h.history.dones b
    have hout := h.stage.count_le b
    have hone := List.nodup_iff_count.mp h.nodup b
    -- the four counts differ by how often the buffer is out, 0 or 1
    omega
  notBusy := h.history.notBusy
  order := ⟨k, by
    rw [← h.account]
    exact List.prefix_append _ _⟩
  intact b hb := by
    rcases h.stage with ⟨-, -, -, hnone, -, -⟩ | hbuild | ⟨-, -, hchain⟩
    · cases hnone.symm.trans hb
    · cases hbuild.active.symm.trans hb
    · rcases hcb : s.cb with _ | _ | _ | _ | _ | _ <;> rw [hcb] at hchain
      · obtain ⟨x, hactive, -, -, -, hlast⟩ := hchain
        obtain rfl : b = x := Option.some.inj (hb.symm.trans hactive)
        exact hlast
      · cases hchain.1.symm.trans hb
      · cases hchain.1.symm.trans hb
      · cases hchain.1.symm.trans hb
      · cases hchain.1.symm.trans hb
      · cases hchain.1.symm.trans hb
  back hup := by
    obtain ⟨-, -, -, href, hqueue, rfl, rfl⟩ := h.stage.of_up hup
    refine ⟨?_, hqueue.path, href⟩
    intro b
    exact ⟨h.refs b, h.history.allocs b⟩

end NetBufInv

theorem netBufInv_of_reachable {s : Serial} (h : netBufs.Reachable s) :
    ∃ bs waiting k, NetBufInv s bs waiting k := by
  refine h.invariant (I := fun s => ∃ bs waiting k, NetBufInv s bs waiting k) ?_ ?_
  · rintro s ⟨next, mem, len, rfl⟩
    exact ⟨[], [], 0, .start next mem len⟩
  · rintro s t party - ⟨bs, waiting, k, hinv⟩ hstep
    obtain ⟨bs', waiting', k', hinv', -⟩ := hinv.step hstep
    exact ⟨bs', waiting', k', hinv'⟩

/-- **Net buffers.** In every state of every interleaving of `main` with the driver and its callback, the
account of the buffers is in order, and every run from there comes by a state in which the semaphore is up
and everything is back. -/
theorem netBufs_tidy {s : Serial} (h : netBufs.Reachable s) :
    Tidy s ∧ netBufs.Inevitable (0 < ·.txSem) s := by
  obtain ⟨bs, waiting, k, hinv⟩ := netBufInv_of_reachable h
  exact ⟨hinv.tidy, hinv.comes_back⟩

/-- The first message is done and its buffer back, the second is under way. -/
def secondUnderway : Serial :=
  let first := ((Serial.start (fun _ => none) (fun _ _ => 0) fun _ => 0).take.alloc 0 0).fill 0 0
  let filled := (((first.alloc 1 1).fill 1 1).alloc 2 2).fill 2 2
  let started := ((filled.put 1 .put3).put 2 .setRef).setRef.tx 0
  ((started.done 0).unref 0 (some 2)).get.test.send 1

theorem secondUnderway_reachable : netBufs.Reachable secondUnderway := by
  have hstart : netBufs.Reachable (Serial.start (fun _ => none) (fun _ _ => 0) fun _ => 0) :=
    .init ⟨_, _, _, rfl⟩
  have hfirst := ((hstart.step (Serial.Step.take rfl Nat.one_pos)).step
    (Serial.Step.alloc (i := 0) (b := 0) rfl rfl)).step (Serial.Step.fill (i := 0) (b := 0) rfl rfl)
  have hsecond := (hfirst.step (Serial.Step.alloc (i := 1) (b := 1) rfl rfl)).step
    (Serial.Step.fill (i := 1) (b := 1) rfl rfl)
  have hfilled := (hsecond.step (Serial.Step.alloc (i := 2) (b := 2) rfl rfl)).step
    (Serial.Step.fill (i := 2) (b := 2) rfl rfl)
  have hqueued := (hfilled.step (Serial.Step.put2 (b := 1) rfl rfl)).step
    (Serial.Step.put3 (b := 2) rfl rfl)
  have hstarted := (hqueued.step (Serial.Step.setRef rfl)).step (Serial.Step.tx (b := 0) rfl rfl)
  have hback := (hstarted.step (Serial.Step.done (b := 0) rfl rfl)).step
    (.unref rfl rfl : Serial.Step .driver _ (Serial.unref _ 0 (some 2)))
  exact ((hback.step (Serial.Step.get rfl)).step (Serial.Step.test rfl)).step
    (Serial.Step.send (b := 1) rfl rfl)

theorem secondUnderway_tidy : secondUnderway.active = some 1 ∧ Tidy secondUnderway :=
  ⟨rfl, (netBufs_tidy secondUnderway_reachable).1⟩

end ZephyrSamples.Uart.NetBuf
