/-
# ZephyrSamples.Uart.Reception -- interrupt-driven reception

`uart_cb` of the two reception samples appends what the FIFO holds at `rx_buf[rx_count]` and then
walks over the new bytes. The walk reads `rx_buf[rx_count + i]` while `rx_count` itself moves, so from
the second byte of a burst on it goes in steps of two, past the bytes it should look at.

`struct uart_msg` is modelled as the memory it lies in: fifty bytes of buffer and, behind them, the
counter, the length and the flag. An index past the buffer therefore reads or writes what the machine
has there. `framing_of_steady`: reception frames lines correctly in every run whose bursts are single
bytes, or hold no `'\r'` and are followed by none that the walk could meet.
-/
import ZephyrSamples.Lib.CString
import ZephyrSamples.Lib.Lines
import ZephyrSamples.Lib.Transition

namespace ZephyrSamples.Uart

open ZephyrSamples.Lib
open ZephyrSamples.Lib.CString
open ZephyrSamples.Lib.Lines

/-! ## `struct uart_msg` -/

/-- `sizeof(rx_buf)` -/
def rxBufSize : Nat := 50

def rxCountAt : Nat := 50
def rxLenAt : Nat := 51
def rxFlagAt : Nat := 52

def rxCount (m : Memory) : Nat := (m rxCountAt).toNat
def rxLen (m : Memory) : Nat := (m rxLenAt).toNat
def rxFlag (m : Memory) : Bool := m rxFlagAt != 0

/-- A write to the control bytes leaves `rx_buf` alone. -/
theorem set_control (m : Memory) (b : UInt8) {c x : Nat} (hc : rxBufSize ≤ c) (hx : x < rxBufSize) :
    m.set c b x = m x :=
  set_of_ne m b (Nat.ne_of_lt (Nat.lt_of_lt_of_le hx hc))

/-- The two memories differ in `rx_buf` at most. -/
def SameControl (m m' : Memory) : Prop := ∀ x, rxBufSize ≤ x → m' x = m x

namespace SameControl

variable {m m' : Memory}

theorem rxCount (h : SameControl m m') : rxCount m' = rxCount m :=
  congrArg UInt8.toNat (h rxCountAt (by decide))

theorem rxLen (h : SameControl m m') : rxLen m' = rxLen m :=
  congrArg UInt8.toNat (h rxLenAt (by decide))

theorem rxFlag (h : SameControl m m') : rxFlag m' = rxFlag m :=
  congrArg (· != 0) (h rxFlagAt (by decide))

end SameControl

/-- A write to `rx_buf` leaves the control bytes alone. -/
theorem sameControl_set (m : Memory) (b : UInt8) {x : Nat} (hx : x < rxBufSize) :
    SameControl m (m.set x b) :=
  fun _ hc => set_of_ne m b (Nat.ne_of_gt (Nat.lt_of_lt_of_le hx hc))

/-- The assignments of `main` to a `struct uart_msg` on its stack. -/
def initMessage (m : Memory) : Memory := ((m.set rxLenAt 50).set rxCountAt 0).set rxFlagAt 0

/-! ## `uart_cb` -/

/-- What one interrupt finds: the three answers of the driver, and the bytes in the FIFO. -/
structure Irq where
  update : Bool
  isPending : Bool
  rxReady : Bool
  fifo : List UInt8
  deriving DecidableEq, Repr

/-- `uart_fifo_read(dev, &rx_buf[a], size)`: the memory afterwards and the number of bytes. -/
def uartFifoRead (m : Memory) (a size : Nat) (fifo : List UInt8) : Memory × Nat :=
  (m.blit a (fifo.take size), (fifo.take size).length)

/-- The body of the processing loop. -/
def processByte (m : Memory) (i : Nat) : Memory :=
  if m (rxCount m + i) = cr then
    let m := m.set rxFlagAt 1
    let m := m.set (rxCount m + i) 0
    m.set rxCountAt 0
  else
    let m := m.set rxCountAt (m rxCountAt + 1)
    if rxCount m ≥ rxLen m then m.set rxCountAt 0 else m

/-- `n` passes of the processing loop, the first with index `i`. -/
def processBytes (m : Memory) (i : Nat) : Nat → Memory
  | 0 => m
  | n + 1 => processBytes (processByte m i) (i + 1) n

/-- `uart_cb` -/
def uartCb (m : Memory) (irq : Irq) : Memory :=
  if irq.update && irq.isPending then
    if irq.rxReady then
      let (m, rxBytes) := uartFifoRead m (rxCount m) (rxLen m) irq.fifo
      processBytes m 0 rxBytes
    else m
  else m

/-- The bytes the interrupt takes out of the FIFO, if there is room for all of them. -/
def Irq.burst (irq : Irq) : List UInt8 :=
  if irq.update && irq.isPending && irq.rxReady then irq.fifo else []

/-- An interrupt is its burst. -/
theorem uartCb_eq (m : Memory) (irq : Irq) :
    uartCb m irq = processBytes (m.blit (rxCount m) (irq.burst.take (rxLen m))) 0
      (irq.burst.take (rxLen m)).length := by
  obtain ⟨update, isPending, rxReady, fifo⟩ := irq
  cases update <;> cases isPending <;> cases rxReady <;> simp [uartCb, Irq.burst, uartFifoRead,
    Memory.blit, processBytes]

/-! ## The walk -/

/-- The two memories differ in `rx_count` at most. -/
def SameButCount (m m' : Memory) : Prop := ∀ x, x ≠ rxCountAt → m' x = m x

theorem SameButCount.buffer {m m' : Memory} (h : SameButCount m m') {x : Nat} (hx : x < rxBufSize) :
    m' x = m x :=
  h x (Nat.ne_of_lt hx)

theorem SameButCount.rxLen {m m' : Memory} (h : SameButCount m m') : rxLen m' = rxLen m :=
  congrArg UInt8.toNat (h rxLenAt (by decide))

theorem SameButCount.rxFlag {m m' : Memory} (h : SameButCount m m') : rxFlag m' = rxFlag m :=
  congrArg (· != 0) (h rxFlagAt (by decide))

/-- A pass over another byte counts it, and starts from 0 again behind the fiftieth. -/
theorem processByte_other {m : Memory} {i : Nat} (hlen : rxLen m = rxBufSize)
    (hcount : rxCount m < rxBufSize) (hother : m (rxCount m + i) ≠ cr) :
    SameButCount m (processByte m i) ∧
      rxCount (processByte m i) = (rxCount m + 1) % rxBufSize := by
  have hnext : rxCount (m.set rxCountAt (m rxCountAt + 1)) = rxCount m + 1 := by
    show (m.set rxCountAt (m rxCountAt + 1) rxCountAt).toNat = (m rxCountAt).toNat + 1
    have hlt : (m rxCountAt).toNat < 50 := hcount
    rw [set_self, UInt8.toNat_add]
    show ((m rxCountAt).toNat + 1) % 256 = _
    omega
  have hlen' : rxLen (m.set rxCountAt (m rxCountAt + 1)) = rxBufSize := hlen
  have hsame : SameButCount m (m.set rxCountAt (m rxCountAt + 1)) := fun x hx => set_of_ne m _ hx
  unfold processByte
  rw [if_neg hother]
  dsimp only
  rw [hnext, hlen']
  by_cases hwrap : rxCount m + 1 ≥ rxBufSize
  · rw [if_pos hwrap]
    refine ⟨fun x hx => (set_of_ne _ _ hx).trans (hsame x hx), ?_⟩
    have hmod : rxCount m + 1 = rxBufSize := by omega
    rw [hmod]
    rfl
  · rw [if_neg hwrap, Nat.mod_eq_of_lt (by omega)]
    exact ⟨hsame, hnext⟩

/-- A pass over a `'\r'` replaces it by NUL, sets the flag and starts a new line. -/
theorem processByte_return {m : Memory} {i : Nat} (hcr : m (rxCount m + i) = cr) :
    processByte m i = ((m.set rxFlagAt 1).set (rxCount m + i) 0).set rxCountAt 0 := by
  unfold processByte
  rw [if_pos hcr]
  rfl

section Return

variable (m : Memory) {x : Nat}

theorem rxCount_return : rxCount (((m.set rxFlagAt 1).set x 0).set rxCountAt 0) = 0 := by
  rw [rxCount, set_self]
  rfl

theorem rxLen_return (hx : x < rxBufSize) :
    rxLen (((m.set rxFlagAt 1).set x 0).set rxCountAt 0) = rxLen m :=
  (sameControl_set (m.set rxFlagAt 1) 0 hx).rxLen

theorem rxFlag_return (hx : x < rxBufSize) :
    rxFlag (((m.set rxFlagAt 1).set x 0).set rxCountAt 0) = true :=
  (sameControl_set (m.set rxFlagAt 1) 0 hx).rxFlag

theorem buffer_return {y : Nat} (hy : y < rxBufSize) :
    (((m.set rxFlagAt 1).set x 0).set rxCountAt 0) y = m.set x 0 y := by
  rw [set_control _ _ (by decide) hy]
  by_cases hhere : y = x
  · rw [hhere, set_self, set_self]
  · rw [set_of_ne _ _ hhere, set_of_ne _ _ hhere, set_control _ _ (by decide) hy]

end Return

/-- The walk over a burst in which it meets no `'\r'`. -/
theorem processBytes_other {m : Memory} {i n : Nat} (hlen : rxLen m = rxBufSize)
    (hcount : rxCount m < rxBufSize) (hroom : rxCount m + n ≤ rxBufSize)
    (hinside : n = 0 ∨ rxCount m + i + 2 * (n - 1) < rxBufSize)
    (hother : ∀ k < n, m (rxCount m + i + 2 * k) ≠ cr) :
    SameButCount m (processBytes m i n) ∧
      rxCount (processBytes m i n) = (rxCount m + n) % rxBufSize := by
  induction n generalizing m i with
  | zero => exact ⟨fun x _ => rfl, (Nat.mod_eq_of_lt hcount).symm⟩
  | succ n ih =>
      obtain ⟨hsame, hstep⟩ := processByte_other hlen hcount (hother 0 (by omega))
      show SameButCount m (processBytes (processByte m i) (i + 1) n) ∧
        rxCount (processBytes (processByte m i) (i + 1) n) = _
      by_cases hlast : n = 0
      · subst hlast
        exact ⟨hsame, hstep⟩
      · -- not the last pass: the counter has not come round, and the walk moves on by two
        have hsmall : rxCount m + 1 < rxBufSize := by omega
        rw [Nat.mod_eq_of_lt hsmall] at hstep
        have hlen' : rxLen (processByte m i) = rxBufSize := hsame.rxLen.trans hlen
        obtain ⟨hsame', hcount'⟩ := ih (m := processByte m i) (i := i + 1) hlen' (by omega)
          (by omega) (Or.inr (by omega)) (fun k hk => by
            have hk' := hother (k + 1) (by omega)
            have hx : rxCount (processByte m i) + (i + 1) + 2 * k = rxCount m + i + 2 * (k + 1) := by
              omega
            have hbound : rxCount m + i + 2 * (k + 1) < rxBufSize := by omega
            rw [hx, hsame.buffer hbound]
            exact hk')
        refine ⟨fun x hx => (hsame' x hx).trans (hsame x hx), ?_⟩
        rw [hcount', hstep, Nat.add_assoc, Nat.add_comm 1 n]

/-! ## The sample -/

/-- The handler's structure, all bytes received so far, and the messages `main` has printed. -/
structure Reception where
  mem : Memory
  stream : List UInt8
  messages : List (List UInt8)

namespace Reception

/-- The bytes received since the last `'\r'`. -/
def line (s : Reception) : List UInt8 := unfinished cr s.stream

def interrupt (s : Reception) (irq : Irq) : Reception :=
  { s with mem := uartCb s.mem irq, stream := s.stream ++ irq.burst }

/-- `main` finds the flag set, clears it and prints the string at `rx_buf`. -/
def print (s : Reception) (str : List UInt8) : Reception :=
  { s with mem := s.mem.set rxFlagAt 0, messages := s.messages ++ [str] }

end Reception

/-- The bursts a well-behaved sender and driver produce: `main` has consumed the last message, no byte
is NUL, a `'\r'` ends the burst, the burst fits into `rx_buf` after `rx_count`, and a line has fewer
bytes than the buffer before its `'\r'`. -/
structure Arrives (s : Reception) (burst : List UInt8) : Prop where
  consumed : rxFlag s.mem = false
  nulFree : 0 ∉ burst
  crLast : cr ∉ burst.dropLast
  fits : rxCount s.mem + burst.length ≤ rxBufSize
  lineFits : burst.getLast? = some cr → (s.line ++ burst.dropLast).length < rxBufSize

inductive RxLabel where
  | irq (irq : Irq)
  | print (str : List UInt8)

inductive RxStep : RxLabel → Reception → Reception → Prop
  | irq {s : Reception} {irq : Irq} : Arrives s irq.burst → RxStep (.irq irq) s (s.interrupt irq)
  | print {s : Reception} {str : List UInt8} : rxFlag s.mem = true → Reads s.mem str →
      RxStep (.print str) s (s.print str)

/-- The sample, from whatever its stack held before. -/
def reception : System Reception RxLabel where
  init s := ∃ garbage, s = ⟨initMessage garbage, [], []⟩
  step := RxStep

/-- What `uart_cb` owes when it returns from a burst: the line just completed, or nothing. -/
structure Framed (s t : Reception) (burst : List UInt8) : Prop where
  complete : burst.getLast? = some cr →
    rxFlag t.mem = true ∧ Reads t.mem (s.line ++ burst.dropLast)
  incomplete : burst.getLast? ≠ some cr → rxFlag t.mem = false

/-- The messages printed, and the one that waits to be, are the lines of the stream. -/
structure Delivered (s : Reception) : Prop where
  idle : rxFlag s.mem = false → s.messages = Lines.complete cr s.stream
  waiting : rxFlag s.mem = true →
    ∃ str, Reads s.mem str ∧ s.messages ++ [str] = Lines.complete cr s.stream

/-- A burst the walk gets right: a single byte, or no `'\r'` in the burst, none on the way that the
walk takes behind it, and the way ends inside the buffer. -/
def Steady (s : Reception) (burst : List UInt8) : Prop :=
  burst.length ≤ 1 ∨ (cr ∉ burst ∧ rxCount s.mem + 2 * (burst.length - 1) < rxBufSize ∧
    ∀ k < burst.length, burst.length ≤ 2 * k → s.mem (rxCount s.mem + 2 * k) ≠ cr)

/-- The same for a step; `main` may do as it likes. -/
def SteadyStep : RxLabel → Reception → Prop
  | .irq irq, s => Steady s irq.burst
  | .print _, _ => True

/-! ## The invariant -/

/-- The buffer holds the line in progress, and `rx_count` is where it goes on. -/
structure RxInv (s : Reception) : Prop where
  len : rxLen s.mem = rxBufSize
  count : rxCount s.mem = s.line.length % rxBufSize
  held : s.line.length < rxBufSize → ∀ i, ∀ h : i < s.line.length, s.mem i = s.line[i]
  nulFree : 0 ∉ s.line
  delivered : Delivered s

/-- Reading the FIFO leaves the control bytes alone. -/
theorem Arrives.sameControl {s : Reception} {burst : List UInt8} (ha : Arrives s burst) :
    SameControl s.mem (s.mem.blit (rxCount s.mem) burst) :=
  fun _ hx => blit_of_ge s.mem burst (Nat.le_trans ha.fits hx)

namespace RxInv

variable {s : Reception}

theorem count_lt (h : RxInv s) : rxCount s.mem < rxBufSize := by
  rw [h.count]
  exact Nat.mod_lt _ (by decide)

theorem init (garbage : Memory) : RxInv ⟨initMessage garbage, [], []⟩ where
  len := rfl
  count := rfl
  held _ i h := absurd h (Nat.not_lt_zero i)
  nulFree := List.not_mem_nil
  delivered := ⟨fun _ => rfl, fun h => Bool.noConfusion h⟩

theorem print (h : RxInv s) (hflag : rxFlag s.mem = true) {str : List UInt8}
    (hstr : Reads s.mem str) : RxInv (s.print str) where
  len := h.len
  count := h.count
  held hlt i hi :=
    (set_control s.mem 0 (by decide) (Nat.lt_trans hi hlt)).trans (h.held hlt i hi)
  nulFree := h.nulFree
  delivered := by
    refine ⟨fun _ => ?_, fun hset => Bool.noConfusion hset⟩
    obtain ⟨str', hstr', hall⟩ := h.delivered.waiting hflag
    show s.messages ++ [str] = _
    rw [hstr.unique hstr']
    exact hall

/-- The memory when the FIFO has been read. -/
theorem uartCb_eq_walk (h : RxInv s) {irq : Irq} (ha : Arrives s irq.burst) :
    (s.interrupt irq).mem =
      processBytes (s.mem.blit (rxCount s.mem) irq.burst) 0 irq.burst.length := by
  have htake : irq.burst.take (rxLen s.mem) = irq.burst := by
    have hfits := ha.fits
    rw [h.len]
    exact List.take_of_length_le (by omega)
  show uartCb s.mem irq = _
  rw [uartCb_eq, htake]

/-- A burst without `'\r'`, when it is steady, is appended to the line and nothing else happens. -/
theorem walk_incomplete (h : RxInv s) {irq : Irq} (ha : Arrives s irq.burst)
    (hsteady : Steady s irq.burst) (hcr : cr ∉ irq.burst) :
    SameButCount (s.mem.blit (rxCount s.mem) irq.burst) (s.interrupt irq).mem ∧
      rxCount (s.interrupt irq).mem = (rxCount s.mem + irq.burst.length) % rxBufSize := by
  have hlen : rxLen (s.mem.blit (rxCount s.mem) irq.burst) = rxBufSize :=
    ha.sameControl.rxLen.trans h.len
  have hcount : rxCount (s.mem.blit (rxCount s.mem) irq.burst) = rxCount s.mem :=
    ha.sameControl.rxCount
  have hother : ∀ k < irq.burst.length,
      s.mem.blit (rxCount s.mem) irq.burst (rxCount s.mem + 0 + 2 * k) ≠ cr := by
    intro k hk
    rw [Nat.add_zero]
    by_cases hin : 2 * k < irq.burst.length
    · rw [blit_add _ _ _ _ hin]
      exact fun heq => hcr (heq ▸ List.getElem_mem hin)
    · rw [blit_of_ge _ _ (by omega)]
      rcases hsteady with hone | ⟨-, -, hrest⟩
      · omega
      · exact hrest k hk (by omega)
  rw [h.uartCb_eq_walk ha]
  have hfits := ha.fits
  have hlt := h.count_lt
  have key := processBytes_other (i := 0) (n := irq.burst.length) hlen (by omega) (by omega)
    (by
      rcases hsteady with hone | ⟨-, hinside, -⟩
      · omega
      · omega)
    (by rw [hcount]; exact hother)
  rw [hcount] at key
  exact key

/-- Its bytes are behind those of the line. -/
theorem held_incomplete (h : RxInv s) {burst : List UInt8}
    (hlt : (s.line ++ burst).length < rxBufSize) (i : Nat) (hi : i < (s.line ++ burst).length) :
    s.mem.blit (rxCount s.mem) burst i = (s.line ++ burst)[i] := by
  have hline : s.line.length < rxBufSize := by
    rw [List.length_append] at hlt
    omega
  have hcount : rxCount s.mem = s.line.length := by
    rw [h.count, Nat.mod_eq_of_lt hline]
  rw [hcount]
  by_cases hold : i < s.line.length
  · rw [blit_of_lt _ _ hold, List.getElem_append_left hold]
    exact h.held hline i hold
  · have hnew : i - s.line.length < burst.length := by
      rw [List.length_append] at hi
      omega
    have hblit := blit_add s.mem s.line.length burst (i - s.line.length) hnew
    rw [show s.line.length + (i - s.line.length) = i by omega] at hblit
    rw [hblit, List.getElem_append_right (by omega)]

/-- The step for a burst without `'\r'`. -/
theorem incomplete (h : RxInv s) {irq : Irq} (ha : Arrives s irq.burst)
    (hsteady : Steady s irq.burst) (hcr : cr ∉ irq.burst) :
    RxInv (s.interrupt irq) ∧ rxFlag (s.interrupt irq).mem = false := by
  obtain ⟨hsame, hcount⟩ := h.walk_incomplete ha hsteady hcr
  have hline : (s.interrupt irq).line = s.line ++ irq.burst :=
    unfinished_append_of_notMem cr s.stream hcr
  have hflag : rxFlag (s.interrupt irq).mem = false := by
    rw [hsame.rxFlag, ha.sameControl.rxFlag]
    exact ha.consumed
  refine ⟨⟨?_, ?_, ?_, ?_, ?_⟩, hflag⟩
  · rw [hsame.rxLen, ha.sameControl.rxLen]
    exact h.len
  · rw [hcount, hline, h.count, List.length_append, Nat.mod_add_mod]
  · rw [hline]
    intro hlt i hi
    rw [hsame.buffer (Nat.lt_trans hi hlt)]
    exact h.held_incomplete hlt i hi
  · rw [hline, List.mem_append, not_or]
    exact ⟨h.nulFree, ha.nulFree⟩
  · refine ⟨fun _ => ?_, fun hset => absurd (hflag.symm.trans hset) Bool.false_ne_true⟩
    show s.messages = Lines.complete cr (s.stream ++ irq.burst)
    rw [complete_append_of_notMem cr s.stream hcr]
    exact h.delivered.idle ha.consumed

/-- The step for a single `'\r'`. -/
theorem complete (h : RxInv s) {irq : Irq} (ha : Arrives s irq.burst) (hburst : irq.burst = [cr]) :
    RxInv (s.interrupt irq) ∧ rxFlag (s.interrupt irq).mem = true ∧
      Reads (s.interrupt irq).mem s.line := by
  have hlt : s.line.length < rxBufSize := by
    have hfits := ha.lineFits (by rw [hburst]; rfl)
    rw [hburst] at hfits
    simpa using hfits
  have hcount : rxCount s.mem = s.line.length := by
    rw [h.count, Nat.mod_eq_of_lt hlt]
  have hmem : (s.interrupt irq).mem =
      (((s.mem.set s.line.length cr).set rxFlagAt 1).set s.line.length 0).set rxCountAt 0 := by
    have hp : rxCount (s.mem.set s.line.length cr) = s.line.length :=
      (sameControl_set s.mem cr hlt).rxCount.trans hcount
    rw [h.uartCb_eq_walk ha, hburst, hcount]
    show processByte (s.mem.set s.line.length cr) 0 = _
    rw [processByte_return (by rw [hp]; exact set_self s.mem _ _), hp]
    rfl
  have hline : (s.interrupt irq).line = [] := by
    show unfinished cr (s.stream ++ irq.burst) = []
    rw [hburst]
    exact unfinished_append_term cr s.stream
  have hflag : rxFlag (s.interrupt irq).mem = true := by
    rw [hmem]
    exact rxFlag_return _ hlt
  have hreads : Reads (s.interrupt irq).mem s.line := by
    refine ⟨(isString_iff _ _).mpr ⟨?_, ?_⟩, h.nulFree⟩
    · intro i hi
      have hin := Nat.lt_trans hi hlt
      rw [hmem, buffer_return _ hin, set_of_ne _ _ (Nat.ne_of_lt hi), set_of_ne _ _ (Nat.ne_of_lt hi)]
      exact h.held hlt i hi
    · rw [hmem, buffer_return _ hlt, set_self]
  refine ⟨⟨?_, ?_, ?_, ?_, ?_⟩, hflag, hreads⟩
  · rw [hmem, rxLen_return _ hlt, (sameControl_set s.mem cr hlt).rxLen]
    exact h.len
  · rw [hmem, rxCount_return, hline]
    rfl
  · rw [hline]
    exact fun _ i hi => absurd hi (Nat.not_lt_zero i)
  · rw [hline]
    exact List.not_mem_nil
  · refine ⟨fun hclear => absurd (hclear.symm.trans hflag) Bool.false_ne_true, fun _ => ?_⟩
    refine ⟨s.line, hreads, ?_⟩
    show s.messages ++ [s.line] = Lines.complete cr (s.stream ++ irq.burst)
    rw [hburst, complete_append_term, h.delivered.idle ha.consumed]
    rfl

end RxInv

/-- A steady burst that ends in `'\r'` is the `'\r'` alone. -/
theorem Steady.eq_singleton {s : Reception} {burst : List UInt8} (h : Steady s burst)
    (hlast : burst.getLast? = some cr) : burst = [cr] := by
  rcases h with hone | ⟨hcr, -, -⟩
  · match burst, hone with
    | [b], _ => simpa using hlast
  · exact absurd (List.mem_of_getLast? hlast) hcr

/-- A burst that does not end in `'\r'` holds none. -/
theorem Arrives.cr_notMem {s : Reception} {burst : List UInt8} (h : Arrives s burst)
    (hlast : burst.getLast? ≠ some cr) : cr ∉ burst := by
  intro hmem
  rcases List.eq_nil_or_concat burst with rfl | ⟨front, b, rfl⟩
  · exact absurd hmem List.not_mem_nil
  · rw [List.concat_eq_append] at *
    rcases List.mem_append.mp hmem with hfront | hb
    · exact h.crLast (by simpa using hfront)
    · rw [List.mem_singleton.mp hb] at hlast
      exact hlast (by simp)

/-- One steady burst, from a state the invariant describes. -/
theorem RxInv.burst {s : Reception} (h : RxInv s) {irq : Irq} (ha : Arrives s irq.burst)
    (hsteady : Steady s irq.burst) :
    RxInv (s.interrupt irq) ∧ Framed s (s.interrupt irq) irq.burst := by
  by_cases hlast : irq.burst.getLast? = some cr
  · have hburst := hsteady.eq_singleton hlast
    obtain ⟨hinv, hflag, hreads⟩ := h.complete ha hburst
    refine ⟨hinv, fun _ => ⟨hflag, ?_⟩, fun hne => absurd hlast hne⟩
    rw [hburst]
    simpa using hreads
  · obtain ⟨hinv, hflag⟩ := h.incomplete ha hsteady (ha.cr_notMem hlast)
    exact ⟨hinv, fun heq => absurd heq hlast, fun _ => hflag⟩

theorem rxInv_of_reachable {s : Reception} (h : (reception.restrict SteadyStep).Reachable s) :
    RxInv s := by
  refine h.invariant ?_ ?_
  · rintro s ⟨garbage, rfl⟩
    exact .init garbage
  · rintro s t l - hinv ⟨hsteady, hstep⟩
    cases hstep with
    | irq ha => exact (hinv.burst ha hsteady).1
    | print hflag hstr => exact hinv.print hflag hstr

/-- **Framing.** In every run whose bursts are steady: each burst that ends in `'\r'` sets the flag and
leaves the line in `rx_buf`, no other burst sets it, and the messages are the lines of the stream,
however it was cut into bursts. -/
theorem framing_of_steady {s : Reception} (h : (reception.restrict SteadyStep).Reachable s) :
    (∀ irq, Arrives s irq.burst → Steady s irq.burst → Framed s (s.interrupt irq) irq.burst) ∧
      Delivered s :=
  ⟨fun _ ha hsteady => ((rxInv_of_reachable h).burst ha hsteady).2, (rxInv_of_reachable h).delivered⟩

/-- An interrupt that finds `bytes` in the FIFO. -/
def rxIrq (bytes : List UInt8) : Irq := ⟨true, true, true, bytes⟩

/-- The sample at its start, on a stack of zeros. -/
def quietLine : Reception := ⟨initMessage fun _ => 0, [], []⟩

theorem arrives_letter : Arrives quietLine [97] := ⟨rfl, by decide, by decide, by decide, by decide⟩

theorem letter_reachable :
    (reception.restrict SteadyStep).Reachable (quietLine.interrupt (rxIrq [97])) := by
  have hinit : (reception.restrict SteadyStep).Reachable quietLine := .init ⟨_, rfl⟩
  have hsteady : SteadyStep (.irq (rxIrq [97])) quietLine := Or.inl (by decide)
  exact hinit.step ⟨hsteady, RxStep.irq arrives_letter⟩

/-- `a` and then `'\r'`, one interrupt each: the message is `a`. -/
theorem letter_framed :
    Framed (quietLine.interrupt (rxIrq [97]))
      ((quietLine.interrupt (rxIrq [97])).interrupt (rxIrq [cr])) [cr] :=
  (framing_of_steady letter_reachable).1 (rxIrq [cr])
    ⟨rfl, by decide, by decide, by decide, fun _ => by decide⟩ (Or.inl (by decide))

/-- The same two bytes in one burst: the walk looks at `a`, then past the `'\r'`, and the line is not
reported. -/
theorem twoByteBurst_unreported :
    reception.Reachable quietLine ∧ Arrives quietLine [97, cr] ∧
      ¬ Framed quietLine (quietLine.interrupt (rxIrq [97, cr])) [97, cr] := by
  refine ⟨.init ⟨_, rfl⟩, ⟨rfl, by decide, by decide, by decide, by decide⟩, ?_⟩
  intro h
  have hflag := (h.complete rfl).1
  have hclear : rxFlag (quietLine.interrupt (rxIrq [97, cr])).mem = false := by decide
  rw [hclear] at hflag
  exact absurd hflag Bool.false_ne_true

end ZephyrSamples.Uart
