/-
# ZephyrSamples.Uart.Bounds -- where reception stays inside its buffer

`uart_cb` lets the driver store `rx_len` bytes from `rx_buf[rx_count]` on, and its walk over a burst
goes in steps of two. `contained_iff` says for whole runs when no byte is stored and no index visited
past `rx_buf[49]`: every burst has room behind `rx_count`, and its walk ends inside the buffer or meets
a `'\r'` in time, which sends it back to the front.
-/
import ZephyrSamples.Uart.Reception

namespace ZephyrSamples.Uart

open ZephyrSamples.Lib.CString

/-! ## What a run touches -/

/-- The indices of `rx_buf` that `n` passes of the processing loop read, and write where they find a
`'\r'`. -/
def visited (m : Memory) (i : Nat) : Nat → List Nat
  | 0 => []
  | n + 1 => (rxCount m + i) :: visited (processByte m i) (i + 1) n

/-- The bytes `uart_fifo_read` stores: at most `rx_len` of those in the FIFO. -/
def Irq.stored (irq : Irq) (m : Memory) : List UInt8 := irq.burst.take (rxLen m)

/-- The memory when the FIFO has been read. -/
def afterRead (m : Memory) (irq : Irq) : Memory := m.blit (rxCount m) (irq.stored m)

/-- The interrupt keeps to the buffer: what the driver stores, and what the loop reads and writes, and
so the driver leaves the counter, the length and the flag alone. -/
structure Contained (m : Memory) (irq : Irq) : Prop where
  stores : ∀ j < (irq.stored m).length, rxCount m + j < rxBufSize
  visits : ∀ x ∈ visited (afterRead m irq) 0 (irq.stored m).length, x < rxBufSize
  control : ∀ x, rxBufSize ≤ x → afterRead m irq x = m x

/-- An interrupt, or `main` taking note of the flag. -/
inductive RxEvent where
  | irq (irq : Irq)
  | poll

def RxEvent.apply (m : Memory) : RxEvent → Memory
  | .irq i => uartCb m i
  | .poll => if rxFlag m then m.set rxFlagAt 0 else m

/-- Every interrupt of the run keeps to the buffer. -/
def ContainedRun : Memory → List RxEvent → Prop
  | _, [] => True
  | m, .irq irq :: es => Contained m irq ∧ ContainedRun (uartCb m irq) es
  | m, .poll :: es => ContainedRun (RxEvent.poll.apply m) es

/-! ## When a walk fits -/

/-- `n` passes fit, the first with index `i` and with `rx_count` at `c`: they end inside the buffer, or
the first `'\r'` on the positions `c + i`, `c + i + 2`, `c + i + 4`, … is met inside, and the passes
behind it, which start again from `rx_count` 0, fit. -/
inductive WalkFits : Memory → Nat → Nat → Nat → Prop
  | done {m : Memory} {c i : Nat} : WalkFits m c i 0
  | straight {m : Memory} {c i n : Nat} : c + i + 2 * n < rxBufSize → WalkFits m c i (n + 1)
  | restart {m : Memory} {c i n : Nat} (j : Nat) : c + i + 2 * j < rxBufSize →
      (∀ k < j, m (c + i + 2 * k) ≠ cr) → m (c + i + 2 * j) = cr →
      WalkFits (m.set (c + i + 2 * j) 0) 0 (i + j + 1) n → WalkFits m c i (j + n + 1)

/-- A burst fits: behind `rx_count`, and its walk does. -/
structure Fits (m : Memory) (irq : Irq) : Prop where
  room : rxCount m + (irq.stored m).length ≤ rxBufSize
  walk : WalkFits (afterRead m irq) (rxCount m) 0 (irq.stored m).length

/-- Every burst of the run fits where it arrives. -/
def FitsRun : Memory → List RxEvent → Prop
  | _, [] => True
  | m, .irq irq :: es => Fits m irq ∧ FitsRun (uartCb m irq) es
  | m, .poll :: es => FitsRun (RxEvent.poll.apply m) es

/-- Where the walk stands after one more pass. -/
theorem walk_position (c i k : Nat) : c + 1 + (i + 1) + 2 * k = c + i + 2 * (k + 1) := by omega

namespace WalkFits

variable {m : Memory} {c i n : Nat}

theorem first_lt (h : WalkFits m c i (n + 1)) : c + i < rxBufSize := by
  cases h with
  | straight hlt => omega
  | restart j hlt hbefore hcr hrest => omega

theorem after_return (h : WalkFits m c i (n + 1)) (hhere : m (c + i) = cr) :
    WalkFits (m.set (c + i) 0) 0 (i + 1) n := by
  cases h with
  | straight hlt =>
      cases n with
      | zero => exact .done
      | succ n => exact .straight (by omega)
  | @restart _ _ _ n' j hlt hbefore hcr hrest =>
      cases j with
      | zero => simpa using hrest
      | succ j => exact absurd hhere (hbefore 0 (by omega))

theorem after_other (h : WalkFits m c i (n + 1)) (hother : m (c + i) ≠ cr) :
    WalkFits m (c + 1) (i + 1) n := by
  cases h with
  | straight hlt =>
      cases n with
      | zero => exact .done
      | succ n => exact .straight (by omega)
  | @restart _ _ _ n' j hlt hbefore hcr hrest =>
      cases j with
      | zero => exact absurd hcr hother
      | succ j =>
          rw [show j + 1 + n' = j + n' + 1 by omega]
          refine .restart j (by omega) ?_ ?_ ?_
          · intro k hk
            rw [walk_position]
            exact hbefore (k + 1) (by omega)
          · rw [walk_position]
            exact hcr
          · rw [walk_position, show i + 1 + j + 1 = i + (j + 1) + 1 by omega]
            exact hrest

theorem of_return (hin : c + i < rxBufSize) (hhere : m (c + i) = cr)
    (h : WalkFits (m.set (c + i) 0) 0 (i + 1) n) : WalkFits m c i (n + 1) := by
  rw [show n + 1 = 0 + n + 1 by omega]
  exact .restart 0 hin (fun k hk => absurd hk (Nat.not_lt_zero k)) hhere h

theorem of_other (hin : c + i < rxBufSize) (hhere : m (c + i) ≠ cr)
    (h : WalkFits m (c + 1) (i + 1) n) : WalkFits m c i (n + 1) := by
  cases h with
  | done => exact .straight hin
  | straight hlt => exact .straight (by omega)
  | @restart _ _ _ n' j hlt hbefore hmet hrest =>
      rw [walk_position] at hmet hrest
      rw [show j + n' + 1 + 1 = (j + 1) + n' + 1 by omega]
      refine .restart (j + 1) (by omega) ?_ hmet ?_
      · intro k hk
        cases k with
        | zero => exact hhere
        | succ k =>
            rw [← walk_position]
            exact hbefore k (by omega)
      · rw [show i + (j + 1) + 1 = i + 1 + j + 1 by omega]
        exact hrest

end WalkFits

/-- One pass of a walk that fits. -/
theorem walkFits_succ_iff {m : Memory} {c i n : Nat} :
    WalkFits m c i (n + 1) ↔ c + i < rxBufSize ∧
      (m (c + i) = cr → WalkFits (m.set (c + i) 0) 0 (i + 1) n) ∧
      (m (c + i) ≠ cr → WalkFits m (c + 1) (i + 1) n) := by
  constructor
  · intro h
    exact ⟨h.first_lt, h.after_return, h.after_other⟩
  · rintro ⟨hin, hcr, hother⟩
    by_cases hhere : m (c + i) = cr
    · exact .of_return hin hhere (hcr hhere)
    · exact .of_other hin hhere (hother hhere)

/-! ## The walk of the code -/

/-- What a handler that keeps to its buffer never changes. -/
structure InShape (m : Memory) : Prop where
  len : rxLen m = rxBufSize
  count : rxCount m < rxBufSize

/-- A burst that fits by its length, whatever the buffer holds: two bytes of room for each of its own,
the last apart. -/
theorem InShape.fits_of_length {m : Memory} (h : InShape m) {irq : Irq}
    (hroom : rxCount m + 2 * (irq.stored m).length ≤ rxBufSize + 1) : Fits m irq := by
  have hcount := h.count
  refine ⟨by omega, ?_⟩
  cases hlen : (irq.stored m).length with
  | zero => exact .done
  | succ n => exact .straight (by omega)

theorem inShape_initMessage (garbage : Memory) : InShape (initMessage garbage) :=
  ⟨rfl, show 0 < rxBufSize by decide⟩

namespace InShape

variable {m : Memory}

/-- A pass inside the buffer. -/
theorem processByte (h : InShape m) {i : Nat} (hin : rxCount m + i < rxBufSize) :
    InShape (processByte m i) := by
  by_cases hcr : m (rxCount m + i) = cr
  · rw [processByte_return hcr]
    refine ⟨?_, ?_⟩
    · rw [rxLen_return _ hin]
      exact h.len
    · rw [rxCount_return]
      decide
  · obtain ⟨hsame, hcount⟩ := processByte_other h.len h.count hcr
    refine ⟨hsame.rxLen.trans h.len, ?_⟩
    rw [hcount]
    exact Nat.mod_lt _ (by decide)

theorem processBytes (h : InShape m) {i n : Nat} (hin : ∀ x ∈ visited m i n, x < rxBufSize) :
    InShape (processBytes m i n) := by
  induction n generalizing m i with
  | zero => exact h
  | succ n ih =>
      have hhead := hin _ List.mem_cons_self
      exact ih (h.processByte hhead) fun x hx => hin x (List.mem_cons_of_mem _ hx)

theorem poll (h : InShape m) : InShape (RxEvent.poll.apply m) := by
  show InShape (if rxFlag m then m.set rxFlagAt 0 else m)
  split_ifs
  · exact ⟨h.len, h.count⟩
  · exact h

end InShape

/-- The loop stays inside exactly if the walk fits. `m₀` is what the buffer shows; the loop's own
memory differs from it in the control bytes. -/
theorem visited_iff {m₀ m : Memory} (hbuf : ∀ x < rxBufSize, m x = m₀ x) (h : InShape m) {i n : Nat}
    (hroom : i = 0 → rxCount m + n ≤ rxBufSize) :
    (∀ x ∈ visited m i n, x < rxBufSize) ↔ WalkFits m₀ (rxCount m) i n := by
  induction n generalizing m₀ m i with
  | zero => exact iff_of_true (fun x hx => absurd hx List.not_mem_nil) .done
  | succ n ih =>
      rw [walkFits_succ_iff, visited, List.forall_mem_cons]
      refine and_congr_right fun hin => ?_
      rw [← hbuf _ hin]
      by_cases hcr : m (rxCount m + i) = cr
      · -- the pass writes NUL where it stands and goes back to 0
        have hmem := processByte_return hcr
        have hcount : rxCount (processByte m i) = 0 := by
          rw [hmem, rxCount_return]
        have hbuf' : ∀ x < rxBufSize,
            processByte m i x = m₀.set (rxCount m + i) 0 x := by
          intro x hx
          rw [hmem, buffer_return _ hx]
          by_cases hhere : x = rxCount m + i
          · rw [hhere, set_self, set_self]
          · rw [set_of_ne _ _ hhere, set_of_ne _ _ hhere]
            exact hbuf x hx
        rw [ih hbuf' (h.processByte hin) (by omega), hcount]
        exact ⟨fun hfits => ⟨fun _ => hfits, fun hne => absurd hcr hne⟩, fun hboth => hboth.1 hcr⟩
      · obtain ⟨hsame, hcount⟩ := processByte_other h.len h.count hcr
        have hbuf' : ∀ x < rxBufSize, processByte m i x = m₀ x := by
          intro x hx
          rw [hsame.buffer hx]
          exact hbuf x hx
        have hstep : (∀ x ∈ visited (processByte m i) (i + 1) n, x < rxBufSize) ↔
            WalkFits m₀ (rxCount m + 1) (i + 1) n := by
          by_cases hlast : n = 0
          · subst hlast
            exact iff_of_true (fun x hx => absurd hx List.not_mem_nil) .done
          · -- a pass before the last never stands on the fiftieth byte
            have hsmall : rxCount m + 1 < rxBufSize := by omega
            rw [Nat.mod_eq_of_lt hsmall] at hcount
            rw [ih hbuf' (h.processByte hin) (by omega), hcount]
        rw [hstep]
        exact ⟨fun hfits => ⟨fun heq => absurd heq hcr, fun _ => hfits⟩, fun hboth => hboth.2 hcr⟩

/-! ## Interrupts and runs -/

/-- The FIFO is read into the buffer only. -/
theorem sameControl_afterRead {m : Memory} {irq : Irq}
    (hroom : rxCount m + (irq.stored m).length ≤ rxBufSize) : SameControl m (afterRead m irq) :=
  fun _ hx => blit_of_ge m _ (Nat.le_trans hroom hx)

theorem InShape.afterRead {m : Memory} (h : InShape m) {irq : Irq}
    (hroom : rxCount m + (irq.stored m).length ≤ rxBufSize) : InShape (afterRead m irq) := by
  refine ⟨?_, ?_⟩
  · rw [(sameControl_afterRead hroom).rxLen]
    exact h.len
  · rw [(sameControl_afterRead hroom).rxCount]
    exact h.count

/-- One interrupt. -/
theorem contained_iff_fits {m : Memory} (h : InShape m) (irq : Irq) :
    Contained m irq ↔ Fits m irq := by
  have hcount := h.count
  have hstores : (∀ j < (irq.stored m).length, rxCount m + j < rxBufSize) ↔
      rxCount m + (irq.stored m).length ≤ rxBufSize := by
    constructor
    · intro hall
      by_cases hnil : (irq.stored m).length = 0
      · omega
      · have hlast := hall ((irq.stored m).length - 1) (by omega)
        omega
    · intro hroom j hj
      omega
  have hvisits : rxCount m + (irq.stored m).length ≤ rxBufSize →
      ((∀ x ∈ visited (afterRead m irq) 0 (irq.stored m).length, x < rxBufSize) ↔
        WalkFits (afterRead m irq) (rxCount m) 0 (irq.stored m).length) := by
    intro hroom
    have hread := (sameControl_afterRead hroom).rxCount
    rw [visited_iff (fun _ _ => rfl) (h.afterRead hroom) (by rw [hread]; exact fun _ => hroom), hread]
  constructor
  · intro hc
    have hroom := hstores.mp hc.stores
    exact ⟨hroom, (hvisits hroom).mp hc.visits⟩
  · intro hf
    exact ⟨hstores.mpr hf.room, (hvisits hf.room).mpr hf.walk,
      sameControl_afterRead hf.room⟩

theorem Contained.inShape {m : Memory} {irq : Irq} (hc : Contained m irq) (h : InShape m) :
    InShape (uartCb m irq) := by
  have hroom := ((contained_iff_fits h irq).mp hc).room
  rw [uartCb_eq]
  exact (h.afterRead hroom).processBytes hc.visits

theorem containedRun_iff {m : Memory} (h : InShape m) (es : List RxEvent) :
    ContainedRun m es ↔ FitsRun m es := by
  induction es generalizing m with
  | nil => exact Iff.rfl
  | cons e es ih =>
      cases e with
      | poll => exact ih h.poll
      | irq irq =>
          show Contained m irq ∧ _ ↔ Fits m irq ∧ _
          rw [← contained_iff_fits h irq]
          exact and_congr_right fun hc => ih (hc.inShape h)

/-- **The buffer.** Whatever the stack held, whatever arrives and whenever the interrupts come: all
that the driver stores and all that the loop touches lies in `rx_buf`, in every step of the run, if
and only if every burst fits where it arrives. -/
theorem contained_iff (garbage : Memory) (es : List RxEvent) :
    ContainedRun (initMessage garbage) es ↔ FitsRun (initMessage garbage) es :=
  containedRun_iff (inShape_initMessage garbage) es

/-- One byte, and then fifty that were waiting: the last of them is stored over `rx_count`. -/
theorem overrun_not_contained :
    ¬ ContainedRun (initMessage fun _ => 0)
      [.irq (rxIrq [97]), .irq (rxIrq (List.replicate 50 98))] := by
  rintro ⟨-, hfull, -⟩
  exact absurd (hfull.stores 49 (by decide)) (by decide)

end ZephyrSamples.Uart
