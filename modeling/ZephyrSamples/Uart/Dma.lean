/-
# ZephyrSamples.Uart.Dma -- reception into two DMA buffers

The asynchronous UART driver fills one half of `dma_buf`, reports what has arrived in pieces, and asks
for the half to fill next. `uart_cb` copies the printable characters of each piece into a message queue
and answers with the halves in turn.

A piece is an offset and a length, but the copying loop runs to `len` where it should run to
`offset + len`: `puts_iff` says which pieces still lose nothing. The turn starts with the half the
driver already owns: `answer_iff` says which requests are still answered with the other one.
-/
import ZephyrSamples.Lib.CString
import ZephyrSamples.Lib.Msgq
import ZephyrSamples.Lib.Pieces
import ZephyrSamples.Lib.Transition

namespace ZephyrSamples.Uart.Dma

open ZephyrSamples.Lib
open ZephyrSamples.Lib.CString

/-! ## `struct uart_rx` -/

/-- `sizeof(queue_buf)`, and of each half of `dma_buf` -/
def bufSize : Nat := 50

/-- The message queue and the turn, with the bytes the queue took so far and the number it refused. -/
structure UartRx where
  queue : Msgq UInt8 bufSize
  bufIndex : UInt8
  puts : List UInt8
  refused : Nat
  deriving DecidableEq

/-- `struct uart_rx rx_buffer = {0}` -/
def UartRx.zero : UartRx := ⟨.empty, 0, [], 0⟩

/-- `k_msgq_put(queue, &b, K_NO_WAIT)`, the result of which nobody looks at. -/
def kMsgqPut (rx : UartRx) (b : UInt8) : UartRx :=
  match rx.queue.put b with
  | some queue => { rx with queue := queue, puts := rx.puts ++ [b] }
  | none => { rx with refused := rx.refused + 1 }

/-- `k_msgq_get` of `main`, which waits while the queue is empty. -/
def kMsgqGet (rx : UartRx) : UartRx :=
  match rx.queue.get with
  | some (_, queue) => { rx with queue := queue }
  | none => rx

/-! ## `uart_cb` -/

/-- `evt->data.rx`: the half of `dma_buf`, what it holds, and the part of it that is new. -/
structure RxData where
  half : UInt8
  buf : Memory
  offset : Nat
  len : Nat
  fits : offset + len ≤ bufSize

/-- Printable ASCII, or `'\r'`. -/
def accepted (b : UInt8) : Bool := (0x20 ≤ b && b ≤ 0x7e) || b == cr

/-- The loop of the `UART_RX_RDY` case with `n` passes to go. -/
def putBytes (rx : UartRx) (buf : Memory) (i : Nat) : Nat → UartRx
  | 0 => rx
  | n + 1 => putBytes (if accepted (buf i) then kMsgqPut rx (buf i) else rx) buf (i + 1) n

inductive UartEvent where
  | rxBufRequest
  | rxRdy (d : RxData)
  | other

/-- `uart_cb`, with the half it passes to `uart_rx_buf_rsp`. -/
def uartCb (rx : UartRx) : UartEvent → UartRx × Option UInt8
  | .rxBufRequest => ({ rx with bufIndex := rx.bufIndex ^^^ 1 }, some rx.bufIndex)
  | .rxRdy d => (putBytes rx d.buf d.offset (d.len - d.offset), none)
  | .other => (rx, none)

/-! ## The bytes of a piece -/

namespace RxData

variable (d : RxData)

/-- The characters of the piece that belong into the queue. -/
def wanted : List UInt8 := (d.buf.slice d.offset d.len).filter accepted

/-- Those the loop comes by. -/
def visited : List UInt8 := (d.buf.slice d.offset (d.len - d.offset)).filter accepted

/-- Those behind the end of the loop. -/
def missed : List UInt8 :=
  (d.buf.slice (max d.offset d.len) (min d.offset d.len)).filter accepted

theorem wanted_eq : d.wanted = d.visited ++ d.missed := by
  have hsplit : d.len = (d.len - d.offset) + min d.offset d.len := by omega
  have hstart : d.offset + (d.len - d.offset) = max d.offset d.len := by omega
  unfold wanted visited missed
  rw [← List.filter_append, ← hstart, ← slice_add, ← hsplit]

theorem visited_sublist : d.visited.Sublist d.wanted := by
  rw [wanted_eq]
  exact List.sublist_append_left _ _

theorem visited_eq_iff : d.visited = d.wanted ↔ d.missed = [] := by
  rw [wanted_eq, List.self_eq_append_right]

end RxData

/-! ## The queue -/

/-- The loop puts the accepted bytes one after the other. -/
theorem putBytes_eq (rx : UartRx) (buf : Memory) (i n : Nat) :
    putBytes rx buf i n = ((buf.slice i n).filter accepted).foldl kMsgqPut rx := by
  induction n generalizing rx i with
  | zero => rfl
  | succ n ih =>
      rw [slice_succ, putBytes, ih]
      by_cases hb : accepted (buf i) = true
      · rw [if_pos hb, List.filter_cons_of_pos hb, List.foldl_cons]
      · rw [if_neg hb, List.filter_cons_of_neg hb]

theorem kMsgqPut_of_room {rx : UartRx} (h : 0 < rx.queue.numFree) (b : UInt8) :
    ∃ queue, queue.items = rx.queue.items ++ [b] ∧
      kMsgqPut rx b = { rx with queue := queue, puts := rx.puts ++ [b] } := by
  obtain ⟨queue, hput⟩ := Msgq.exists_put h b
  refine ⟨queue, Msgq.put_eq_some hput, ?_⟩
  rw [kMsgqPut, hput]

/-- A full queue refuses the byte; it does not write over the oldest. -/
theorem kMsgqPut_of_full {rx : UartRx} (h : ¬ 0 < rx.queue.numFree) (b : UInt8) :
    kMsgqPut rx b = { rx with refused := rx.refused + 1 } := by
  have hput : rx.queue.put b = none := Msgq.put_eq_none_iff.mpr (Nat.eq_zero_of_not_pos h)
  rw [kMsgqPut, hput]

/-- `main` gets the oldest byte. -/
theorem kMsgqGet_of_cons {rx : UartRx} {b : UInt8} {rest : List UInt8} (h : rx.queue.items = b :: rest) :
    ∃ queue, queue.items = rest ∧ rx.queue.get = some (b, queue) ∧
      kMsgqGet rx = { rx with queue := queue } := by
  obtain ⟨queue, hitems, hget⟩ := Msgq.exists_get_of_cons h
  refine ⟨queue, hitems, hget, ?_⟩
  rw [kMsgqGet, hget]

/-- Neither call has to do with the turn. -/
@[simp] theorem kMsgqPut_bufIndex (rx : UartRx) (b : UInt8) : (kMsgqPut rx b).bufIndex = rx.bufIndex := by
  unfold kMsgqPut
  split <;> rfl

@[simp] theorem kMsgqGet_bufIndex (rx : UartRx) : (kMsgqGet rx).bufIndex = rx.bufIndex := by
  unfold kMsgqGet
  split <;> rfl

@[simp] theorem kMsgqGet_puts (rx : UartRx) : (kMsgqGet rx).puts = rx.puts := by
  unfold kMsgqGet
  split <;> rfl

@[simp] theorem kMsgqGet_refused (rx : UartRx) : (kMsgqGet rx).refused = rx.refused := by
  unfold kMsgqGet
  split <;> rfl

/-- The queue refuses some of the bytes or takes them all, in their order. -/
theorem foldl_kMsgqPut (rx : UartRx) (bytes : List UInt8) :
    rx.refused < (bytes.foldl kMsgqPut rx).refused ∨
      ((bytes.foldl kMsgqPut rx).refused = rx.refused ∧
        (bytes.foldl kMsgqPut rx).puts = rx.puts ++ bytes) := by
  induction bytes generalizing rx with
  | nil => exact Or.inr ⟨rfl, (List.append_nil _).symm⟩
  | cons b bs ih =>
      rw [List.foldl_cons]
      by_cases hroom : 0 < rx.queue.numFree
      · obtain ⟨queue, -, hput⟩ := kMsgqPut_of_room hroom b
        rw [hput]
        rcases ih { rx with queue := queue, puts := rx.puts ++ [b] } with hlost | ⟨hkept, hputs⟩
        · exact Or.inl hlost
        · refine Or.inr ⟨hkept, ?_⟩
          rw [hputs, List.append_assoc]
          rfl
      · rw [kMsgqPut_of_full hroom b]
        apply Or.inl
        rcases ih { rx with refused := rx.refused + 1 } with hlost | ⟨hkept, -⟩
        · exact Nat.lt_of_succ_lt hlost
        · rw [hkept]
          exact Nat.lt_succ_self _

/-! ## Runs -/

/-- The driver raises an event, or `main` takes a character. -/
inductive DmaEvent where
  | evt (e : UartEvent)
  | get

def DmaEvent.apply (rx : UartRx) : DmaEvent → UartRx
  | .evt e => (uartCb rx e).1
  | .get => kMsgqGet rx

/-- The sample after the events, in order. -/
def run (es : List DmaEvent) : UartRx := es.foldl DmaEvent.apply .zero

/-- The pieces a run reports. -/
def rxData (es : List DmaEvent) : List RxData :=
  es.filterMap fun
    | .evt (.rxRdy d) => some d
    | _ => none

/-- One event adds what its loop comes by, or the queue fills up. -/
theorem apply_puts (rx : UartRx) (e : DmaEvent) :
    rx.refused < (e.apply rx).refused ∨ ((e.apply rx).refused = rx.refused ∧
      (e.apply rx).puts = rx.puts ++ (rxData [e]).flatMap RxData.visited) := by
  match e with
  | .get =>
      show rx.refused < (kMsgqGet rx).refused ∨ (kMsgqGet rx).refused = _ ∧ (kMsgqGet rx).puts = _
      rw [kMsgqGet_refused, kMsgqGet_puts]
      exact Or.inr ⟨rfl, (List.append_nil _).symm⟩
  | .evt .other | .evt .rxBufRequest => exact Or.inr ⟨rfl, (List.append_nil _).symm⟩
  | .evt (.rxRdy d) =>
      show rx.refused < (putBytes _ _ _ _).refused ∨ (putBytes _ _ _ _).refused = _ ∧
        (putBytes _ _ _ _).puts = _
      have hone : (rxData [.evt (.rxRdy d)]).flatMap RxData.visited = d.visited := List.append_nil _
      rw [putBytes_eq, hone]
      exact foldl_kMsgqPut rx d.visited

theorem foldl_apply_puts (rx : UartRx) (es : List DmaEvent) :
    rx.refused < (es.foldl DmaEvent.apply rx).refused ∨
      ((es.foldl DmaEvent.apply rx).refused = rx.refused ∧
        (es.foldl DmaEvent.apply rx).puts = rx.puts ++ (rxData es).flatMap RxData.visited) := by
  induction es generalizing rx with
  | nil => exact Or.inr ⟨rfl, (List.append_nil _).symm⟩
  | cons e es ih =>
      have hdata : rxData (e :: es) = rxData [e] ++ rxData es := List.filterMap_append (l := [e])
      rw [List.foldl_cons]
      rcases apply_puts rx e with hlost | ⟨hkept, hputs⟩
      · apply Or.inl
        rcases ih (e.apply rx) with hlost' | ⟨hkept', -⟩
        · exact Nat.lt_trans hlost hlost'
        · rw [hkept']
          exact hlost
      · rcases ih (e.apply rx) with hlost' | ⟨hkept', hputs'⟩
        · exact Or.inl (hkept ▸ hlost')
        · refine Or.inr ⟨hkept'.trans hkept, ?_⟩
          rw [hputs', hputs, hdata, List.flatMap_append, List.append_assoc]

/-- **No loss, no repetition.** As long as the queue never fills up, what it took is what was wanted of
every piece, in order of arrival, if and only if no piece has a printable character or a `'\r'` behind
the end of the loop. -/
theorem puts_iff (es : List DmaEvent) (hroom : (run es).refused = 0) :
    (run es).puts = (rxData es).flatMap RxData.wanted ↔ ∀ d ∈ rxData es, d.missed = [] := by
  rcases foldl_apply_puts .zero es with hlost | ⟨-, hputs⟩
  · have hfull : 0 < (run es).refused := hlost
    omega
  · have hrun : (run es).puts = (rxData es).flatMap RxData.visited := hputs
    rw [hrun, Pieces.flatMap_eq_iff fun d _ => d.visited_sublist]
    exact forall₂_congr fun d _ => d.visited_eq_iff

/-- Pieces as the driver reports them: a buffer is reported from its start, then further on. -/
def InOrder (ds : List RxData) : Prop :=
  ds.IsChain fun d d' => d'.offset = 0 ∨ (d'.half = d.half ∧ d.offset < d'.offset)

/-- A buffer that holds `text` at its start. -/
def holding (text : List UInt8) : Memory := append text fun _ => 0

/-- `hi` and `'\r'`, reported at once. -/
def wholeLine : List DmaEvent :=
  [.evt (.rxRdy ⟨0, holding [104, 105, 13], 0, 3, by decide⟩), .get]

theorem wholeLine_puts : (run wholeLine).puts = (rxData wholeLine).flatMap RxData.wanted :=
  (puts_iff wholeLine rfl).mpr (by simp [wholeLine, rxData, RxData.missed, Memory.slice])

/-- The same line in two pieces, the second after the idle timeout. -/
def lineInPieces : List DmaEvent :=
  [.evt (.rxRdy ⟨0, holding [104, 105], 0, 2, by decide⟩),
    .evt (.rxRdy ⟨0, holding [104, 105, 13], 2, 1, by decide⟩)]

/-- The loop over the second piece starts behind its own end: the `'\r'` is lost. -/
theorem lineInPieces_loses : InOrder (rxData lineInPieces) ∧ (run lineInPieces).refused = 0 ∧
    (run lineInPieces).puts ≠ (rxData lineInPieces).flatMap RxData.wanted := by
  refine ⟨?_, rfl, by decide⟩
  simp [InOrder, rxData, lineInPieces]

/-! ## The halves -/

/-- The driver and the callback's data. `taken` remembers whether the driver ever switched, `since` how
many requests it raised since it got its active half. -/
structure Driver where
  rx : UartRx
  active : UInt8
  next : Option UInt8
  taken : Bool
  since : Nat
  deriving DecidableEq

/-- `uart_rx_enable(uart_dev, dma_buf, ...)`: the driver owns half 0. -/
def Driver.enabled : Driver := ⟨.zero, 0, none, false, 0⟩

/-- The driver raises `UART_RX_BUF_REQUEST`; the answer becomes its next buffer. -/
def Driver.request (s : Driver) : Driver :=
  { s with
    rx := (uartCb s.rx .rxBufRequest).1
    next := (uartCb s.rx .rxBufRequest).2
    since := s.since + 1 }

/-- The driver goes over to its next buffer and releases the old one. -/
def Driver.switch (s : Driver) (half : UInt8) : Driver :=
  { s with active := half, next := none, taken := true, since := 0 }

inductive DriverStep where
  | request
  | switch
  | rxRdy
  | get
  deriving DecidableEq, Repr

inductive Driver.Step : DriverStep → Driver → Driver → Prop
  | request {s : Driver} : Step .request s s.request
  | switch {s : Driver} {half : UInt8} : s.next = some half → Step .switch s (s.switch half)
  | rxRdy {s : Driver} (d : RxData) : Step .rxRdy s { s with rx := (uartCb s.rx (.rxRdy d)).1 }
  | get {s : Driver} : Step .get s { s with rx := kMsgqGet s.rx }

/-- Any order of requests, switches, received pieces and reads. -/
def doubleBuffering : System Driver DriverStep where
  init s := s = .enabled
  step := Driver.Step

/-- A driver that asks for a buffer only while it has no next one. -/
def AsksOnce : DriverStep → Driver → Prop
  | .request, s => s.next = none
  | _, _ => True

/-- A request raised now is answered with the half the driver is not filling. -/
def AnswersOther (s : Driver) : Prop := (uartCb s.rx .rxBufRequest).2 ≠ some s.active

/-- Requests are answered in turn. The turn is right if the active half came as an answer and the
requests since come in pairs, or if the active half is the one given to `uart_rx_enable` and there is
one request too many. -/
def TurnIsRight (s : Driver) : Prop := if s.taken then s.since % 2 = 0 else s.since % 2 = 1

theorem answersOther_iff (s : Driver) : AnswersOther s ↔ s.rx.bufIndex ≠ s.active := by
  show some s.rx.bufIndex ≠ some s.active ↔ _
  simp

/-- The loop leaves the turn alone. -/
theorem putBytes_bufIndex (rx : UartRx) (buf : Memory) (i n : Nat) :
    (putBytes rx buf i n).bufIndex = rx.bufIndex := by
  induction n generalizing rx i with
  | zero => rfl
  | succ n ih =>
      rw [putBytes, ih]
      split_ifs
      · exact kMsgqPut_bufIndex rx (buf i)
      · rfl

/-- A half is 0 or 1. -/
def IsHalf (h : UInt8) : Prop := h = 0 ∨ h = 1

theorem IsHalf.xor_ne_iff {h a : UInt8} (hh : IsHalf h) (ha : IsHalf a) : h ^^^ 1 ≠ a ↔ h = a := by
  rcases hh with rfl | rfl <;> rcases ha with rfl | rfl <;> decide

theorem IsHalf.xor {h : UInt8} (hh : IsHalf h) : IsHalf (h ^^^ 1) := by
  rcases hh with rfl | rfl
  · exact Or.inr rfl
  · exact Or.inl rfl

/-- The halves in use are halves, the turn is on the half that was not handed out last, and it is right
exactly when `TurnIsRight` says so. -/
structure TurnInv (s : Driver) : Prop where
  index : IsHalf s.rx.bufIndex
  active : IsHalf s.active
  next : ∀ half, s.next = some half → s.rx.bufIndex = half ^^^ 1 ∧ IsHalf half
  turn : s.rx.bufIndex ≠ s.active ↔ TurnIsRight s

namespace TurnInv

variable {s : Driver}

theorem request (h : TurnInv s) : TurnInv s.request where
  index := h.index.xor
  active := h.active
  next := by
    rintro half heq
    obtain rfl := Option.some.inj heq
    exact ⟨rfl, h.index⟩
  turn := by
    have hturn : s.rx.bufIndex = s.active ↔ ¬ TurnIsRight s := by
      rw [← h.turn, not_not]
    show s.rx.bufIndex ^^^ 1 ≠ s.active ↔ _
    rw [h.index.xor_ne_iff h.active, hturn]
    unfold TurnIsRight
    show _ ↔ if s.taken then (s.since + 1) % 2 = 0 else (s.since + 1) % 2 = 1
    split <;> omega

theorem switch (h : TurnInv s) {half : UInt8} (hnext : s.next = some half) :
    TurnInv (s.switch half) where
  index := h.index
  active := (h.next half hnext).2
  next := by
    intro _ heq
    cases heq
  turn := by
    obtain ⟨hindex, hhalf⟩ := h.next half hnext
    show s.rx.bufIndex ≠ half ↔ _
    rw [hindex, hhalf.xor_ne_iff hhalf]
    exact iff_of_true rfl rfl

/-- What changes only the queue. -/
theorem of_bufIndex (h : TurnInv s) {rx : UartRx} (hrx : rx.bufIndex = s.rx.bufIndex) :
    TurnInv { s with rx := rx } where
  index := hrx ▸ h.index
  active := h.active
  next := fun half heq => by
    show rx.bufIndex = _ ∧ _
    rw [hrx]
    exact h.next half heq
  turn := by
    show rx.bufIndex ≠ s.active ↔ _
    rw [hrx]
    exact h.turn

end TurnInv

theorem turnInv_of_reachable {s : Driver} (h : doubleBuffering.Reachable s) : TurnInv s := by
  refine h.invariant ?_ ?_
  · rintro s rfl
    refine ⟨Or.inl rfl, Or.inl rfl, fun _ heq => (by cases heq), ?_⟩
    exact iff_of_false (fun hne => hne rfl) (fun hright => absurd hright (by decide : ¬ 0 % 2 = 1))
  · rintro s t l - hinv hstep
    rcases hstep with _ | hnext | d | _
    · exact hinv.request
    · exact hinv.switch hnext
    · exact hinv.of_bufIndex (putBytes_bufIndex _ _ _ _)
    · exact hinv.of_bufIndex (kMsgqGet_bufIndex _)

/-- **The turn.** In every state of every run, a request is answered with the half the driver is not
filling if and only if the turn is right. -/
theorem answer_iff {s : Driver} (h : doubleBuffering.Reachable s) :
    AnswersOther s ↔ TurnIsRight s := by
  rw [answersOther_iff]
  exact (turnInv_of_reachable h).turn

/-- A driver that asks once for each buffer is wrongly answered the first time and never again. -/
theorem answersOther_iff_taken {s : Driver} (h : (doubleBuffering.restrict AsksOnce).Reachable s)
    (hnone : s.next = none) : AnswersOther s ↔ s.taken = true := by
  have hsince : s.next = none → s.since = 0 := by
    refine h.invariant (I := fun s => s.next = none → s.since = 0) ?_ ?_
    · rintro s rfl -
      rfl
    · rintro s t l - hinv ⟨-, hstep⟩ hnone
      rcases hstep with _ | _ | d | _
      · cases hnone
      · rfl
      · exact hinv hnone
      · exact hinv hnone
  rw [answersOther_iff, (turnInv_of_reachable h.of_restrict).turn, TurnIsRight, hsince hnone]
  cases s.taken <;> decide

/-- After the first request and the first switch the turn is right. -/
theorem secondRequest_answered : AnswersOther (Driver.enabled.request.switch 0) :=
  (answer_iff (.step (.step (.init rfl) .request) (.switch rfl))).mpr rfl

/-- The first request is answered with half 0, which the driver is filling. -/
theorem firstRequest_answered :
    doubleBuffering.Reachable Driver.enabled ∧ ¬ AnswersOther Driver.enabled :=
  ⟨.init rfl, by rw [answersOther_iff]; exact fun hne => hne rfl⟩

end ZephyrSamples.Uart.Dma
