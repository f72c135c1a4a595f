/-
# ZephyrSamples.Uart.Overflow -- lines through a full queue

`uart_cb` puts the characters it comes by into a queue of 50 and does not look at the result; its comment
expects the oldest ones to be written over. A full queue refuses the new one instead. A refused character
is a gap in its line, but a refused `'\r'` joins its line to the next. Of what the queue took nothing is lost
(`Receiver.accounted`).

To say which characters belong together, each is noted with the number of `'\r'` that `uart_cb` came by
before it (`Noted`). The code does not see the notes (`step_erase`). `unspliced_of_heard` says when no message
has characters of two lines, and `safe_iff` that a step which is not so lets one be printed.
-/
import ZephyrSamples.Lib.Runs
import ZephyrSamples.Uart.LineBuffer

namespace ZephyrSamples.Uart.Dma

open ZephyrSamples.Lib
open ZephyrSamples.Lib.CString
open ZephyrSamples.Lib.Lines
open ZephyrSamples.Lib.Wrap

/-! ## The callback and `main` -/

/-- The loop of `uart_cb` comes by a byte, or `main` asks for one. -/
inductive Op where
  | pass (b : UInt8)
  | get
  deriving DecidableEq

/-- The queue, and the locals of `main`. -/
structure Receiver where
  rx : UartRx
  main : LineBuffer UInt8

def Receiver.start (garbage : Memory) : Receiver := ⟨.zero, .start garbage⟩

def Receiver.step (s : Receiver) : Op → Receiver
  | .pass b => if accepted b then { s with rx := kMsgqPut s.rx b } else s
  | .get =>
      match s.rx.queue.get with
      | some (b, _) => ⟨kMsgqGet s.rx, s.main.process id 0 b⟩
      | none => s

theorem Receiver.step_get_of_nil {s : Receiver} (h : s.rx.queue.items = []) : s.step .get = s := by
  have hget : s.rx.queue.get = none := Msgq.get_eq_none_iff.mpr (List.length_eq_zero_iff.mpr h)
  rw [Receiver.step, hget]

theorem Receiver.step_get_of_cons {s : Receiver} {b : UInt8} {rest : List UInt8}
    (h : s.rx.queue.items = b :: rest) :
    ∃ queue, queue.items = rest ∧
      s.step .get = ⟨{ s.rx with queue := queue }, s.main.process id 0 b⟩ := by
  obtain ⟨queue, hitems, hget, hafter⟩ := kMsgqGet_of_cons h
  refine ⟨queue, hitems, ?_⟩
  rw [Receiver.step, hget, ← hafter]

/-- The passes of `UART_RX_RDY`. A byte that `k_msgq_put` hands to a waiting `main` is one that `main` gets
right behind its pass. -/
def RxData.passes (d : RxData) : List Op := (d.buf.slice d.offset (d.len - d.offset)).map .pass

theorem foldl_pass (s : Receiver) (bytes : List UInt8) :
    (bytes.map Op.pass).foldl Receiver.step s =
      { s with rx := (bytes.filter accepted).foldl kMsgqPut s.rx } := by
  induction bytes generalizing s with
  | nil => rfl
  | cons b bs ih =>
      rw [List.map_cons, List.foldl_cons, ih]
      by_cases hb : accepted b = true
      · rw [List.filter_cons_of_pos hb, List.foldl_cons, Receiver.step, if_pos hb]
      · rw [List.filter_cons_of_neg hb, Receiver.step, if_neg hb]

/-- They are what `uart_cb` does. -/
theorem foldl_passes (s : Receiver) (d : RxData) :
    d.passes.foldl Receiver.step s = { s with rx := (uartCb s.rx (.rxRdy d)).1 } := by
  rw [RxData.passes, foldl_pass, ← putBytes_eq]
  rfl

/-- The bytes the queue took are those `main` has put together, and those in the queue. -/
def Receiver.Accounted (garbage : Memory) (s : Receiver) : Prop :=
  ∃ taken, taken ++ s.rx.queue.items = s.rx.puts ∧ s.main = LineBuffer.processAll garbage taken

theorem Receiver.Accounted.step {garbage : Memory} {s : Receiver} (h : s.Accounted garbage) (op : Op) :
    (s.step op).Accounted garbage := by
  obtain ⟨taken, hputs, hmain⟩ := h
  match op with
  | .pass b =>
      show (if accepted b then _ else s).Accounted garbage
      split_ifs
      · refine ⟨taken, ?_, hmain⟩
        show taken ++ (kMsgqPut s.rx b).queue.items = (kMsgqPut s.rx b).puts
        by_cases hroom : 0 < s.rx.queue.numFree
        · obtain ⟨queue, hitems, hput⟩ := kMsgqPut_of_room hroom b
          rw [hput]
          show taken ++ queue.items = s.rx.puts ++ [b]
          rw [hitems, ← hputs, List.append_assoc]
        · rw [kMsgqPut_of_full hroom b]
          exact hputs
      · exact ⟨taken, hputs, hmain⟩
  | .get =>
      rcases hqueue : s.rx.queue.items with _ | ⟨b, rest⟩
      · rw [Receiver.step_get_of_nil hqueue]
        exact ⟨taken, hputs, hmain⟩
      · obtain ⟨queue, hitems, hstep⟩ := Receiver.step_get_of_cons hqueue
        rw [hstep]
        refine ⟨taken ++ [b], ?_, ?_⟩
        · show taken ++ [b] ++ queue.items = s.rx.puts
          rw [hitems, List.append_assoc, ← hputs, hqueue]
          rfl
        · rw [LineBuffer.processAll_concat]
          exact congrArg (LineBuffer.process id 0 · b) hmain

/-- **Nothing in between.** In every run `main` has put together a beginning of what the queue took. -/
theorem Receiver.accounted (garbage : Memory) (ops : List Op) :
    (ops.foldl Receiver.step (.start garbage)).Accounted garbage := by
  induction ops using List.reverseRecOn with
  | nil => exact ⟨[], rfl, rfl⟩
  | append_singleton ops op ih =>
      rw [List.foldl_append]
      exact ih.step op

/-! ## Notes -/

/-- A byte, and how many `'\r'` were before it. -/
structure Cell where
  byte : UInt8
  line : Nat
  deriving DecidableEq

/-- The sample with notes: those of the bytes in the queue, those in the memory of `main`, and the one for
the next byte. -/
structure Noted where
  rx : UartRx
  notes : List Nat
  main : LineBuffer Cell
  line : Nat

namespace Noted

def start (garbage : Memory) : Noted := ⟨.zero, [], .start fun i => ⟨garbage i, 0⟩, 0⟩

/-- The bytes in the queue, with their notes. -/
def waiting (s : Noted) : List Cell := List.zipWith Cell.mk s.rx.queue.items s.notes

def pass (s : Noted) (b : UInt8) : Noted :=
  if accepted b then
    { s with
      rx := kMsgqPut s.rx b
      notes := if 0 < s.rx.queue.numFree then s.notes ++ [s.line] else s.notes
      line := if b = cr then s.line + 1 else s.line }
  else s

def get (s : Noted) : Noted :=
  match s.rx.queue.get with
  | some (b, _) => { s with
      rx := kMsgqGet s.rx
      notes := s.notes.tail
      main := s.main.process Cell.byte ⟨0, 0⟩ ⟨b, s.notes.headD 0⟩ }
  | none => s

def step (s : Noted) : Op → Noted
  | .pass b => s.pass b
  | .get => s.get

/-- The notes taken off. -/
def erase (s : Noted) : Receiver := ⟨s.rx, s.main.map Cell.byte⟩

/-- The code does not see them. -/
theorem step_erase (s : Noted) (op : Op) : (s.step op).erase = s.erase.step op := by
  match op with
  | .pass b =>
      show (s.pass b).erase = if accepted b then _ else _
      unfold pass
      split_ifs <;> rfl
  | .get =>
      show s.get.erase = match s.rx.queue.get with | some (b, _) => _ | none => _
      unfold get
      split
      · show Receiver.mk _ ((s.main.process Cell.byte ⟨0, 0⟩ ⟨_, _⟩).map Cell.byte) = _
        rw [LineBuffer.process_map]
        rfl
      · rfl

theorem foldl_step_erase (s : Noted) (ops : List Op) :
    (ops.foldl step s).erase = ops.foldl Receiver.step s.erase := by
  induction ops generalizing s with
  | nil => rfl
  | cons op ops ih => rw [List.foldl_cons, List.foldl_cons, ih, step_erase]

/-! What a step can do. -/

theorem pass_of_not_accepted (s : Noted) {b : UInt8} (hb : ¬ accepted b = true) : s.pass b = s :=
  if_neg hb

theorem pass_of_room {s : Noted} (hroom : 0 < s.rx.queue.numFree) {b : UInt8}
    (hb : accepted b = true) :
    ∃ queue, queue.items = s.rx.queue.items ++ [b] ∧
      s.pass b =
        { s with
          rx := { s.rx with queue := queue, puts := s.rx.puts ++ [b] }
          notes := s.notes ++ [s.line]
          line := if b = cr then s.line + 1 else s.line } := by
  obtain ⟨queue, hitems, hput⟩ := kMsgqPut_of_room hroom b
  refine ⟨queue, hitems, ?_⟩
  rw [pass, if_pos hb, if_pos hroom, hput]

theorem pass_of_full {s : Noted} (hfull : ¬ 0 < s.rx.queue.numFree) {b : UInt8}
    (hb : accepted b = true) :
    s.pass b =
      { s with
        rx := { s.rx with refused := s.rx.refused + 1 }
        line := if b = cr then s.line + 1 else s.line } := by
  rw [pass, if_pos hb, if_neg hfull, kMsgqPut_of_full hfull b]

/-- Heard or not, `uart_cb` came by the byte. -/
theorem pass_line (s : Noted) {b : UInt8} (hb : accepted b = true) :
    (s.pass b).line = if b = cr then s.line + 1 else s.line := by
  rw [pass, if_pos hb]

theorem get_of_nil {s : Noted} (h : s.rx.queue.items = []) : s.get = s := by
  have hget : s.rx.queue.get = none := Msgq.get_eq_none_iff.mpr (List.length_eq_zero_iff.mpr h)
  rw [get, hget]

theorem get_of_cons {s : Noted} {b : UInt8} {rest : List UInt8} (h : s.rx.queue.items = b :: rest)
    {note : Nat} {notes : List Nat} (hnotes : s.notes = note :: notes) :
    ∃ queue, queue.items = rest ∧
      s.get =
        { s with
          rx := { s.rx with queue := queue }
          notes := notes
          main := s.main.process Cell.byte ⟨0, 0⟩ ⟨b, note⟩ } := by
  obtain ⟨queue, hitems, hget, hafter⟩ := kMsgqGet_of_cons h
  refine ⟨queue, hitems, ?_⟩
  rw [get, hget, hafter, hnotes]
  rfl

theorem waiting_of_nil {s : Noted} (h : s.rx.queue.items = []) : s.waiting = [] := by
  rw [waiting, h, List.zipWith_nil_left]

theorem get_queue (s : Noted) : s.get.rx.queue.items = s.rx.queue.items.tail := by
  rcases hqueue : s.rx.queue.items with _ | ⟨b, rest⟩
  · rw [get_of_nil hqueue, hqueue, List.tail_nil]
  · obtain ⟨queue, hitems, hget, hafter⟩ := kMsgqGet_of_cons hqueue
    rw [get, hget, hafter]
    exact hitems

theorem get_line (s : Noted) : s.get.line = s.line := by
  unfold get
  split <;> rfl

end Noted

/-- Every message printed has characters of one line only. -/
def Unspliced (s : Noted) : Prop :=
  ∀ m ∈ s.main.printed, ∃ line, ∀ str, Reads (fun i => (m i).byte) str →
    ∀ i < str.length, (m i).line = line

/-- Where `main` will store the next character put. -/
def place (s : Noted) : Nat := (Lines.unfinished cr s.rx.puts).length % lineSize

/-- A `'\r'` finds room, or `main` will start afresh without it: what it has of the line is nothing, or all
but the last place. -/
def Heard (s : Noted) : Op → Prop
  | .pass b => b = cr → 0 < s.rx.queue.numFree ∨ place s = 0 ∨ place s = lineSize - 1
  | .get => True

instance (s : Noted) (op : Op) : Decidable (Heard s op) :=
  match op with
  | .pass b => inferInstanceAs (Decidable (b = cr → _ ∨ _ ∨ _))
  | .get => inferInstanceAs (Decidable True)

/-! ## What `main` has taken -/

/-- The bytes `main` has taken and those in the queue are what the queue took, and `main` has put together
what it has taken. -/
structure Tracks (s : Noted) (taken : List Cell) : Prop where
  notes : s.rx.queue.items.length = s.notes.length
  main : Assembled Cell.byte s.main taken
  puts : (taken ++ s.waiting).map Cell.byte = s.rx.puts
  accepted : ∀ b ∈ s.rx.puts, accepted b = true

namespace Tracks

variable {s : Noted} {taken : List Cell}

theorem start (garbage : Memory) : Tracks (.start garbage) [] where
  notes := rfl
  main := .start _
  puts := rfl
  accepted := by simp [Noted.start, UartRx.zero]

theorem ne_zero (h : Tracks s taken) {c : Cell} (hc : c ∈ taken) : c.byte ≠ 0 := by
  have hputs : c.byte ∈ s.rx.puts := by
    rw [← h.puts]
    exact List.mem_map_of_mem (List.mem_append_left _ hc)
  exact ne_zero_of_accepted (h.accepted _ hputs)

/-- A byte that finds room waits behind the others. -/
theorem pass_of_room (h : Tracks s taken) (hroom : 0 < s.rx.queue.numFree) {b : UInt8}
    (hb : Dma.accepted b = true) :
    Tracks (s.pass b) taken ∧ (s.pass b).waiting = s.waiting ++ [⟨b, s.line⟩] := by
  obtain ⟨queue, hitems, hpass⟩ := Noted.pass_of_room hroom hb
  have hwaiting : (s.pass b).waiting = s.waiting ++ [⟨b, s.line⟩] := by
    rw [hpass]
    show List.zipWith Cell.mk queue.items (s.notes ++ [s.line]) = _
    rw [hitems]
    exact List.zipWith_append h.notes
  refine ⟨⟨?_, ?_, ?_, ?_⟩, hwaiting⟩
  · rw [hpass]
    simp [hitems, h.notes]
  · rw [hpass]
    exact h.main
  · rw [hwaiting, ← List.append_assoc, List.map_append, h.puts, hpass]
    rfl
  · rw [hpass]
    intro x hx
    rcases List.mem_append.mp hx with hold | hnew
    · exact h.accepted x hold
    · rw [List.mem_singleton.mp hnew]
      exact hb

/-- One that finds none is forgotten. -/
theorem pass_of_full (h : Tracks s taken) (hfull : ¬ 0 < s.rx.queue.numFree) {b : UInt8}
    (hb : Dma.accepted b = true) :
    Tracks (s.pass b) taken ∧ (s.pass b).waiting = s.waiting := by
  rw [Noted.pass_of_full hfull hb]
  exact ⟨⟨h.notes, h.main, h.puts, h.accepted⟩, rfl⟩

/-- `main` takes the first of those waiting. -/
theorem get (h : Tracks s taken) :
    ∃ taken', Tracks s.get taken' ∧ taken' ++ s.get.waiting = taken ++ s.waiting := by
  rcases hqueue : s.rx.queue.items with _ | ⟨b, rest⟩
  · rw [Noted.get_of_nil hqueue]
    exact ⟨taken, h, rfl⟩
  · have hlen := h.notes
    rw [hqueue] at hlen
    obtain ⟨note, notes, hnotes⟩ := List.exists_cons_of_length_pos
      (Nat.lt_of_lt_of_eq (Nat.succ_pos rest.length) hlen)
    obtain ⟨queue, hitems, hget⟩ := Noted.get_of_cons hqueue hnotes
    have hwaiting : s.waiting = ⟨b, note⟩ :: List.zipWith Cell.mk rest notes := by
      unfold Noted.waiting
      rw [hqueue, hnotes]
      rfl
    have hkept : taken ++ [⟨b, note⟩] ++ s.get.waiting = taken ++ s.waiting := by
      rw [hwaiting, hget, List.append_assoc, ← hitems]
      rfl
    refine ⟨taken ++ [⟨b, note⟩], ⟨?_, ?_, ?_, ?_⟩, hkept⟩
    · rw [hnotes, ← hitems] at hlen
      rw [hget]
      exact Nat.succ_inj.mp hlen
    · rw [hget]
      exact h.main.process rfl ⟨b, note⟩
    · rw [hkept, h.puts, hget]
    · rw [hget]
      exact h.accepted

end Tracks

/-! ## Lines that stay apart -/

/-- The lap of every line is of one line, and unless the next character starts afresh anyway, the one in
progress is of the line `uart_cb` is at. -/
structure Unmixed (kept : List Cell) (line : Nat) : Prop where
  whole : ∀ l ∈ completeBy (endsLine Cell.byte) kept, ∃ t, ∀ c ∈ lap lineSize l, c.line = t
  begun : ∃ t, (∀ c ∈ lap lineSize (unfinishedBy (endsLine Cell.byte) kept), c.line = t) ∧
    ((unfinishedBy (endsLine Cell.byte) kept).length % lineSize = 0 ∨
      (unfinishedBy (endsLine Cell.byte) kept).length % lineSize = lineSize - 1 ∨ t = line)

namespace Unmixed

variable {kept : List Cell} {line : Nat}

theorem nil : Unmixed [] 0 where
  whole := by simp [completeBy, splitBy]
  begun := ⟨0, by simp [unfinishedBy, splitBy, lap], Or.inl rfl⟩

/-- A `'\r'` that is kept. -/
theorem concat_cr (h : Unmixed kept line) :
    Unmixed (kept ++ [⟨cr, line⟩]) (line + 1) := by
  have hends : endsLine Cell.byte ⟨cr, line⟩ = true := rfl
  constructor
  · intro l hl
    rw [completeBy_concat_end kept hends] at hl
    rcases List.mem_append.mp hl with hold | hnew
    · exact h.whole l hold
    · obtain ⟨t, ht, -⟩ := h.begun
      rw [List.mem_singleton.mp hnew]
      exact ⟨t, ht⟩
  · rw [unfinishedBy_concat_end kept hends]
    exact ⟨line + 1, by simp [lap], Or.inl rfl⟩

/-- Any other character. -/
theorem concat_other (h : Unmixed kept line) {b : UInt8} (hb : b ≠ cr) :
    Unmixed (kept ++ [⟨b, line⟩]) line := by
  have hends : ¬ endsLine Cell.byte ⟨b, line⟩ = true := by simpa [endsLine] using hb
  constructor
  · rw [completeBy_concat kept hends]
    exact h.whole
  · obtain ⟨t, ht, hline⟩ := h.begun
    rw [unfinishedBy_concat kept hends]
    refine ⟨line, ?_, Or.inr (Or.inr rfl)⟩
    by_cases hlast : (unfinishedBy (endsLine Cell.byte) kept).length % lineSize + 1 = lineSize
    · -- stored to the last place, behind which `main` starts afresh
      rw [lap_concat_last _ hlast]
      simp
    · have hlt := mod_lineSize_lt (unfinishedBy (endsLine Cell.byte) kept).length
      rw [lap_concat _ (by omega)]
      intro c hc
      rcases List.mem_append.mp hc with hold | hnew
      · have hpos := List.length_pos_of_mem hold
        rw [length_lap] at hpos
        have htline : t = line := by omega
        exact (ht c hold).trans htline
      · rw [List.mem_singleton.mp hnew]

/-- A `'\r'` that is not kept, where that does no harm. -/
theorem skip_cr (h : Unmixed kept line)
    (hplace : (unfinishedBy (endsLine Cell.byte) kept).length % lineSize = 0 ∨
      (unfinishedBy (endsLine Cell.byte) kept).length % lineSize = lineSize - 1) :
    Unmixed kept (line + 1) := by
  obtain ⟨t, ht, -⟩ := h.begun
  refine ⟨h.whole, t, ht, ?_⟩
  rcases hplace with hzero | hlast
  · exact Or.inl hzero
  · exact Or.inr (Or.inl hlast)

end Unmixed

/-- What holds in every state of a run in which each `'\r'` is heard. -/
def Apart (s : Noted) : Prop := ∃ taken, Tracks s taken ∧ Unmixed (taken ++ s.waiting) s.line

theorem Tracks.place_eq {s : Noted} {taken : List Cell} (h : Tracks s taken) :
    place s = (unfinishedBy (endsLine Cell.byte) (taken ++ s.waiting)).length % lineSize := by
  have hsplit : unfinishedBy (fun b => decide (b = cr)) ((taken ++ s.waiting).map Cell.byte) =
      (unfinishedBy (endsLine Cell.byte) (taken ++ s.waiting)).map Cell.byte :=
    congrArg Prod.snd (splitBy_map Cell.byte [] (taken ++ s.waiting))
  rw [place, unfinished_eq_unfinishedBy, ← h.puts, hsplit, List.length_map]

theorem apart_start (garbage : Memory) : Apart (.start garbage) :=
  ⟨[], .start garbage, .nil⟩

/-- **Step.** -/
theorem Apart.step {s : Noted} (h : Apart s) {op : Op} (hop : Heard s op) : Apart (s.step op) := by
  obtain ⟨taken, htracks, hunmixed⟩ := h
  match op with
  | .get =>
      obtain ⟨taken', htracks', hkept⟩ := htracks.get
      refine ⟨taken', htracks', ?_⟩
      rw [Noted.step, hkept, s.get_line]
      exact hunmixed
  | .pass b =>
      by_cases hb : accepted b = true
      · by_cases hroom : 0 < s.rx.queue.numFree
        · obtain ⟨htracks', hwaiting⟩ := htracks.pass_of_room hroom hb
          refine ⟨taken, htracks', ?_⟩
          rw [Noted.step, hwaiting, ← List.append_assoc, s.pass_line hb]
          split_ifs with hcr
          · rw [hcr]
            exact hunmixed.concat_cr
          · exact hunmixed.concat_other hcr
        · obtain ⟨htracks', hwaiting⟩ := htracks.pass_of_full hroom hb
          refine ⟨taken, htracks', ?_⟩
          rw [Noted.step, hwaiting, s.pass_line hb]
          split_ifs with hcr
          · have hplace := (hop hcr).resolve_left hroom
            rw [htracks.place_eq] at hplace
            exact hunmixed.skip_cr hplace
          · exact hunmixed
      · rw [Noted.step, Noted.pass_of_not_accepted s hb]
        exact ⟨taken, htracks, hunmixed⟩

/-- A string in memory ends at the first NUL at the latest. -/
theorem Apart.unspliced {s : Noted} (h : Apart s) : Unspliced s := by
  obtain ⟨taken, htracks, hunmixed⟩ := h
  intro m hm
  obtain ⟨l, hl, hholds, hnul⟩ := Pieces.exists_of_mem_left htracks.main.printed hm
  obtain ⟨t, ht⟩ := hunmixed.whole l ((completeBy_prefix_append _ taken s.waiting).subset hl)
  refine ⟨t, ?_⟩
  intro str hstr i hi
  have hle : str.length ≤ (lap lineSize l).length := by
    rw [length_lap]
    exact hstr.length_le hnul
  rw [hholds i (by omega)]
  exact ht _ (List.getElem_mem _)

theorem Apart.along {s : Noted} (h : Apart s) {ops : List Op} (hops : Steps Noted.step Heard s ops) :
    Along Noted.step Unspliced s ops :=
  along_of_steps Noted.step (I := Apart) (fun _ hs => hs.unspliced) (fun _ _ hs hop => hs.step hop) h
    hops

/-- **Lines through a full queue.** As long as every `'\r'` is heard, no message has characters of two
lines. -/
theorem unspliced_of_heard (garbage : Memory) {ops : List Op}
    (h : Steps Noted.step Heard (.start garbage) ops) :
    Along Noted.step Unspliced (.start garbage) ops :=
  (apart_start garbage).along h

/-! ## Nothing less will do -/

/-- No message has characters of two lines, now or later, as long as every further `'\r'` is heard. -/
def Safe (s : Noted) : Prop :=
  ∀ more, Steps Noted.step Heard s more → Unspliced (more.foldl Noted.step s)

/-- `main` takes all there is. -/
theorem Tracks.drained {s : Noted} {taken : List Cell} (h : Tracks s taken) :
    ∃ gets, Steps Noted.step Heard s gets ∧
      Tracks (gets.foldl Noted.step s) (taken ++ s.waiting) ∧
      (gets.foldl Noted.step s).rx.queue.items = [] ∧ (gets.foldl Noted.step s).line = s.line := by
  induction hn : s.rx.queue.items.length generalizing s taken with
  | zero =>
      have hqueue := List.eq_nil_of_length_eq_zero hn
      rw [Noted.waiting_of_nil hqueue, List.append_nil]
      exact ⟨[], trivial, h, hqueue, rfl⟩
  | succ n ih =>
      obtain ⟨taken', htracks', hkept⟩ := h.get
      have hlen : s.get.rx.queue.items.length = n := by
        rw [s.get_queue, List.length_tail, hn, Nat.add_sub_cancel]
      obtain ⟨gets, hsteps, htracks, hqueue, hline⟩ := ih htracks' hlen
      rw [hkept] at htracks
      exact ⟨.get :: gets, ⟨trivial, hsteps⟩, htracks, hqueue, hline.trans s.get_line⟩

/-- Another line comes, and `main` takes it. -/
theorem Tracks.next_line {s : Noted} {taken : List Cell} (h : Tracks s taken) :
    ∃ more, Steps Noted.step Heard s more ∧
      Tracks (more.foldl Noted.step s) (taken ++ s.waiting ++ [⟨97, s.line⟩] ++ [⟨cr, s.line⟩]) := by
  obtain ⟨gets, hgets, htracks, hqueue, hline⟩ := h.drained
  have hroom : 0 < (gets.foldl Noted.step s).rx.queue.numFree := by
    rw [Msgq.numFree, hqueue]
    decide
  obtain ⟨htracksA, hwaitingA⟩ := htracks.pass_of_room hroom (b := 97) rfl
  have hroomA : 0 < ((gets.foldl Noted.step s).pass 97).rx.queue.numFree := by
    obtain ⟨queue, hitems, hpass⟩ := Noted.pass_of_room hroom (b := 97) rfl
    rw [hpass]
    show 0 < bufSize - queue.items.length
    rw [hitems, hqueue]
    decide
  have hlineA : ((gets.foldl Noted.step s).pass 97).line = s.line :=
    (Noted.pass_line _ rfl).trans hline
  obtain ⟨htracksR, hwaitingR⟩ := htracksA.pass_of_room hroomA (b := cr) rfl
  obtain ⟨gets', hgets', htracks', -, -⟩ := htracksR.drained
  refine ⟨gets ++ .pass 97 :: .pass cr :: gets', ?_, ?_⟩
  · rw [steps_append]
    exact ⟨hgets, fun _ => Or.inl hroom, fun _ => Or.inl hroomA, hgets'⟩
  · rw [hwaitingR, hwaitingA, Noted.waiting_of_nil hqueue, hlineA, hline, List.nil_append,
      ← List.append_assoc] at htracks'
    rw [List.foldl_append]
    exact htracks'

/-- A line printed with notes of two lines is a message of two lines. -/
theorem not_unspliced {s : Noted} {taken : List Cell} (h : Tracks s taken) {l : List Cell}
    (hl : l ∈ completeBy (endsLine Cell.byte) taken) {c d : Cell} (hc : c ∈ lap lineSize l)
    (hd : d ∈ lap lineSize l) (hne : c.line ≠ d.line) : ¬ Unspliced s := by
  intro hunspliced
  obtain ⟨m, hm, hlap⟩ := Pieces.exists_of_mem_right h.main.printed hl
  obtain ⟨t, ht⟩ := hunspliced m hm
  have hnul : ∀ c ∈ l, c.byte ≠ 0 := fun c hcl => h.ne_zero (mem_of_mem_completeBy hl hcl)
  have hnote : ∀ c ∈ lap lineSize l, c.line = t := by
    intro c hcl
    obtain ⟨i, hi, rfl⟩ := List.mem_iff_getElem.mp hcl
    rw [← hlap.1 i hi]
    exact ht _ (hlap.reads hnul) i (by rwa [List.length_map])
  exact hne ((hnote c hc).trans (hnote d hd).symm)

/-- A `'\r'` that is not heard: `main` empties the queue, and the next line is put behind what it has. -/
theorem Apart.not_safe {s : Noted} (h : Apart s) {op : Op} (hop : ¬ Heard s op) :
    ¬ Safe (s.step op) := by
  obtain ⟨taken, htracks, hunmixed⟩ := h
  match op with
  | .get => exact absurd trivial hop
  | .pass b =>
      simp only [Heard, Classical.not_imp, not_or] at hop
      obtain ⟨rfl, hfull, hfirst, hlast⟩ := hop
      rw [htracks.place_eq] at hfirst hlast
      obtain ⟨t, ht, hline⟩ := hunmixed.begun
      have htline : t = s.line := (hline.resolve_left hfirst).resolve_left hlast
      obtain ⟨htracks', hwaiting⟩ := htracks.pass_of_full hfull (b := cr) rfl
      have hnext : (s.pass cr).line = s.line + 1 := by rw [s.pass_line rfl, if_pos rfl]
      obtain ⟨more, hmore, hafter⟩ := htracks'.next_line
      rw [hwaiting, hnext] at hafter
      -- the line in progress is ended by the first character of the next
      have hends : ¬ endsLine Cell.byte ⟨97, s.line + 1⟩ = true := by simp [endsLine, cr]
      have hmem := mem_completeBy_concat_concat (taken ++ s.waiting) hends
        (show endsLine Cell.byte ⟨cr, s.line + 1⟩ = true from rfl)
      generalize unfinishedBy (endsLine Cell.byte) (taken ++ s.waiting) = l at *
      have hlt := mod_lineSize_lt l.length
      have hlap : lap lineSize (l ++ [⟨97, s.line + 1⟩]) = lap lineSize l ++ [⟨97, s.line + 1⟩] :=
        lap_concat _ (by omega)
      obtain ⟨c, hc⟩ : ∃ c, c ∈ lap lineSize l := by
        apply List.exists_mem_of_length_pos
        rw [length_lap]
        omega
      have hmixed : c ∈ lap lineSize l ++ [⟨97, s.line + 1⟩] ∧
          (⟨97, s.line + 1⟩ : Cell) ∈ lap lineSize l ++ [⟨97, s.line + 1⟩] :=
        ⟨List.mem_append_left _ hc, List.mem_append_right _ (List.mem_singleton_self _)⟩
      rw [← hlap] at hmixed
      have hne : c.line ≠ s.line + 1 := by
        rw [ht c hc, htline]
        exact Nat.ne_of_lt (Nat.lt_succ_self _)
      intro hsafe
      exact not_unspliced hafter hmem hmixed.1 hmixed.2 hne (hsafe more hmore)

/-- **Exactly.** In every state of a run no message has characters of two lines, or will have as long as
every further `'\r'` is heard, if and only if every `'\r'` of the run is heard. -/
theorem safe_iff (garbage : Memory) (ops : List Op) :
    Along Noted.step Safe (.start garbage) ops ↔ Steps Noted.step Heard (.start garbage) ops := by
  apply along_iff_steps Noted.step _ _ _ (apart_start garbage) ops
  · intro s hs more hmore
    exact (hs.along hmore).last
  · intro s op hs hop
    exact hs.step hop
  · intro s op hs hsafe
    by_contra hop
    exact hs.not_safe hop hsafe

/-! ## Two runs -/

/-- A piece at the start of a buffer. -/
def piece (text : List UInt8) (h : text.length ≤ bufSize) : RxData :=
  ⟨0, holding text, 0, text.length, by rwa [Nat.zero_add]⟩

/-- Sixteen lines, and two bytes more: the queue is full. -/
def burst (b b' : UInt8) : List UInt8 := (List.replicate 16 [97, 98, 13]).flatten ++ [b, b']

/-- Sixteen times `"ab"`, once `"a"`, and an empty line that the queue refuses. -/
def emptyLine : List Op :=
  (piece (burst 97 13) (by decide)).passes ++ (piece [13] (by decide)).passes ++ List.replicate 50 .get

/-- The refused `'\r'` had no characters before it. -/
theorem emptyLine_unspliced : Along Noted.step Unspliced (.start fun _ => 0) emptyLine :=
  unspliced_of_heard _ (by decide +kernel)

/-- The seventeenth `"ab"` is in the queue, its `'\r'` comes before `main` has taken anything, and the line
`"cd"` comes afterwards. -/
def splicing : List Op :=
  (piece (burst 97 98) (by decide)).passes ++ (piece [13] (by decide)).passes ++
    List.replicate 50 .get ++ (piece [99, 100, 13] (by decide)).passes ++ List.replicate 3 .get

theorem splicing_prints :
    (splicing.foldl Noted.step (.start fun _ => 0)).main.printed.getLast?.map
        (fun m => (m 0, m 1, m 2, m 3, m 4)) =
      some (⟨97, 16⟩, ⟨98, 16⟩, ⟨99, 17⟩, ⟨100, 17⟩, ⟨0, 0⟩) := by
  decide +kernel

/-- `main` prints `"abcd"`. -/
theorem splicing_spliced : ¬ Along Noted.step Unspliced (.start fun _ => 0) splicing := by
  intro halong
  obtain ⟨m, hm, hcells⟩ := Option.map_eq_some_iff.mp splicing_prints
  simp only [Prod.mk.injEq] at hcells
  obtain ⟨h0, h1, h2, h3, h4⟩ := hcells
  have hreads : Reads (fun i => (m i).byte) [97, 98, 99, 100] := by
    simp [Reads, Memory.tail, h0, h1, h2, h3, h4]
  obtain ⟨line, hline⟩ := halong.last m (List.mem_of_getLast? hm)
  have hfirst := hline _ hreads 0 (by simp)
  have hlast := hline _ hreads 3 (by simp)
  rw [h0] at hfirst
  rw [h3, ← hfirst] at hlast
  cases hlast

end ZephyrSamples.Uart.Dma
