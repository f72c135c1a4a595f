/-
# ZephyrSamples.Uart.LineBuffer -- lines put together from a queue

`main` of the DMA sample takes the received bytes out of the queue one by one and stores each where
`counter` points. A `'\r'` is overwritten with the terminator and what stands in `buffer` is printed; behind
the last place `counter` goes back to 0. The buffer is never cleared, so what keeps an old byte out of a
message is the terminator alone: the places in front of it hold the lap of the line (`Assembled`).

The bytes in memory may carry a note, such as where they come from, which the code does not see
(`process_map`).
-/
import ZephyrSamples.Lib.Lines
import ZephyrSamples.Lib.Wrap
import ZephyrSamples.Uart.Dma

namespace ZephyrSamples.Uart.Dma

open ZephyrSamples.Lib
open ZephyrSamples.Lib.CString
open ZephyrSamples.Lib.Lines
open ZephyrSamples.Lib.Wrap

/-! ## The loop of `main` -/

/-- `sizeof(buffer)` -/
def lineSize : Nat := 50

theorem mod_lineSize_lt (n : Nat) : n % lineSize < lineSize := Nat.mod_lt n (by decide)

/-- The locals of `main`, and a history: the indices of `buffer` stored to, and the memory from `buffer` on
at each `printk`. -/
structure LineBuffer (α : Type*) where
  buffer : Nat → α
  counter : UInt8
  stores : List Nat
  printed : List (Nat → α)

namespace LineBuffer

variable {α β : Type*}

/-- The start of the loop, on a stack that holds anything. -/
def start (garbage : Nat → α) : LineBuffer α := ⟨garbage, 0, [], []⟩

/-- A store to `buffer[counter]`. -/
def store (s : LineBuffer α) (a : α) : LineBuffer α :=
  { s with
    buffer := Function.update s.buffer s.counter.toNat a
    stores := s.stores ++ [s.counter.toNat] }

/-- One pass of the loop, in which `k_msgq_get` stores `a`; `nul` is the terminator. -/
def process (byte : α → UInt8) (nul : α) (s : LineBuffer α) (a : α) : LineBuffer α :=
  let s := s.store a
  if byte (s.buffer s.counter.toNat) = cr then
    -- buffer[counter] = '\0'
    let s := s.store nul
    { s with counter := 0, printed := s.printed ++ [s.buffer] }
  else
    let counter := s.counter + 1
    { s with counter := if counter.toNat ≥ lineSize then 0 else counter }

/-- The loop over bytes without notes. -/
def processAll (garbage : Memory) (bytes : List UInt8) : LineBuffer UInt8 :=
  bytes.foldl (process id 0) (start garbage)

theorem processAll_concat (garbage : Memory) (bytes : List UInt8) (b : UInt8) :
    processAll garbage (bytes ++ [b]) = (processAll garbage bytes).process id 0 b := by
  rw [processAll, List.foldl_append]
  rfl

/-- What is looked at is the byte just stored. -/
theorem store_read (s : LineBuffer α) (a : α) : (s.store a).buffer (s.store a).counter.toNat = a := by
  show Function.update s.buffer s.counter.toNat a s.counter.toNat = a
  rw [Function.update_self]

theorem process_of_cr {byte : α → UInt8} (nul : α) (s : LineBuffer α) {a : α} (ha : byte a = cr) :
    s.process byte nul a =
      { (s.store a).store nul with
        counter := 0
        printed := s.printed ++ [((s.store a).store nul).buffer] } := by
  unfold process
  dsimp only
  rw [store_read, if_pos ha]
  rfl

theorem process_of_ne {byte : α → UInt8} (nul : α) (s : LineBuffer α) {a : α} (ha : byte a ≠ cr) :
    s.process byte nul a =
      { s.store a with counter := if (s.counter + 1).toNat ≥ lineSize then 0 else s.counter + 1 } := by
  unfold process
  dsimp only
  rw [store_read, if_neg ha]
  rfl

/-- The notes taken off. -/
def map (f : α → β) (s : LineBuffer α) : LineBuffer β where
  buffer := fun i => f (s.buffer i)
  counter := s.counter
  stores := s.stores
  printed := s.printed.map fun m i => f (m i)

theorem store_map (f : α → β) (s : LineBuffer α) (a : α) :
    (s.store a).map f = (s.map f).store (f a) := by
  have hbuffer : (fun i => f (Function.update s.buffer s.counter.toNat a i)) =
      Function.update (fun i => f (s.buffer i)) s.counter.toNat (f a) := by
    funext i
    by_cases hi : i = s.counter.toNat
    · rw [hi, Function.update_self, Function.update_self]
    · rw [Function.update_of_ne hi, Function.update_of_ne hi]
  simp only [map, store, hbuffer]

/-- The code does not see the notes. -/
theorem process_map (byte : α → UInt8) (nul : α) (s : LineBuffer α) (a : α) :
    (s.process byte nul a).map byte = (s.map byte).process id (byte nul) (byte a) := by
  have hstore := store_map byte s a
  by_cases ha : byte a = cr
  · have hnul := store_map byte (s.store a) nul
    rw [process_of_cr nul s ha, process_of_cr (byte nul) (s.map byte) ha, ← hstore, ← hnul]
    simp [map]
  · rw [process_of_ne nul s ha, process_of_ne (byte nul) (s.map byte) ha, ← hstore]
    rfl

end LineBuffer

/-! ## What stands in the buffer -/

section Assembled

variable {α : Type*} (byte : α → UInt8)

/-- The byte ends a line. -/
def endsLine (a : α) : Bool := decide (byte a = cr)

/-- The memory printed for a line: its lap, and a NUL behind it. -/
def PrintsLap (m : Nat → α) (line : List α) : Prop :=
  Holds m (lap lineSize line) ∧ byte (m (line.length % lineSize)) = 0

/-- After `taken` the buffer holds the lap of the line in progress, and every line completed has been printed
with its lap. -/
structure Assembled (s : LineBuffer α) (taken : List α) : Prop where
  counter : s.counter.toNat = (unfinishedBy (endsLine byte) taken).length % lineSize
  holds : Holds s.buffer (lap lineSize (unfinishedBy (endsLine byte) taken))
  stores : ∀ i ∈ s.stores, i < lineSize
  printed : List.Forall₂ (PrintsLap byte) s.printed (completeBy (endsLine byte) taken)

namespace Assembled

variable {byte} {s : LineBuffer α} {taken : List α} {nul : α}

theorem start (garbage : Nat → α) : Assembled byte (.start garbage) [] where
  counter := rfl
  holds := holds_nil garbage
  stores := by simp [LineBuffer.start]
  printed := .nil

theorem counter_lt (h : Assembled byte s taken) : s.counter.toNat < lineSize := by
  rw [h.counter]
  exact mod_lineSize_lt _

/-- A `'\r'` is replaced by the terminator, and the line is printed. -/
theorem process_cr (h : Assembled byte s taken) (hnul : byte nul = 0) {a : α} (ha : byte a = cr) :
    Assembled byte (s.process byte nul a) (taken ++ [a]) := by
  have hends : endsLine byte a = true := decide_eq_true ha
  have hlen : (lap lineSize (unfinishedBy (endsLine byte) taken)).length = s.counter.toNat := by
    rw [length_lap, h.counter]
  rw [LineBuffer.process_of_cr nul s ha]
  refine ⟨?_, ?_, ?_, ?_⟩
  · rw [unfinishedBy_concat_end taken hends]
    rfl
  · rw [unfinishedBy_concat_end taken hends]
    exact holds_nil _
  · have hlt := h.counter_lt
    intro i hi
    simp only [LineBuffer.store, List.mem_append, List.mem_singleton] at hi
    rcases hi with (hold | rfl) | rfl
    · exact h.stores i hold
    · exact hlt
    · exact hlt
  · rw [completeBy_concat_end taken hends]
    refine List.rel_append h.printed (.cons ⟨?_, ?_⟩ .nil)
    · -- both stores are behind the lap
      exact (h.holds.update (Nat.le_of_eq hlen) a).update (Nat.le_of_eq hlen) nul
    · rw [← h.counter]
      show byte (((s.store a).store nul).buffer ((s.store a).store nul).counter.toNat) = 0
      rw [LineBuffer.store_read, hnul]

/-- Any other byte stays, and the last place is followed by the first. -/
theorem process_other (h : Assembled byte s taken) {a : α} (ha : ¬ byte a = cr) :
    Assembled byte (s.process byte nul a) (taken ++ [a]) := by
  have hends : ¬ endsLine byte a = true := by simpa [endsLine] using ha
  have hlt := h.counter_lt
  have hlen : (lap lineSize (unfinishedBy (endsLine byte) taken)).length = s.counter.toNat := by
    rw [length_lap, h.counter]
  have hnext : (s.counter + 1).toNat = s.counter.toNat + 1 := by
    rw [UInt8.toNat_add]
    show (s.counter.toNat + 1) % 256 = _
    unfold lineSize at hlt
    omega
  have hmod : (unfinishedBy (endsLine byte) (taken ++ [a])).length % lineSize =
      (s.counter.toNat + 1) % lineSize := by
    rw [unfinishedBy_concat taken hends, List.length_append, List.length_singleton, h.counter,
      Nat.mod_add_mod]
  rw [LineBuffer.process_of_ne nul s ha]
  refine ⟨?_, ?_, ?_, ?_⟩
  · show (if (s.counter + 1).toNat ≥ lineSize then 0 else s.counter + 1).toNat = _
    rw [hmod]
    split_ifs with hfull
    · rw [show s.counter.toNat + 1 = lineSize by omega, Nat.mod_self]
      rfl
    · rw [hnext, Nat.mod_eq_of_lt (by omega)]
  · show Holds (Function.update s.buffer s.counter.toNat a) _
    rw [unfinishedBy_concat taken hends]
    by_cases hlast : s.counter.toNat + 1 = lineSize
    · rw [lap_concat_last a (h.counter ▸ hlast)]
      exact holds_nil _
    · rw [lap_concat a (by rw [← h.counter]; omega), ← hlen]
      exact h.holds.concat a
  · intro i hi
    rcases List.mem_append.mp hi with hold | hnew
    · exact h.stores i hold
    · rw [List.mem_singleton.mp hnew]
      exact hlt
  · rw [completeBy_concat taken hends]
    exact h.printed

/-- **Step.** -/
theorem process (h : Assembled byte s taken) (hnul : byte nul = 0) (a : α) :
    Assembled byte (s.process byte nul a) (taken ++ [a]) := by
  by_cases ha : byte a = cr
  · exact h.process_cr hnul ha
  · exact h.process_other ha

end Assembled

/-- Without NUL among its bytes a line is read as its lap. -/
theorem PrintsLap.reads {byte : α → UInt8} {m : Nat → α} {line : List α} (h : PrintsLap byte m line)
    (hnul : ∀ a ∈ line, byte a ≠ 0) : Reads (fun i => byte (m i)) ((lap lineSize line).map byte) := by
  obtain ⟨hholds, hend⟩ := h
  constructor
  · rw [isString_iff]
    constructor
    · intro i hi
      rw [List.getElem_map, hholds i (by simpa using hi)]
    · rw [List.length_map, length_lap]
      exact hend
  · rw [List.mem_map]
    rintro ⟨a, ha, hzero⟩
    exact hnul a (mem_of_mem_lap ha) hzero

end Assembled

/-! ## Every sequence of bytes -/

/-- The string printed is terminated inside `buffer` and is the last bytes of the line, the last
`L mod sizeof(buffer)` of its `L` bytes, so a line shorter than the buffer is printed unchanged. -/
structure PrintsLine (m : Memory) (line : List UInt8) : Prop where
  terminated : ∃ i < lineSize, m i = 0
  string : Reads m (line.rtake (line.length % lineSize))
  whole : line.length < lineSize → Reads m line

theorem PrintsLap.printsLine {m : Memory} {line : List UInt8} (h : PrintsLap id m line)
    (hnul : 0 ∉ line) : PrintsLine m line := by
  have hstring : Reads m (lap lineSize line) := by
    have hreads := h.reads fun b hb => (fun hzero => hnul (hzero ▸ hb) : b ≠ 0)
    rwa [List.map_id] at hreads
  refine ⟨⟨line.length % lineSize, mod_lineSize_lt _, h.2⟩, hstring, ?_⟩
  intro hshort
  rwa [lap_of_lt hshort] at hstring

theorem processAll_assembled (garbage : Memory) (bytes : List UInt8) :
    Assembled id (LineBuffer.processAll garbage bytes) bytes := by
  induction bytes using List.reverseRecOn with
  | nil => exact .start garbage
  | append_singleton bytes b ih =>
      rw [LineBuffer.processAll_concat]
      exact ih.process rfl b

theorem ne_zero_of_accepted {b : UInt8} (h : accepted b = true) : b ≠ 0 := by
  rintro rfl
  simp [accepted, cr] at h

/-- **The line assembler.** For every sequence of printable characters and `'\r'` taken from the queue, every
store is inside `buffer`, and each `'\r'` prints its line. -/
theorem lines_assembled (garbage : Memory) {bytes : List UInt8}
    (h : ∀ b ∈ bytes, accepted b = true) :
    (∀ i ∈ (LineBuffer.processAll garbage bytes).stores, i < lineSize) ∧
      List.Forall₂ PrintsLine (LineBuffer.processAll garbage bytes).printed
        (Lines.complete cr bytes) := by
  have hall := processAll_assembled garbage bytes
  have hnul : ∀ line ∈ completeBy (endsLine id) bytes, 0 ∉ line := by
    intro line hline hmem
    exact ne_zero_of_accepted (h 0 (mem_of_mem_completeBy hline hmem)) rfl
  refine ⟨hall.stores, ?_⟩
  rw [complete_eq_completeBy]
  -- each line printed is NUL-free and stands there as its lap
  have hboth := (List.forall₂_and_left _ _).mpr ⟨hnul, hall.printed.flip⟩
  exact hboth.flip.imp fun m line hline => PrintsLap.printsLine hline.2 hline.1

/-- `"hi"` is printed, and so is the line behind it. -/
theorem twoLines_assembled :
    (∀ i ∈ (LineBuffer.processAll (fun _ => 0) [104, 105, 13, 111, 13]).stores, i < lineSize) ∧
      List.Forall₂ PrintsLine (LineBuffer.processAll (fun _ => 0) [104, 105, 13, 111, 13]).printed
        (Lines.complete cr [104, 105, 13, 111, 13]) :=
  lines_assembled (fun _ => 0) (by simp [accepted, cr])

end ZephyrSamples.Uart.Dma
