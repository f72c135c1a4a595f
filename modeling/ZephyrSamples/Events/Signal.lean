/-
# ZephyrSamples.Events.Signal -- one event, set by a producer and awaited by a consumer

In two samples a producer sets `DUMMY_EVENT` now and then, a thread or a timer, and a consumer waits for it
with `reset` and processes it. The comments take `reset` for a clearing of the event once it was received.
It is a clearing of whatever is pending when the wait is called, so an event set while nobody waits is lost
at the next wait, always (`call_of_reset`), and a run keeps its events exactly if no event is pending at
any call (`signals_kept_iff`).

The samples differ in what they do with an event, which the event object does not see.
-/
import ZephyrSamples.Lib.EventGroup
import ZephyrSamples.Lib.Runs

namespace ZephyrSamples.Events

open ZephyrSamples.Lib

/-- `print_binary`: 32 digits in groups of four. -/
def printBinary (num : BitVec 32) : String :=
  let digits := (List.range 32).reverse.map fun i =>
    (if num.getLsbD i then "1" else "0") ++ (if i % 4 = 0 ∧ i ≠ 0 then " " else "")
  String.join digits ++ "\n"

namespace Signal

/-- `BIT(0)` -/
def dummyEvent : BitVec 32 := 1#32

/-- `k_event_wait(event, DUMMY_EVENT, true, K_FOREVER)`: for any of the bits, reset first. -/
def waitOptions : WaitOptions := ⟨false, true, false⟩

/-- What a sample does before it sets the event and when it received it. -/
structure Sample (σ : Type) where
  init : σ
  announce : List String
  process : σ → BitVec 32 → σ × List String

/-- `EVENTS/_01`: `main` sets the event, the consumer prints it. -/
def simpleEvent : Sample Unit where
  init := ()
  announce := []
  process _ event := ((), ["\nEvent DUMMY_EVENT received!\n", printBinary event])

/-- `MyStates` -/
inductive MyStates where
  | state1
  | state2
  deriving DecidableEq, Repr

/-- `smf_run_state`, with the two states running each other up. -/
def smfRunState : MyStates → MyStates × List String
  | .state1 => (.state2, ["State 1 running after the event.\n"])
  | .state2 => (.state1, ["State 2 running after the event.\n"])

/-- `SMF/_05`: the timer sets the event, `main` runs the state machine. -/
def simpleEventMachine : Sample MyStates where
  init := .state1
  announce := ["Timer expired, setting event.\n"]
  process state _ := smfRunState state

/-- Where the consumer stands: before `k_event_wait`, inside it, before the processing of what it
returned. -/
inductive ConsumerPc where
  | wait
  | blocked
  | process (event : BitVec 32)
  deriving DecidableEq, Repr

/-- A `k_event_set`: whether the consumer was blocked, and whether it was woken. A `k_event_wait`: whether an
event was owed to it, and what it returned at once. -/
inductive Entry where
  | set (waiting woke : Bool)
  | wait (owed : Bool) (returned : Option (BitVec 32))
  deriving DecidableEq, Repr

/-- The event object, the consumer, and a history. `owed` says that the event was set with nobody waiting and
`k_event_wait` has not been called since. -/
structure State (σ : Type) where
  event : BitVec 32
  pc : ConsumerPc
  state : σ
  printed : List String
  owed : Bool
  log : List Entry

inductive Op where
  | set
  | consumer
  deriving DecidableEq, Repr

variable {σ : Type}

namespace Sample

variable (sample : Sample σ)

def start : State σ := ⟨0#32, .wait, sample.init, [], false, []⟩

/-- `k_event_set(event, DUMMY_EVENT)`: the bits are overwritten, and a blocked consumer looks at them. -/
def set (s : State σ) : State σ :=
  let s := { s with printed := s.printed ++ sample.announce }
  match s.pc with
  | .blocked =>
      match waitOptions.serve dummyEvent dummyEvent with
      | (some event, events) =>
          { s with event := events, pc := .process event, log := .set true true :: s.log }
      | (none, events) => { s with event := events, log := .set true false :: s.log }
  | _ => { s with event := dummyEvent, owed := true, log := .set false false :: s.log }

/-- The call of `k_event_wait`. -/
def wait (s : State σ) : State σ :=
  match waitOptions.call dummyEvent s.event with
  | (some event, events) =>
      { s with
        event := events
        pc := .process event
        owed := false
        log := .wait s.owed (some event) :: s.log }
  | (none, events) =>
      { s with event := events, pc := .blocked, owed := false, log := .wait s.owed none :: s.log }

/-- The consumer goes on, unless it is blocked. -/
def consume (s : State σ) : State σ :=
  match s.pc with
  | .wait => wait s
  | .blocked => s
  | .process event =>
      let (state, lines) := sample.process s.state event
      { s with pc := .wait, state := state, printed := s.printed ++ lines }

def step (s : State σ) : Op → State σ
  | .set => sample.set s
  | .consumer => sample.consume s

end Sample

/-- A set with the consumer blocked woke it; a wait with the event owed returned it at once. -/
def Entry.ok : Entry → Bool
  | .set waiting woke => !waiting || woke
  | .wait owed returned => !owed || returned.any fun event => event &&& dummyEvent != 0#32

/-- No event has been lost, and one that is owed is pending. -/
def Kept (s : State σ) : Prop :=
  s.log.all Entry.ok = true ∧ (s.owed = true → s.event &&& dummyEvent ≠ 0#32)

instance : DecidablePred (Kept (σ := σ)) := fun _ => inferInstanceAs (Decidable (_ ∧ _))

/-- The consumer calls `k_event_wait` only if no event was set since its last call came to an end. -/
def Timely (s : State σ) (op : Op) : Prop := op = .consumer → s.pc = .wait → s.owed = false

/-- Besides, nothing is owed to a consumer that is blocked. -/
structure SignalInv (s : State σ) : Prop where
  kept : Kept s
  blocked : s.pc = .blocked → s.owed = false

namespace SignalInv

variable {sample : Sample σ} {s : State σ}

theorem start (sample : Sample σ) : SignalInv sample.start := by
  refine ⟨⟨rfl, ?_⟩, fun _ => rfl⟩
  simp [Sample.start]

/-- A set wakes the consumer or leaves its event pending. -/
theorem set (h : SignalInv s) : SignalInv (sample.set s) := by
  obtain ⟨⟨hlog, hpending⟩, hblocked⟩ := h
  by_cases hpc : s.pc = .blocked
  · have hset : sample.set s = { s with
        event := dummyEvent
        pc := .process dummyEvent
        printed := s.printed ++ sample.announce
        log := .set true true :: s.log } := by
      simp only [Sample.set, hpc]
      -- the bits set are the mask, which ends the wait
      rfl
    rw [hset]
    refine ⟨⟨hlog, ?_⟩, ?_⟩
    · simp [hblocked hpc]
    · simp
  · have hset : sample.set s = { s with
        event := dummyEvent
        printed := s.printed ++ sample.announce
        owed := true
        log := .set false false :: s.log } := by
      rcases hcase : s.pc with _ | _ | event
      · simp only [Sample.set, hcase]
      · exact absurd hcase hpc
      · simp only [Sample.set, hcase]
    rw [hset]
    refine ⟨⟨hlog, ?_⟩, ?_⟩
    · intro _
      show dummyEvent &&& dummyEvent ≠ 0#32
      decide
    · intro hagain
      exact absurd hagain hpc

end SignalInv

/-- A wait always blocks, and takes what was pending with it. -/
theorem wait_eq (s : State σ) :
    Sample.wait s = { s with
      event := 0#32
      pc := .blocked
      owed := false
      log := .wait s.owed none :: s.log } := by
  have hcall : waitOptions.call dummyEvent s.event = (none, 0#32) :=
    WaitOptions.call_of_reset rfl (by decide)
  simp only [Sample.wait, hcall]

theorem consume_wait {sample : Sample σ} {s : State σ} (hpc : s.pc = .wait) :
    sample.consume s = Sample.wait s := by
  simp only [Sample.consume, hpc]

theorem SignalInv.consume {sample : Sample σ} {s : State σ} (h : SignalInv s)
    (htimely : Timely s .consumer) : SignalInv (sample.consume s) := by
  obtain ⟨⟨hlog, hpending⟩, hblocked⟩ := h
  rcases hpc : s.pc with _ | _ | event
  · have hnone : s.owed = false := htimely rfl hpc
    rw [consume_wait hpc, wait_eq, hnone]
    refine ⟨⟨hlog, ?_⟩, fun _ => rfl⟩
    simp
  · have hsame : sample.consume s = s := by simp only [Sample.consume, hpc]
    rw [hsame]
    exact ⟨⟨hlog, hpending⟩, hblocked⟩
  · have hnext : sample.consume s = { s with
        pc := .wait
        state := (sample.process s.state event).1
        printed := s.printed ++ (sample.process s.state event).2 } := by
      simp only [Sample.consume, hpc]
    rw [hnext]
    refine ⟨⟨hlog, hpending⟩, ?_⟩
    simp

/-- **One event.** For every sample of this shape and every order of sets and consumer steps: events are
kept at every point of the run exactly if no wait is called with an event pending. -/
theorem signals_kept_iff (sample : Sample σ) (ops : List Op) :
    Along sample.step Kept sample.start ops ↔ Steps sample.step Timely sample.start ops := by
  refine along_iff_steps sample.step (I := SignalInv) (fun s h => h.kept) ?_ ?_ (.start sample) ops
  · intro s op h htimely
    rcases op with _ | _
    · exact h.set
    · exact h.consume htimely
  · rintro s op - hkept rfl hpc
    -- the entry of the wait tells whether something was owed
    have hentry : (Entry.wait s.owed none).ok = true := by
      have hall := hkept.1
      rw [Sample.step, consume_wait hpc, wait_eq, List.all_cons, Bool.and_eq_true] at hall
      exact hall.1
    simpa [Entry.ok] using hentry

/-- The event is set before the consumer first waits. -/
theorem early_set_lost :
    ¬ Along simpleEvent.step Kept simpleEvent.start [.set, .consumer] ∧
      ¬ Along simpleEventMachine.step Kept simpleEventMachine.start [.set, .consumer] := by
  decide

end Signal

end ZephyrSamples.Events
