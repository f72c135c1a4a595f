/-
# ZephyrSamples.Events.Posting -- two events, posted one after the other and cleared by hand

`main` posts two bits in turn; the consumer waits for either of them or for both, processes what the wait
returned, and then clears it with `k_event_clear`. Between the return and the clear `main` may post a bit
again, and the clear takes the new event for the old one. That the wait of the first sample has already
cleared what it returns makes no difference: exactly the posts of a returned bit before its clear are lost
(`posts_kept_iff`).
-/
import ZephyrSamples.Events.Signal

namespace ZephyrSamples.Events.Posting

open ZephyrSamples.Lib

/-- `BIT(0)` -/
def dummyEvent0 : BitVec 32 := 1#32
/-- `BIT(3)` -/
def dummyEvent3 : BitVec 32 := 8#32

def mask : BitVec 32 := dummyEvent0 ||| dummyEvent3

inductive Sample where
  /-- `EVENTS/_03` -/
  | postingTwoEvents
  /-- `EVENTS/_04` -/
  | waitForAllEvents
  deriving DecidableEq, Repr

/-- `k_event_wait_safe(&my_event, mask, false, K_FOREVER)` clears what it returns,
`k_event_wait_all(&my_event, mask, false, K_FOREVER)` does not. -/
def Sample.waitOptions : Sample → WaitOptions
  | .postingTwoEvents => ⟨false, false, true⟩
  | .waitForAllEvents => ⟨true, false, false⟩

def Sample.heading : Sample → String
  | .postingTwoEvents => "Consumer Thread: Event received! Event value in binary: "
  | .waitForAllEvents => "All Events received! Event value in binary: "

/-- What the consumer prints. -/
def Sample.process (sample : Sample) (event : BitVec 32) : List String :=
  [sample.heading, printBinary event] ++
    (if event &&& dummyEvent0 ≠ 0#32 then ["Dummy Event 0 received!\n"] else []) ++
    (if event &&& dummyEvent3 ≠ 0#32 then ["Dummy Event 3 received!\n"] else [])

/-- Which of its two posts `main` makes next. -/
inductive MainPc where
  | post0
  | post3
  deriving DecidableEq, Repr

/-- Where the consumer stands: before the wait, inside it, before the processing of what it returned, before
`k_event_clear`. -/
inductive ConsumerPc where
  | wait
  | blocked
  | process (event : BitVec 32)
  | clear (event : BitVec 32)
  deriving DecidableEq, Repr

/-- The event object and the two threads. `unreported` are the bits posted that no wait has returned since,
`window` those posted since a wait last returned. -/
structure State where
  event : BitVec 32
  main : MainPc
  consumer : ConsumerPc
  printed : List String
  unreported : BitVec 32
  window : BitVec 32
  deriving DecidableEq, Repr

inductive Thread where
  | main
  | consumer
  deriving DecidableEq, Repr

def start : State := ⟨0#32, .post0, .wait, [], 0#32, 0#32⟩

def MainPc.bit : MainPc → BitVec 32
  | .post0 => dummyEvent0
  | .post3 => dummyEvent3

def MainPc.next : MainPc → MainPc
  | .post0 => .post3
  | .post3 => .post0

/-- The outcome of the test a waiting consumer undergoes. -/
def State.served (s : State) : Option (BitVec 32) × BitVec 32 → State
  | (some event, events) =>
      { s with
        event := events
        consumer := .process event
        unreported := s.unreported &&& ~~~event
        window := 0#32 }
  | (none, events) => { s with event := events, consumer := .blocked }

/-- `k_event_post(&my_event, bit)`: the bit is added, and a blocked consumer looks at the bits. -/
def post (sample : Sample) (s : State) (bit : BitVec 32) : State :=
  let s := { s with
    event := s.event ||| bit
    unreported := s.unreported ||| bit
    window := s.window ||| bit }
  if s.consumer = .blocked then s.served (sample.waitOptions.serve mask s.event) else s

/-- The consumer goes on, unless it is blocked. -/
def consume (sample : Sample) (s : State) : State :=
  match s.consumer with
  | .wait => s.served (sample.waitOptions.call mask s.event)
  | .blocked => s
  | .process event =>
      { s with consumer := .clear event, printed := s.printed ++ sample.process event }
  -- k_event_clear(&my_event, event)
  | .clear event => { s with event := s.event &&& ~~~event, consumer := .wait }

def step (sample : Sample) (s : State) : Thread → State
  | .main => { post sample s s.main.bit with main := s.main.next }
  | .consumer => consume sample s

/-- Every bit posted and not reported since is pending. -/
def Kept (s : State) : Prop := Within s.unreported s.event

instance : DecidablePred Kept := fun s => inferInstanceAs (Decidable (Within s.unreported s.event))

/-- `k_event_clear` is called only if none of its bits was posted since the wait returned them. -/
def Undisturbed (s : State) (thread : Thread) : Prop :=
  thread = .consumer → ∀ event, s.consumer = .clear event → s.window &&& event = 0#32

/-- Besides, only bits of the mask are posted, and while an event is processed the unreported bits are those
of the window. -/
structure PostInv (s : State) : Prop where
  kept : Kept s
  unreported : Within s.unreported mask
  window : ∀ event, s.consumer = .process event ∨ s.consumer = .clear event →
    s.unreported = s.window

namespace PostInv

variable {sample : Sample} {s : State}

theorem start : PostInv start := by
  refine ⟨zero_within _, zero_within _, ?_⟩
  simp [Posting.start]

/-- A wait that is over reports all that was unreported. -/
theorem served (hkept : Kept s) (hmask : Within s.unreported mask) (o : WaitOptions) :
    PostInv (s.served (o.serve mask s.event)) := by
  by_cases hmet : o.met mask s.event = true
  · have hnone : s.unreported &&& ~~~(s.event &&& mask) = 0#32 := diff_and_eq_zero hkept hmask
    rw [WaitOptions.serve_of_met hmet]
    refine ⟨?_, ?_, ?_⟩
    · show Within (s.unreported &&& ~~~(s.event &&& mask)) _
      rw [hnone]
      exact zero_within _
    · show Within (s.unreported &&& ~~~(s.event &&& mask)) mask
      rw [hnone]
      exact zero_within _
    · intro event _
      exact hnone
  · rw [WaitOptions.serve_of_not_met hmet]
    refine ⟨hkept, hmask, ?_⟩
    simp [State.served]

theorem post (h : PostInv s) {bit : BitVec 32} (hbit : Within bit mask) :
    PostInv (post sample s bit) := by
  let t : State := { s with
    event := s.event ||| bit
    unreported := s.unreported ||| bit
    window := s.window ||| bit }
  have hkept : Kept t := h.kept.or bit
  have hmask : Within t.unreported mask := h.unreported.union hbit
  show PostInv (if t.consumer = .blocked then t.served (sample.waitOptions.serve mask t.event) else t)
  by_cases hpc : t.consumer = .blocked
  · rw [if_pos hpc]
    exact served hkept hmask _
  · rw [if_neg hpc]
    refine ⟨hkept, hmask, ?_⟩
    intro event hevent
    show s.unreported ||| bit = s.window ||| bit
    rw [h.window event hevent]

theorem consume (h : PostInv s) (hclear : Undisturbed s .consumer) : PostInv (consume sample s) := by
  rcases hpc : s.consumer with _ | _ | event | event
  · have hnext : Posting.consume sample s = s.served (sample.waitOptions.serve mask s.event) := by
      simp only [Posting.consume, hpc]
      -- neither sample resets, so the call is a test like any other
      rcases sample with _ | _
      · rfl
      · rfl
    rw [hnext]
    exact served h.kept h.unreported _
  · have hsame : Posting.consume sample s = s := by simp only [Posting.consume, hpc]
    rw [hsame]
    exact h
  · have hwindow := h.window event (Or.inl hpc)
    simp only [Posting.consume, hpc]
    exact ⟨h.kept, h.unreported, fun _ _ => hwindow⟩
  · have hnone : s.unreported &&& event = 0#32 := by
      rw [h.window event (Or.inr hpc)]
      exact hclear rfl event hpc
    simp only [Posting.consume, hpc]
    refine ⟨(within_diff_iff h.kept).mpr hnone, h.unreported, ?_⟩
    simp

end PostInv

theorem bit_within (pc : MainPc) : Within pc.bit mask := by
  rcases pc with _ | _
  · decide
  · decide

/-- **Two events.** For either sample and every interleaving of `main` and the consumer: at every point of
the run each post has been reported or is pending, exactly if no bit is posted between a return that
reports it and the clear that follows. -/
theorem posts_kept_iff (sample : Sample) (run : List Thread) :
    Along (step sample) Kept start run ↔ Steps (step sample) Undisturbed start run := by
  refine along_iff_steps (step sample) (I := PostInv) (fun s h => h.kept) ?_ ?_ .start run
  · intro s thread h hclear
    rcases thread with _ | _
    · have hpost : PostInv (post sample s s.main.bit) := h.post (bit_within s.main)
      exact ⟨hpost.kept, hpost.unreported, hpost.window⟩
    · exact h.consume hclear
  · rintro s thread h hkept rfl event hpc
    -- the clear leaves pending what it does not take
    have hafter : Within s.unreported (s.event &&& ~~~event) := by
      have hstep : step sample s .consumer =
          { s with event := s.event &&& ~~~event, consumer := .wait } := by
        simp only [step, consume, hpc]
      rw [hstep] at hkept
      exact hkept
    rw [← h.window event (Or.inr hpc)]
    exact (within_diff_iff h.kept).mp hafter

/-- Both bits are posted and returned; `DUMMY_EVENT_0` is posted again before the clear. -/
theorem repost_erased :
    ¬ Along (step .postingTwoEvents) Kept start
        [.main, .main, .consumer, .main, .consumer, .consumer] ∧
      ¬ Along (step .waitForAllEvents) Kept start
        [.main, .main, .consumer, .main, .consumer, .consumer] := by
  decide

end ZephyrSamples.Events.Posting
