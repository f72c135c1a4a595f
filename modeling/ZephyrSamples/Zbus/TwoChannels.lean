/-
# ZephyrSamples.Zbus.TwoChannels -- two channels and one subscriber

`main` publishes to two channels in turn; their one subscriber takes the notifications out of its queue and
reads the channel each of them names. A notification that finds the queue full is dropped, while the
message stays in its channel, so a value is missed only if nothing leads the subscriber to its channel any
more (`BusInv`). As long as the queue holds an entry of the channel concerned a drop does no harm. Under a
long overload the entries of one channel can drive out those of the other (`starved_stale`).
-/
import ZephyrSamples.Zbus.Subscriber

namespace ZephyrSamples.Zbus

open ZephyrSamples.Lib

/-- `struct dummy_msg2` -/
structure DummyMsg2 where
  voltage : UInt16
  current : UInt16
  deriving DecidableEq, Repr

namespace TwoChannels

inductive Channel where
  | channel1
  | channel2
  deriving DecidableEq, Repr

/-- What the channel carries. -/
def Message : Channel → Type
  | .channel1 => DummyMsg1
  | .channel2 => DummyMsg2

instance : (c : Channel) → DecidableEq (Message c)
  | .channel1 => inferInstanceAs (DecidableEq DummyMsg1)
  | .channel2 => inferInstanceAs (DecidableEq DummyMsg2)

/-- `ZBUS_MSG_INIT(0)` -/
def Message.init : (c : Channel) → Message c
  | .channel1 => DummyMsg1.mk 0 0
  | .channel2 => DummyMsg2.mk 0 0

/-- Which of its two publishes `main` makes next. -/
inductive MainPc where
  | pub1
  | pub2
  deriving DecidableEq, Repr

/-- Where `subscriber_task` stands: before `zbus_sub_wait`, before the `zbus_chan_read` of the channel it was
told, before `printk` with what it copied. -/
inductive SubscriberPc where
  | wait
  | read (chan : Channel)
  | print (chan : Channel) (receivedMsg : Message chan)
  deriving DecidableEq

/-- The two channels, the queue of `subscriber_listener`, the two threads, and for each channel the last
message published and the last one printed. -/
structure Bus where
  channel : (c : Channel) → Message c
  queue : Msgq Channel 5
  main : MainPc
  msg : DummyMsg1
  msg2 : DummyMsg2
  subscriber : SubscriberPc
  lastPublished : (c : Channel) → Option (Message c)
  lastPrinted : (c : Channel) → Option (Message c)

inductive Thread where
  | main
  | subscriber
  deriving DecidableEq, Repr

def start : Bus where
  channel := Message.init
  queue := .empty
  main := .pub1
  msg := ⟨1, 0⟩
  msg2 := ⟨220, 10⟩
  subscriber := .wait
  lastPublished _ := none
  lastPrinted _ := none

/-- `zbus_chan_pub(chan, msg, K_NO_WAIT)`: the message is stored; if the queue is full the notification is
dropped. -/
def zbusChanPub (s : Bus) (chan : Channel) (msg : Message chan) : Bus :=
  { s with
    channel := Function.update s.channel chan msg
    queue := (s.queue.put chan).getD s.queue
    lastPublished := Function.update s.lastPublished chan (some msg) }

/-- The next publish of `main`, which ignores its result. -/
def publish (s : Bus) : Bus :=
  match s.main with
  | .pub1 =>
      let msg := { s.msg with minor := s.msg.minor + 1 }
      { zbusChanPub s .channel1 msg with msg := msg, main := .pub2 }
  | .pub2 =>
      let msg2 := { s.msg2 with current := s.msg2.current + 1 }
      { zbusChanPub s .channel2 msg2 with msg2 := msg2, main := .pub1 }

/-- The subscriber goes on, unless it waits at an empty queue. -/
def subscribe (s : Bus) : Bus :=
  match s.subscriber with
  | .wait =>
      match s.queue.get with
      | none => s
      | some (chan, queue) => { s with queue := queue, subscriber := .read chan }
  | .read chan => { s with subscriber := .print chan (s.channel chan) }
  | .print chan receivedMsg =>
      { s with
        subscriber := .wait
        lastPrinted := Function.update s.lastPrinted chan (some receivedMsg) }

def step (s : Bus) : Thread → Bus
  | .main => publish s
  | .subscriber => subscribe s

/-- The channel of the next publish. -/
def MainPc.channel : MainPc → Channel
  | .pub1 => .channel1
  | .pub2 => .channel2

/-- With nothing queued and the subscriber waiting, the last message printed of each channel is the last one
published there. -/
def CaughtUp (s : Bus) : Prop :=
  s.queue.items = [] → s.subscriber = .wait →
    s.lastPrinted .channel1 = s.lastPublished .channel1 ∧
      s.lastPrinted .channel2 = s.lastPublished .channel2

instance : DecidablePred CaughtUp := fun _ => inferInstanceAs (Decidable (_ → _ → _ ∧ _))

/-- A publish finds room in the queue, or an entry of its channel there, or the subscriber about to read it. -/
def Noticed (s : Bus) (thread : Thread) : Prop :=
  thread = .main → 0 < s.queue.numFree ∨ s.main.channel ∈ s.queue.items ∨
    s.subscriber = .read s.main.channel

instance (s : Bus) (thread : Thread) : Decidable (Noticed s thread) :=
  inferInstanceAs (Decidable (_ → _ ∨ _ ∨ _))

/-! ## The invariant -/

/-- The subscriber will come to the channel, or holds the last message published there. -/
def Due (s : Bus) (c : Channel) : Prop :=
  c ∈ s.queue.items ∨ s.subscriber = .read c ∨
    ∃ m, s.subscriber = .print c m ∧ s.lastPublished c = some m

/-- What the subscriber is led to has been published and is what the channel holds; a channel it is not led
to is up to date. -/
structure BusInv (s : Bus) : Prop where
  stored : ∀ c, c ∈ s.queue.items ∨ s.subscriber = .read c → s.lastPublished c = some (s.channel c)
  fresh : ∀ c, Due s c ∨ (s.lastPrinted c = s.lastPublished c ∧ ∀ m, s.subscriber ≠ .print c m)

namespace BusInv

variable {s : Bus}

theorem start : BusInv start := by
  refine ⟨?_, ?_⟩
  · simp [TwoChannels.start, Msgq.empty]
  · intro c
    apply Or.inr
    refine ⟨rfl, ?_⟩
    simp [TwoChannels.start]

theorem caughtUp (h : BusInv s) : CaughtUp s := by
  intro hempty hwait
  have hsame (c : Channel) : s.lastPrinted c = s.lastPublished c := by
    rcases h.fresh c with (hc | hc | ⟨m, hc, -⟩) | ⟨hsame, -⟩
    · rw [hempty] at hc
      cases hc
    · cases hwait.symm.trans hc
    · cases hwait.symm.trans hc
    · exact hsame
  exact ⟨hsame .channel1, hsame .channel2⟩

/-- What is queued after a publish. -/
theorem mem_put (chan : Channel) {c : Channel} (hc : c ∈ s.queue.items) :
    c ∈ ((s.queue.put chan).getD s.queue).items := by
  rcases hput : s.queue.put chan with _ | queue
  · exact hc
  · show c ∈ queue.items
    rw [Msgq.put_eq_some hput]
    exact List.mem_append_left _ hc

theorem of_mem_put {chan c : Channel} (hc : c ∈ ((s.queue.put chan).getD s.queue).items) :
    c ∈ s.queue.items ∨ c = chan := by
  rcases hput : s.queue.put chan with _ | queue
  · rw [hput] at hc
    exact Or.inl hc
  · rw [hput] at hc
    have hmem : c ∈ s.queue.items ++ [chan] := Msgq.put_eq_some hput ▸ hc
    rcases List.mem_append.mp hmem with hold | hnew
    · exact Or.inl hold
    · exact Or.inr (List.mem_singleton.mp hnew)

/-- A publish that is noticed leaves its channel due. -/
theorem zbusChanPub (h : BusInv s) (chan : Channel) (msg : Message chan)
    (hnoticed : 0 < s.queue.numFree ∨ chan ∈ s.queue.items ∨ s.subscriber = .read chan) :
    BusInv (zbusChanPub s chan msg) := by
  have hdue : chan ∈ ((s.queue.put chan).getD s.queue).items ∨ s.subscriber = .read chan := by
    rcases hnoticed with hroom | hqueued | hread
    · obtain ⟨queue, hput⟩ := Msgq.exists_put hroom chan
      apply Or.inl
      rw [hput]
      show chan ∈ queue.items
      rw [Msgq.put_eq_some hput]
      exact List.mem_append_right _ List.mem_cons_self
    · exact Or.inl (mem_put chan hqueued)
    · exact Or.inr hread
  have hself : (TwoChannels.zbusChanPub s chan msg).lastPublished chan = some msg :=
    Function.update_self ..
  have hchan : (TwoChannels.zbusChanPub s chan msg).channel chan = msg := Function.update_self ..
  refine ⟨?_, ?_⟩
  · intro c hc
    by_cases heq : c = chan
    · rw [heq, hself, hchan]
    · have hold : c ∈ s.queue.items ∨ s.subscriber = .read c := by
        rcases hc with hqueued | hread
        · exact Or.inl ((of_mem_put hqueued).resolve_right heq)
        · exact Or.inr hread
      show Function.update s.lastPublished chan (some msg) c =
        some (Function.update s.channel chan msg c)
      -- the other channel is as it was
      rw [Function.update_of_ne heq, Function.update_of_ne heq]
      exact h.stored c hold
  · intro c
    by_cases heq : c = chan
    · rw [heq]
      exact Or.inl (hdue.imp_right Or.inl)
    · have hpublished : (TwoChannels.zbusChanPub s chan msg).lastPublished c = s.lastPublished c :=
        Function.update_of_ne heq ..
      unfold Due
      rw [hpublished]
      exact (h.fresh c).imp_left (Or.imp_left (mem_put chan))

theorem publish (h : BusInv s) (hnoticed : Noticed s .main) : BusInv (publish s) := by
  have hnote := hnoticed rfl
  rcases hpc : s.main with _ | _
  · rw [hpc] at hnote
    have hpub := h.zbusChanPub .channel1 { s.msg with minor := s.msg.minor + 1 } hnote
    simp only [TwoChannels.publish, hpc]
    exact ⟨hpub.stored, hpub.fresh⟩
  · rw [hpc] at hnote
    have hpub := h.zbusChanPub .channel2 { s.msg2 with current := s.msg2.current + 1 } hnote
    simp only [TwoChannels.publish, hpc]
    exact ⟨hpub.stored, hpub.fresh⟩

theorem wait (h : BusInv s) (hpc : s.subscriber = .wait) {chan : Channel} {queue : Msgq Channel 5}
    (hget : s.queue.get = some (chan, queue)) :
    BusInv { s with queue := queue, subscriber := .read chan } := by
  have hitems : s.queue.items = chan :: queue.items := Msgq.get_eq_some hget
  refine ⟨?_, ?_⟩
  · intro c hc
    apply h.stored
    apply Or.inl
    rw [hitems]
    rcases hc with hqueued | hread
    · exact List.mem_cons_of_mem _ hqueued
    · cases hread
      exact List.mem_cons_self
  · intro c
    rcases h.fresh c with (hqueued | hread | ⟨m, hprint, -⟩) | ⟨hsame, -⟩
    · rw [hitems] at hqueued
      rcases List.mem_cons.mp hqueued with rfl | hrest
      · exact Or.inl (Or.inr (Or.inl rfl))
      · exact Or.inl (Or.inl hrest)
    · cases hpc.symm.trans hread
    · cases hpc.symm.trans hprint
    · apply Or.inr
      refine ⟨hsame, ?_⟩
      intro m hm
      cases hm

theorem read (h : BusInv s) {chan : Channel} (hpc : s.subscriber = .read chan) :
    BusInv { s with subscriber := .print chan (s.channel chan) } := by
  refine ⟨?_, ?_⟩
  · rintro c (hqueued | hread)
    · exact h.stored c (Or.inl hqueued)
    · cases hread
  · intro c
    by_cases heq : c = chan
    · rw [heq]
      exact Or.inl (Or.inr (Or.inr ⟨s.channel chan, rfl, h.stored chan (Or.inr hpc)⟩))
    · rcases h.fresh c with (hqueued | hread | ⟨m, hprint, -⟩) | ⟨hsame, -⟩
      · exact Or.inl (Or.inl hqueued)
      · cases hpc.symm.trans hread
        exact absurd rfl heq
      · cases hpc.symm.trans hprint
      · apply Or.inr
        refine ⟨hsame, ?_⟩
        intro m hm
        cases hm
        exact heq rfl

theorem print (h : BusInv s) {chan : Channel} {m : Message chan}
    (hpc : s.subscriber = .print chan m) :
    BusInv { s with
      subscriber := .wait
      lastPrinted := Function.update s.lastPrinted chan (some m) } := by
  refine ⟨?_, ?_⟩
  · rintro c (hqueued | hread)
    · exact h.stored c (Or.inl hqueued)
    · cases hread
  · intro c
    by_cases hqueued : c ∈ s.queue.items
    · exact Or.inl (Or.inl hqueued)
    · -- with no entry of the channel left, what was printed is the last one published
      apply Or.inr
      refine ⟨?_, fun m' hm' => by cases hm'⟩
      show Function.update s.lastPrinted chan (some m) c = s.lastPublished c
      rcases h.fresh c with (hagain | hread | ⟨m', hprint, hlast⟩) | ⟨hsame, hother⟩
      · exact absurd hagain hqueued
      · cases hpc.symm.trans hread
      · cases hpc.symm.trans hprint
        rw [Function.update_self, hlast]
      · have heq : c ≠ chan := by
          rintro rfl
          exact hother m hpc
        rw [Function.update_of_ne heq, hsame]

theorem subscribe (h : BusInv s) : BusInv (subscribe s) := by
  rcases hpc : s.subscriber with _ | chan | ⟨chan, m⟩
  · rcases hget : s.queue.get with _ | ⟨chan, queue⟩
    · simp only [TwoChannels.subscribe, hpc, hget]
      exact h
    · simp only [TwoChannels.subscribe, hpc, hget]
      exact h.wait hpc hget
  · simp only [TwoChannels.subscribe, hpc]
    exact h.read hpc
  · simp only [TwoChannels.subscribe, hpc]
    exact h.print hpc

end BusInv

/-- **Two channels.** In every run in which each publish is noticed, whenever the queue is empty and the
subscriber waits, it has printed the last message of each channel. -/
theorem caughtUp_of_noticed {run : List Thread} (h : Steps step Noticed start run) :
    Along step CaughtUp start run := by
  refine along_of_steps step (I := BusInv) (fun s hinv => hinv.caughtUp) ?_ .start h
  intro s thread hinv hnoticed
  rcases thread with _ | _
  · exact hinv.publish hnoticed
  · exact hinv.subscribe

/-- The queue fills up and the entries of `channel_1` gain on it. The publishes of `channel_2` are dropped from
the sixth on, while an entry of it is queued or, the last time, about to be read. -/
def overloaded : List Thread :=
  let serve := List.replicate 3 Thread.subscriber
  let publish := List.replicate 2 Thread.main
  List.replicate 6 .main ++ serve ++ publish ++ serve ++ publish ++ serve ++ publish ++
    [.subscriber] ++ publish ++ List.replicate 17 .subscriber

theorem overloaded_caughtUp : Along step CaughtUp start overloaded :=
  caughtUp_of_noticed (by decide +kernel)

/-- Six publishes into a queue of five; four times a notification is served and two publishes follow; then
all that is queued is served. -/
def starved : List Thread :=
  let serve := List.replicate 3 Thread.subscriber
  let publish := List.replicate 2 Thread.main
  List.replicate 6 .main ++ serve ++ publish ++ serve ++ publish ++ serve ++ publish ++ serve ++
    publish ++ List.replicate 15 .subscriber

/-- The entries of `channel_1` have filled the queue when `channel_2` is published for the last time. -/
theorem starved_stale : ¬ Along step CaughtUp start starved := by
  decide +kernel

end TwoChannels

end ZephyrSamples.Zbus
