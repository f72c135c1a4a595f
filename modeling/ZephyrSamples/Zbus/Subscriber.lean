/-
# ZephyrSamples.Zbus.Subscriber -- one channel and a subscriber that never waits

`main` publishes to a channel that has one subscriber, which zbus notifies through a queue of five entries.
`subscriber_task` reads the channel in a loop, as if a read took a message out of a queue. It takes nothing
out: the queue of notifications is never emptied, so that the sixth publish fails, and a read returns
whatever the channel holds, published or not, printed or not. The program does behave like a message queue
on the runs that happen to read once for every publish, and on no others (`printed_iff`).
-/
import ZephyrSamples.Lib.Msgq
import ZephyrSamples.Lib.Pieces
import ZephyrSamples.Lib.Runs

namespace ZephyrSamples.Zbus

open ZephyrSamples.Lib
open ZephyrSamples.Lib.Pieces

/-- `struct dummy_msg1` -/
structure DummyMsg1 where
  major : UInt8
  minor : UInt8
  deriving DecidableEq, Repr

namespace Subscriber

inductive Channel where
  | channel1
  deriving DecidableEq, Repr

/-- Where `subscriber_task` stands: before `zbus_chan_read`, before `printk` with what it copied. -/
inductive SubscriberPc where
  | read
  | print (receivedMsg : DummyMsg1)
  deriving DecidableEq, Repr

/-- `channel_1`, the queue of `subscriber_listener`, the two threads, and a history: the messages published
and printed, how many publishes failed, and how many had been made at the latest read. -/
structure Bus where
  channel : DummyMsg1
  queue : Msgq Channel 5
  msg : DummyMsg1
  subscriber : SubscriberPc
  published : List DummyMsg1
  printed : List DummyMsg1
  failed : Nat
  seen : Nat

inductive Thread where
  | main
  | subscriber
  deriving DecidableEq, Repr

/-- `ZBUS_MSG_INIT(0)`, and nothing has been published. -/
def start : Bus := ⟨⟨0, 0⟩, .empty, ⟨1, 0⟩, .read, [], [], 0, 0⟩

/-- `zbus_chan_pub(&channel_1, &msg, K_NO_WAIT)`: the message is stored, then the subscriber is notified. -/
def zbusChanPub (s : Bus) : Bus :=
  let s := { s with channel := s.msg, published := s.published ++ [s.msg] }
  match s.queue.put .channel1 with
  | some queue => { s with queue := queue }
  | none => { s with failed := s.failed + 1 }

/-- `msg.minor++` and the publish. -/
def publish (s : Bus) : Bus := zbusChanPub { s with msg := { s.msg with minor := s.msg.minor + 1 } }

/-- `zbus_chan_read(&channel_1, &received_msg, K_FOREVER)` copies what the channel holds. -/
def subscribe (s : Bus) : Bus :=
  match s.subscriber with
  | .read => { s with subscriber := .print s.channel, seen := s.published.length }
  | .print receivedMsg => { s with subscriber := .read, printed := s.printed ++ [receivedMsg] }

def step (s : Bus) : Thread → Bus
  | .main => publish s
  | .subscriber => subscribe s

/-- No publish has failed, and the messages printed are a beginning of those published. -/
def LikeQueue (s : Bus) : Prop := s.failed = 0 ∧ s.printed <+: s.published

instance : DecidablePred LikeQueue := fun _ => inferInstanceAs (Decidable (_ ∧ _))

/-- `main` publishes five times at most, and the message printed as the `i`-th was read when exactly `i` had
been published. -/
def Paired (s : Bus) : Thread → Prop
  | .main => s.published.length < 5
  | .subscriber => s.subscriber = .read ∨ s.seen = s.printed.length + 1

/-! ## Messages by their number -/

/-- What the channel holds after `k` publishes. -/
def message (k : Nat) : DummyMsg1 := if k = 0 then ⟨0, 0⟩ else ⟨1, UInt8.ofNat k⟩

/-- Up to the fifth they are all different. -/
theorem message_inj {i j : Nat} (hi : i < 6) (hj : j < 6) (h : message i = message j) : i = j := by
  have hall : ∀ i < 6, ∀ j < 6, message i = message j → i = j := by decide
  exact hall i hi j hj h

/-- With `n` messages published, five at most. -/
structure BusInv (s : Bus) (n : Nat) : Prop where
  few : n ≤ 5
  channel : s.channel = message n
  queue : s.queue.items.length = n
  msg : s.msg = ⟨1, UInt8.ofNat n⟩
  published : s.published = numbered (fun i => message (i + 1)) n
  held : ∀ m, s.subscriber = .print m → m = message s.seen ∧ s.seen ≤ n
  likeQueue : LikeQueue s

namespace BusInv

variable {s : Bus} {n : Nat}

theorem start : BusInv start 0 := by
  refine ⟨by omega, rfl, rfl, rfl, rfl, ?_, rfl, List.nil_prefix⟩
  intro m hm
  cases hm

theorem length_published (h : BusInv s n) : s.published.length = n := by
  rw [h.published, length_numbered]

/-- A full queue refuses the notification. -/
theorem failed_publish (h : BusInv s n) :
    (publish s).failed = if n < 5 then 0 else 1 := by
  have hfailed : s.failed = 0 := h.likeQueue.1
  unfold publish zbusChanPub
  dsimp only
  split_ifs with hroom
  · obtain ⟨queue, hput⟩ := Msgq.exists_put (q := s.queue) (by
      rw [Msgq.numFree, h.queue]
      omega) .channel1
    rw [hput]
    exact hfailed
  · have hput : s.queue.put .channel1 = none := by
      rw [Msgq.put_eq_none_iff, Msgq.numFree, h.queue]
      omega
    rw [hput]
    show s.failed + 1 = 1
    rw [hfailed]

theorem publish (h : BusInv s n) (hroom : n < 5) : BusInv (publish s) (n + 1) := by
  obtain ⟨queue, hput⟩ := Msgq.exists_put (q := s.queue) (by
    rw [Msgq.numFree, h.queue]
    omega) .channel1
  have hmsg : { s.msg with minor := s.msg.minor + 1 } = message (n + 1) := by
    rw [h.msg, message, if_neg (Nat.succ_ne_zero n), UInt8.ofNat_add]
    rfl
  have hpublish : Subscriber.publish s = { s with
      channel := message (n + 1)
      queue := queue
      msg := message (n + 1)
      published := s.published ++ [message (n + 1)] } := by
    simp only [Subscriber.publish, zbusChanPub, hmsg, hput]
  rw [hpublish]
  refine ⟨hroom, rfl, ?_, ?_, ?_, ?_, h.likeQueue.1, ?_⟩
  · show queue.items.length = n + 1
    rw [Msgq.put_eq_some hput, List.length_append, h.queue]
    rfl
  · show message (n + 1) = ⟨1, UInt8.ofNat (n + 1)⟩
    rw [message, if_neg (Nat.succ_ne_zero n)]
  · show s.published ++ [message (n + 1)] = _
    rw [h.published, numbered_succ]
  · intro m hm
    obtain ⟨heq, hle⟩ := h.held m hm
    exact ⟨heq, Nat.le_succ_of_le hle⟩
  · exact h.likeQueue.2.trans (List.prefix_append _ _)

theorem read (h : BusInv s n) (hpc : s.subscriber = .read) : BusInv (subscribe s) n := by
  have hread : subscribe s =
      { s with subscriber := .print s.channel, seen := s.published.length } := by
    simp only [subscribe, hpc]
  rw [hread]
  refine ⟨h.few, h.channel, h.queue, h.msg, h.published, ?_, h.likeQueue⟩
  rintro m ⟨⟩
  show s.channel = message s.published.length ∧ s.published.length ≤ n
  rw [h.length_published]
  exact ⟨h.channel, Nat.le_refl n⟩

/-- The message held is the next one to print exactly if it was read after that many publishes. -/
theorem next_iff (h : BusInv s n) {m : DummyMsg1} (hpc : s.subscriber = .print m) :
    s.printed ++ [m] <+: s.published ↔ s.seen = s.printed.length + 1 := by
  obtain ⟨hm, hseen⟩ := h.held m hpc
  have hfew := h.few
  have hprinted : s.printed <+: numbered (fun i => message (i + 1)) n := h.published ▸ h.likeQueue.2
  rw [h.published]
  constructor
  · intro hprefix
    have hlen := hprefix.length_le
    rw [length_numbered, List.length_append, List.length_singleton] at hlen
    have hall := eq_numbered_of_prefix hprefix
    rw [List.length_append, List.length_singleton, numbered_succ] at hall
    -- the message that follows those printed is the one with the next number
    have hlast := List.append_inj_right' hall rfl
    have hnext : message s.seen = message (s.printed.length + 1) := by
      rw [← hm]
      exact List.head_eq_of_cons_eq hlast
    exact message_inj (by omega) (by omega) hnext
  · intro hnext
    have hall : s.printed ++ [m] = numbered (fun i => message (i + 1)) s.seen := by
      rw [hnext, numbered_succ, ← eq_numbered_of_prefix hprinted, hm, hnext]
    rw [hall]
    exact numbered_prefix _ hseen

theorem print (h : BusInv s n) {m : DummyMsg1} (hpc : s.subscriber = .print m)
    (hnext : s.seen = s.printed.length + 1) : BusInv (subscribe s) n := by
  have hprint : subscribe s = { s with subscriber := .read, printed := s.printed ++ [m] } := by
    simp only [subscribe, hpc]
  rw [hprint]
  refine ⟨h.few, h.channel, h.queue, h.msg, h.published, ?_, h.likeQueue.1,
    (h.next_iff hpc).mpr hnext⟩
  intro m' hm'
  cases hm'

end BusInv

/-- **One channel.** For every interleaving of publishes with the steps of the subscriber: at every point
no publish has failed and the printed messages are a beginning of the published ones, exactly if there are
five publishes at most and each print shows what was read after as many publishes as it has number. -/
theorem printed_iff (run : List Thread) :
    Along step LikeQueue start run ↔ Steps step Paired start run := by
  refine along_iff_steps step (I := fun s => ∃ n, BusInv s n) ?_ ?_ ?_ ⟨0, .start⟩ run
  · rintro s ⟨n, h⟩
    exact h.likeQueue
  · rintro s thread ⟨n, h⟩ hpaired
    rcases thread with _ | _
    · have hroom : s.published.length < 5 := hpaired
      rw [h.length_published] at hroom
      exact ⟨n + 1, h.publish hroom⟩
    · rcases hpc : s.subscriber with _ | m
      · exact ⟨n, h.read hpc⟩
      · rcases hpaired with hread | hnext
        · cases hpc.symm.trans hread
        · exact ⟨n, h.print hpc hnext⟩
  · rintro s thread ⟨n, h⟩ hlike
    rcases thread with _ | _
    · show s.published.length < 5
      rw [h.length_published]
      -- the sixth publish fails, wherever the subscriber stands
      by_contra hfull
      have hfailed : (publish s).failed = 0 := hlike.1
      rw [h.failed_publish, if_neg hfull] at hfailed
      cases hfailed
    · rcases hpc : s.subscriber with _ | m
      · exact Or.inl hpc
      · apply Or.inr
        have hprint : subscribe s = { s with subscriber := .read, printed := s.printed ++ [m] } := by
          simp only [subscribe, hpc]
        have hprefix : (subscribe s).printed <+: (subscribe s).published := hlike.2
        rw [hprint] at hprefix
        exact (h.next_iff hpc).mp hprefix

/-- One message, read and printed twice. -/
theorem printed_twice :
    ¬ Along step LikeQueue start [.main, .subscriber, .subscriber, .subscriber, .subscriber] := by
  decide

end Subscriber

end ZephyrSamples.Zbus
