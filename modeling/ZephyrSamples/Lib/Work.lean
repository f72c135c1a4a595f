/-
# ZephyrSamples.Lib.Work -- data shared with the handler of a work item

A thread changes some data and then submits a work item, at once or with a delay, whose handler reads the data
on the thread of a work queue. Submitting an item that is already waiting has no effect, and nothing protects the
data, so one call of the handler may answer for several changes and a change may be read before it is submitted.

Over all orders of moves the handler is called no more often than the item was submitted, what it reads never
goes back, and when nothing is under way it has read the last change (`sound_of_reachable`); it comes to that
whenever the thread pauses (`catchesUp`). Where the thread changes the data only when nothing is under way, each
change is read exactly once, in order (`paced_of_reachable`).

Nothing here names a program.
-/
import ZephyrSamples.Lib.Transition
import Mathlib.Data.List.Range
import Mathlib.Logic.Function.Iterate

namespace ZephyrSamples.Lib

universe u

/-! ## Work items -/

/-- The flags of a work item. One whose handler runs may be queued again. -/
structure Work where
  delayed : Bool
  queued : Bool
  running : Bool
  deriving DecidableEq, Repr

namespace Work

def idle : Work := ⟨false, false, false⟩

def submit (w : Work) : Work := { w with queued := true }

/-- Unlike a submission it leaves an item that waits for its time. -/
def schedule (w : Work) : Work := if w.delayed || w.queued then w else { w with delayed := true }

/-- The time of a delayed item has come. -/
def expire (w : Work) : Work := { w with delayed := false, queued := true }

/-- The queue's thread takes the item out. -/
def dequeue (w : Work) : Work := { w with queued := false, running := true }

/-- The handler has returned. -/
def finish (w : Work) : Work := { w with running := false }

/-- How often the handler is yet to be called. -/
def pending (w : Work) : Nat := w.delayed.toNat + w.queued.toNat

/-- An item that is delayed has further to go than one that is queued. -/
def weight (w : Work) : Nat := 5 * w.delayed.toNat + 4 * w.queued.toNat

/-- It has an effect only on an item that waits for nothing. -/
theorem pending_schedule (w : Work) :
    (0 < w.pending ∧ w.schedule = w) ∨
      (w.pending = 0 ∧ w.schedule = { w with delayed := true } ∧ w.schedule.pending = 1) := by
  rcases w with ⟨_ | _, _ | _, running⟩
  · exact Or.inr ⟨rfl, rfl, rfl⟩
  · exact Or.inl ⟨Nat.one_pos, rfl⟩
  · exact Or.inl ⟨Nat.one_pos, rfl⟩
  · exact Or.inl ⟨Nat.two_pos, rfl⟩

theorem running_schedule (w : Work) : w.schedule.running = w.running := by
  rcases w.pending_schedule with ⟨-, h⟩ | ⟨-, h, -⟩ <;> rw [h]

end Work

/-- The ways to have a handler called. -/
inductive Submission where
  | submit
  | schedule
  deriving DecidableEq, Repr

namespace Submission

def apply : Submission → Work → Work
  | .submit => Work.submit
  | .schedule => Work.schedule

theorem running_apply (m : Submission) (w : Work) : (m.apply w).running = w.running := by
  rcases m with _ | _
  · rfl
  · exact w.running_schedule

/-- Afterwards a call is due, and at most one more than before. -/
theorem pending_apply (m : Submission) (w : Work) :
    0 < (m.apply w).pending ∧ (m.apply w).pending ≤ w.pending + 1 := by
  rcases m with _ | _
  · show 0 < w.delayed.toNat + 1 ∧ w.delayed.toNat + 1 ≤ w.delayed.toNat + w.queued.toNat + 1
    omega
  · rcases w.pending_schedule with ⟨hpos, h⟩ | ⟨hzero, -, hone⟩
    · show 0 < w.schedule.pending ∧ w.schedule.pending ≤ w.pending + 1
      rw [h]
      omega
    · show 0 < w.schedule.pending ∧ w.schedule.pending ≤ w.pending + 1
      omega

/-- A submission adds the way of a delayed item at most. -/
theorem weight_apply (m : Submission) (w : Work) : (m.apply w).weight ≤ w.weight + 5 := by
  rcases m with _ | _
  · show 5 * w.delayed.toNat + 4 * 1 ≤ 5 * w.delayed.toNat + 4 * w.queued.toNat + 5
    omega
  · show w.schedule.weight ≤ w.weight + 5
    rcases w.pending_schedule with ⟨-, h⟩ | ⟨-, h, -⟩
    · rw [h]
      exact Nat.le_add_right _ _
    · rw [h]
      show 5 * 1 + 4 * w.queued.toNat ≤ 5 * w.delayed.toNat + 4 * w.queued.toNat + 5
      omega

end Submission

/-! ## The system -/

/-- What is shared and how: the data at first, a change of it, and what the thread and the handler print. -/
structure Sharing (σ : Type u) where
  initial : σ
  update : σ → σ
  submission : Submission
  announce : List String
  line : σ → String

/-- Whether the thread has changed the data and not submitted the item since. -/
inductive Submitter where
  | ready
  | updated
  deriving DecidableEq, Repr

/-- The handler: not called, called, or with a copy of the data that it is about to print. -/
inductive Handler (σ : Type u) where
  | idle
  | entered
  | holds (a : σ)
  deriving DecidableEq, Repr

namespace Submitter

def due : Submitter → Nat
  | .ready => 0
  | .updated => 1

end Submitter

namespace Handler

variable {σ : Type u}

def inHand : Handler σ → List σ
  | .holds a => [a]
  | .idle | .entered => []

def due : Handler σ → Nat
  | .entered => 1
  | .idle | .holds _ => 0

end Handler

/-- The state, with a history: how often the data was changed, and what was printed of it. -/
structure Shared (σ : Type u) where
  data : σ
  work : Work
  submitter : Submitter
  handler : Handler σ
  printed : List String
  updates : Nat
  handled : List σ

namespace Shared

variable {σ : Type u}

/-- What the handler has read. -/
def seen (s : Shared σ) : List σ := s.handled ++ s.handler.inHand

/-- The readings that are under way. -/
def due (s : Shared σ) : Nat := s.submitter.due + s.work.pending + s.handler.due

/-- Nothing is under way, and the handler is not running. -/
def Settled (s : Shared σ) : Prop := s.due = 0 ∧ s.handler = .idle

end Shared

namespace Sharing

inductive Move where
  | update
  | send
  | expire
  | dequeue
  | read
  | finish
  deriving DecidableEq, Repr

variable {σ : Type u} (P : Sharing σ)

def start : Shared σ := ⟨P.initial, .idle, .ready, .idle, [], 0, []⟩

/-- The thread moves by `update` and `send`, the clock by `expire`, the queue's thread by the others. -/
inductive Step : Move → Shared σ → Shared σ → Prop
  | update {s : Shared σ} : s.submitter = .ready →
      Step .update s
        { s with
          data := P.update s.data
          submitter := .updated
          printed := s.printed ++ P.announce
          updates := s.updates + 1 }
  | send {s : Shared σ} : s.submitter = .updated →
      Step .send s { s with work := P.submission.apply s.work, submitter := .ready }
  | expire {s : Shared σ} : s.work.delayed = true → Step .expire s { s with work := s.work.expire }
  | dequeue {s : Shared σ} : s.work.queued = true → s.handler = .idle →
      Step .dequeue s { s with work := s.work.dequeue, handler := .entered }
  | read {s : Shared σ} : s.handler = .entered → Step .read s { s with handler := .holds s.data }
  | finish {s : Shared σ} {a : σ} : s.handler = .holds a →
      Step .finish s
        { s with
          work := s.work.finish
          handler := .idle
          printed := s.printed ++ [P.line a]
          handled := s.handled ++ [a] }

def system : System (Shared σ) Move where
  init s := s = P.start
  step := P.Step

/-- The data after `n` changes. -/
def version (n : Nat) : σ := P.update^[n] P.initial

theorem version_succ (n : Nat) : P.version (n + 1) = P.update (P.version n) :=
  Function.iterate_succ_apply' P.update n P.initial

/-! ## Readings -/

/-- Versions up to the `n`-th, none older than one before it, and not the initial one. -/
def Follows (n : Nat) (l : List σ) : Prop :=
  ∃ k : List Nat, l = k.map P.version ∧ k.Pairwise (· ≤ ·) ∧ ∀ i ∈ k, 0 < i ∧ i ≤ n

variable {P} {s t : Shared σ} {l : List σ} {n : Nat}

theorem Follows.nil (n : Nat) : P.Follows n [] :=
  ⟨[], rfl, List.Pairwise.nil, fun _ h => absurd h List.not_mem_nil⟩

/-- A change makes no reading too old. -/
theorem Follows.succ (h : P.Follows n l) : P.Follows (n + 1) l := by
  obtain ⟨k, hk, hsorted, hbounds⟩ := h
  exact ⟨k, hk, hsorted, fun i hi => ⟨(hbounds i hi).1, Nat.le_succ_of_le (hbounds i hi).2⟩⟩

/-- The readings before the last ones. -/
theorem Follows.left {l' : List σ} (h : P.Follows n (l ++ l')) : P.Follows n l := by
  obtain ⟨k, hk, hsorted, hbounds⟩ := h
  obtain ⟨k₁, k₂, rfl, hk₁, -⟩ := List.map_eq_append_iff.mp hk.symm
  exact ⟨k₁, hk₁.symm, (List.pairwise_append.mp hsorted).1, fun i hi => hbounds i (List.mem_append_left _ hi)⟩

/-- The newest version may be read at any time. -/
theorem Follows.concat (h : P.Follows n l) (hn : 0 < n) : P.Follows n (l ++ [P.version n]) := by
  obtain ⟨k, hk, hsorted, hbounds⟩ := h
  refine ⟨k ++ [n], ?_, ?_, ?_⟩
  · rw [hk, List.map_append]
    rfl
  · rw [List.pairwise_append]
    refine ⟨hsorted, List.pairwise_singleton _ _, fun i hi j hj => ?_⟩
    rw [List.mem_singleton.mp hj]
    exact (hbounds i hi).2
  · intro i hi
    rcases List.mem_append.mp hi with hi | hi
    · exact hbounds i hi
    · rw [List.mem_singleton.mp hi]
      exact ⟨hn, Nat.le_refl n⟩

/-- What every run keeps. -/
structure Sound (P : Sharing σ) (s : Shared σ) : Prop where
  data : s.data = P.version s.updates
  follows : P.Follows s.updates s.seen
  fresh : s.due = 0 → s.updates = 0 ∨ s.seen.getLast? = some s.data
  calls : s.seen.length + s.due ≤ s.updates
  running : s.work.running = true ↔ s.handler ≠ .idle
  printed : s.printed.Perm ((List.replicate s.updates P.announce).flatten ++ s.handled.map P.line)
  inOrder : (s.handled.map P.line).Sublist s.printed

/-- At first nothing has been changed, submitted or read. -/
theorem Sound.start : Sound P P.start :=
  ⟨rfl, .nil 0, fun _ => Or.inl rfl, Nat.le_refl 0,
    ⟨fun h => Bool.noConfusion h, fun h => absurd rfl h⟩, List.Perm.nil, List.Sublist.slnil⟩

/-- **One move.** A change brings one reading under way and a submission passes it on; a reading is of the newest
data, and where none is under way the last one was. -/
theorem Sound.next {m : Move} (h : Sound P s) (hstep : P.Step m s t) : Sound P t := by
  obtain ⟨hdata, hfollows, hfresh, hcalls, hrunning, hprinted, horder⟩ := h
  cases hstep with
  | update hready =>
      refine ⟨?_, hfollows.succ, ?_, ?_, hrunning, ?_, ?_⟩
      · show P.update s.data = P.version (s.updates + 1)
        rw [version_succ, hdata]
      · -- the change is yet to be submitted
        intro hdue
        change 1 + s.work.pending + s.handler.due = 0 at hdue
        omega
      · show s.seen.length + (1 + s.work.pending + s.handler.due) ≤ s.updates + 1
        change s.seen.length + (s.submitter.due + s.work.pending + s.handler.due) ≤ s.updates at hcalls
        omega
      · -- the two threads may print in any order
        show (s.printed ++ P.announce).Perm
          ((List.replicate (s.updates + 1) P.announce).flatten ++ s.handled.map P.line)
        rw [List.replicate_succ, List.flatten_cons, List.append_assoc]
        exact (hprinted.append_right _).trans List.perm_append_comm
      · exact horder.trans (List.sublist_append_left _ _)
  | send hupdated =>
      have hpending := P.submission.pending_apply s.work
      refine ⟨hdata, hfollows, ?_, ?_, ?_, hprinted, horder⟩
      · -- a submission leaves the item waiting, whether it was waiting before or not
        intro hdue
        change 0 + (P.submission.apply s.work).pending + s.handler.due = 0 at hdue
        omega
      · show s.seen.length + (0 + (P.submission.apply s.work).pending + s.handler.due) ≤ s.updates
        change s.seen.length + (s.submitter.due + s.work.pending + s.handler.due) ≤ s.updates at hcalls
        rw [hupdated] at hcalls
        change s.seen.length + (1 + s.work.pending + s.handler.due) ≤ s.updates at hcalls
        omega
      · show (P.submission.apply s.work).running = true ↔ s.handler ≠ .idle
        rw [Submission.running_apply]
        exact hrunning
  | expire hdelayed =>
      have hwork : s.work.expire.pending = 1 := rfl
      have hone : s.work.pending = 1 + s.work.queued.toNat := by
        unfold Work.pending
        rw [hdelayed]
        rfl
      refine ⟨hdata, hfollows, ?_, ?_, hrunning, hprinted, horder⟩
      · intro hdue
        change s.submitter.due + s.work.expire.pending + s.handler.due = 0 at hdue
        omega
      · show s.seen.length + (s.submitter.due + s.work.expire.pending + s.handler.due) ≤ s.updates
        change s.seen.length + (s.submitter.due + s.work.pending + s.handler.due) ≤ s.updates at hcalls
        omega
  | dequeue hqueued hidle =>
      have hseen : s.handled ++ [] = s.seen := by
        unfold Shared.seen
        rw [hidle]
        rfl
      have hwork : s.work.pending = s.work.dequeue.pending + 1 := by
        unfold Work.pending
        rw [hqueued]
        rfl
      refine ⟨hdata, ?_, ?_, ?_, ?_, hprinted, horder⟩
      · show P.Follows s.updates (s.handled ++ [])
        rw [hseen]
        exact hfollows
      · intro hdue
        change s.submitter.due + s.work.dequeue.pending + 1 = 0 at hdue
        omega
      · show (s.handled ++ []).length + (s.submitter.due + s.work.dequeue.pending + 1) ≤ s.updates
        change s.seen.length + (s.submitter.due + s.work.pending + s.handler.due) ≤ s.updates at hcalls
        rw [hidle] at hcalls
        change s.seen.length + (s.submitter.due + s.work.pending + 0) ≤ s.updates at hcalls
        rw [hseen]
        omega
      · exact ⟨fun _ hne => (nomatch hne), fun _ => rfl⟩
  | read hentered =>
      have hseen : s.handled ++ [s.data] = s.seen ++ [s.data] := by
        unfold Shared.seen
        rw [hentered]
        simp [Handler.inHand]
      refine ⟨hdata, ?_, ?_, ?_, ?_, hprinted, horder⟩
      · -- a call is due, so there was a change to read
        show P.Follows s.updates (s.handled ++ [s.data])
        rw [hseen, hdata]
        apply hfollows.concat
        change s.seen.length + (s.submitter.due + s.work.pending + s.handler.due) ≤ s.updates at hcalls
        rw [hentered] at hcalls
        change s.seen.length + (s.submitter.due + s.work.pending + 1) ≤ s.updates at hcalls
        omega
      · intro _
        refine Or.inr ?_
        show (s.handled ++ [s.data]).getLast? = some s.data
        exact List.getLast?_concat
      · show (s.handled ++ [s.data]).length + (s.submitter.due + s.work.pending + 0) ≤ s.updates
        change s.seen.length + (s.submitter.due + s.work.pending + s.handler.due) ≤ s.updates at hcalls
        rw [hentered] at hcalls
        change s.seen.length + (s.submitter.due + s.work.pending + 1) ≤ s.updates at hcalls
        rw [hseen, List.length_append, List.length_singleton]
        omega
      · rw [hentered] at hrunning
        exact ⟨fun _ hne => (nomatch hne), fun _ => hrunning.mpr fun hne => (nomatch hne)⟩
  | @finish _ a hholds =>
      have hseen : (s.handled ++ [a]) ++ [] = s.seen := by
        unfold Shared.seen
        rw [hholds]
        exact List.append_nil _
      refine ⟨hdata, ?_, ?_, ?_, ?_, ?_, ?_⟩
      · show P.Follows s.updates ((s.handled ++ [a]) ++ [])
        rw [hseen]
        exact hfollows
      · intro hdue
        show s.updates = 0 ∨ ((s.handled ++ [a]) ++ []).getLast? = some s.data
        rw [hseen]
        apply hfresh
        show s.submitter.due + s.work.pending + s.handler.due = 0
        rw [hholds]
        exact hdue
      · show ((s.handled ++ [a]) ++ []).length + (s.submitter.due + s.work.pending + 0) ≤ s.updates
        change s.seen.length + (s.submitter.due + s.work.pending + s.handler.due) ≤ s.updates at hcalls
        rw [hholds] at hcalls
        rw [hseen]
        exact hcalls
      · exact ⟨fun h => Bool.noConfusion h, fun h => absurd rfl h⟩
      · show (s.printed ++ [P.line a]).Perm
          ((List.replicate s.updates P.announce).flatten ++ (s.handled ++ [a]).map P.line)
        rw [List.map_append, ← List.append_assoc]
        exact hprinted.append_right _
      · show ((s.handled ++ [a]).map P.line).Sublist (s.printed ++ [P.line a])
        rw [List.map_append]
        exact horder.append (List.Sublist.refl _)

/-- Where the thread prints nothing that the handler could have printed, the handler's lines are those of the
data handled. -/
theorem Sound.lines (h : Sound P s) (hne : ∀ a, P.line a ∉ P.announce) :
    s.printed.filter (· ∉ P.announce) = s.handled.map P.line := by
  have hlines : (s.handled.map P.line).filter (· ∉ P.announce) = s.handled.map P.line := by
    rw [List.filter_eq_self]
    intro line hline
    obtain ⟨a, -, rfl⟩ := List.mem_map.mp hline
    exact decide_eq_true (hne a)
  have hannounced : (List.replicate s.updates P.announce).flatten.filter (· ∉ P.announce) = [] := by
    rw [List.filter_eq_nil_iff]
    intro line hline
    obtain ⟨l, hl, hline⟩ := List.mem_flatten.mp hline
    rw [List.eq_of_mem_replicate hl] at hline
    simpa using hline
  have hsub := h.inOrder.filter (· ∉ P.announce)
  have hlength := (h.printed.filter (· ∉ P.announce)).length_eq
  rw [List.filter_append, hannounced, List.nil_append, hlines] at hlength
  rw [hlines] at hsub
  exact (hsub.eq_of_length hlength.symm).symm

/-- **What every run keeps**, whoever moves when. -/
theorem sound_of_reachable (h : P.system.Reachable s) : Sound P s := by
  apply h.invariant
  · rintro s rfl
    exact Sound.start
  · intro s t m _ hsound hstep
    exact hsound.next hstep

/-! ## When the thread pauses -/

/-- The system from when the thread changes nothing more. -/
def paused (P : Sharing σ) : System (Shared σ) Move := P.system.restrict fun m _ => m ≠ .update

/-- The moves that are left, at most. -/
def rank (s : Shared σ) : Nat :=
  6 * s.submitter.due + s.work.weight + 2 * s.handler.due + s.handler.inHand.length

/-- Each move but a change leads from a submission on to the end of the handler's call. -/
theorem rank_lt {m : Move} (hstep : P.Step m s t) (hm : m ≠ .update) : rank t < rank s := by
  cases hstep with
  | update => exact absurd rfl hm
  | send hupdated =>
      have hweight := P.submission.weight_apply s.work
      unfold rank
      rw [hupdated]
      show 6 * 0 + (P.submission.apply s.work).weight + 2 * s.handler.due + s.handler.inHand.length <
        6 * 1 + s.work.weight + 2 * s.handler.due + s.handler.inHand.length
      omega
  | expire hdelayed =>
      have hweight : s.work.expire.weight < s.work.weight := by
        unfold Work.weight
        rw [hdelayed]
        show 5 * 0 + 4 * 1 < 5 * 1 + 4 * s.work.queued.toNat
        omega
      show 6 * s.submitter.due + s.work.expire.weight + 2 * s.handler.due + s.handler.inHand.length <
        6 * s.submitter.due + s.work.weight + 2 * s.handler.due + s.handler.inHand.length
      omega
  | dequeue hqueued hidle =>
      have hweight : s.work.dequeue.weight + 4 = s.work.weight := by
        unfold Work.weight
        rw [hqueued]
        rfl
      unfold rank
      rw [hidle]
      show 6 * s.submitter.due + s.work.dequeue.weight + 2 * 1 + 0 <
        6 * s.submitter.due + s.work.weight + 2 * 0 + 0
      omega
  | read hentered =>
      unfold rank
      rw [hentered]
      show 6 * s.submitter.due + s.work.weight + 2 * 0 + 1 < 6 * s.submitter.due + s.work.weight + 2 * 1 + 0
      omega
  | finish hholds =>
      unfold rank
      rw [hholds]
      show 6 * s.submitter.due + s.work.weight + 2 * 0 + 0 < 6 * s.submitter.due + s.work.weight + 2 * 0 + 1
      omega

/-- Until everything is settled somebody else than the thread can move. -/
theorem settled_or_moves (P : Sharing σ) (s : Shared σ) : s.Settled ∨ ∃ m t, P.paused.step m s t := by
  rcases hhandler : s.handler with _ | _ | a
  · rcases hsubmitter : s.submitter with _ | _
    · rcases hdelayed : s.work.delayed with _ | _
      · rcases hqueued : s.work.queued with _ | _
        · refine Or.inl ⟨?_, hhandler⟩
          unfold Shared.due Work.pending
          rw [hhandler, hsubmitter, hdelayed, hqueued]
          rfl
        · exact Or.inr ⟨.dequeue, _, nofun, .dequeue hqueued hhandler⟩
      · exact Or.inr ⟨.expire, _, nofun, .expire hdelayed⟩
    · exact Or.inr ⟨.send, _, nofun, .send hsubmitter⟩
  · exact Or.inr ⟨.read, _, nofun, .read hhandler⟩
  · exact Or.inr ⟨.finish, _, nofun, .finish hhandler⟩

/-- Only the thread changes the data. -/
theorem data_of_paused {m : Move} (hstep : P.paused.step m s t) : t.data = s.data ∧ t.updates = s.updates := by
  obtain ⟨hm, hstep⟩ := hstep
  cases hstep with
  | update => exact absurd rfl hm
  | send | expire | dequeue | read | finish => exact ⟨rfl, rfl⟩

/-- **The handler catches up.** Once the thread pauses, everything is settled before long, with the last change
handled last. -/
theorem catchesUp (h : P.system.Reachable s) :
    P.paused.Inevitable (fun t => t.Settled ∧ t.data = s.data ∧
      (s.updates = 0 ∨ t.handled.getLast? = some s.data)) s := by
  refine System.Inevitable.of_rank (n := rank s)
    (fun n t => P.system.Reachable t ∧ (t.data = s.data ∧ t.updates = s.updates) ∧ rank t = n) ?_
    ⟨h, ⟨rfl, rfl⟩, rfl⟩
  rintro n t ⟨ht, ⟨hdata, hupdates⟩, rfl⟩
  rcases settled_or_moves P t with hsettled | hmoves
  · refine Or.inl ⟨hsettled, hdata, ?_⟩
    have hseen : t.seen = t.handled := by
      unfold Shared.seen
      rw [hsettled.2]
      exact List.append_nil _
    rw [← hseen, ← hdata, ← hupdates]
    exact (sound_of_reachable ht).fresh hsettled.1
  · refine Or.inr ⟨hmoves, fun m t' hstep => ?_⟩
    obtain ⟨hdata', hupdates'⟩ := data_of_paused hstep
    exact ⟨rank t', rank_lt hstep.2 hstep.1, ht.step hstep.2,
      ⟨hdata'.trans hdata, hupdates'.trans hupdates⟩, rfl⟩

/-! ## A thread that waits for its turn -/

/-- The system where the thread changes the data only when everything is settled. -/
def prompt (P : Sharing σ) : System (Shared σ) Move := P.system.restrict fun m s => m = .update → s.Settled

/-- The change that is under way. -/
def underWay (s : Shared σ) : Nat := s.due + s.handler.inHand.length

/-- All that is printed about a change. -/
def entry (P : Sharing σ) (a : σ) : List String := P.announce ++ [P.line a]

/-- Every change but the one that is under way has been handled, once and in order. -/
structure Paced (P : Sharing σ) (s : Shared σ) : Prop where
  one : underWay s ≤ 1
  counts : s.handled.length + underWay s = s.updates
  inHand : ∀ a, s.handler = .holds a → a = P.version s.updates
  handled : s.handled = (List.range' 1 s.handled.length).map P.version
  printed : s.printed = s.handled.flatMap P.entry ++ if underWay s = 0 then [] else P.announce

/-- A move that prints nothing and leaves what is under way. -/
theorem Paced.of_eq (h : Paced P s) (hunderWay : underWay t = underWay s) (hhandled : t.handled = s.handled)
    (hprinted : t.printed = s.printed) (hupdates : t.updates = s.updates)
    (hinHand : ∀ a, t.handler = .holds a → a = P.version s.updates) : Paced P t := by
  obtain ⟨hone, hcounts, -, hversions, htext⟩ := h
  refine ⟨?_, ?_, ?_, ?_, ?_⟩
  · rw [hunderWay]
    exact hone
  · rw [hhandled, hunderWay, hupdates]
    exact hcounts
  · rw [hupdates]
    exact hinHand
  · rw [hhandled]
    exact hversions
  · rw [hprinted, hhandled, hunderWay]
    exact htext

/-- **One move of a prompt thread.** The change under way wanders from the thread to the item, to the handler, and
to what has been handled. -/
theorem Paced.next {m : Move} (h : Paced P s) (hsound : Sound P s) (hstep : P.prompt.step m s t) :
    Paced P t := by
  obtain ⟨hsettled, hstep⟩ := hstep
  cases hstep with
  | update hready =>
      -- nothing was under way, so the change is the only one
      obtain ⟨hdue, hidle⟩ := hsettled rfl
      obtain ⟨-, hcounts, -, hversions, htext⟩ := h
      have hzero : underWay s = 0 := by
        unfold underWay
        rw [hdue, hidle]
        rfl
      have hnone : s.work.pending + s.handler.due = 0 := by
        unfold Shared.due at hdue
        omega
      have hnext : 1 + s.work.pending + s.handler.due + s.handler.inHand.length = 1 := by
        rw [hidle] at hnone ⊢
        change s.work.pending + 0 = 0 at hnone
        show 1 + s.work.pending + 0 + 0 = 1
        omega
      rw [hzero] at hcounts htext
      refine ⟨Nat.le_of_eq hnext, ?_, ?_, hversions, ?_⟩
      · show s.handled.length + (1 + s.work.pending + s.handler.due + s.handler.inHand.length) = s.updates + 1
        omega
      · intro a ha
        change s.handler = .holds a at ha
        rw [hidle] at ha
        cases ha
      · show s.printed ++ P.announce = s.handled.flatMap P.entry ++
          if 1 + s.work.pending + s.handler.due + s.handler.inHand.length = 0 then [] else P.announce
        rw [hnext, htext, if_pos rfl, List.append_nil, if_neg Nat.one_ne_zero]
  | send hupdated =>
      have hpending := P.submission.pending_apply s.work
      have hone := h.one
      have hdue : underWay s = 1 + s.work.pending + s.handler.due + s.handler.inHand.length := by
        unfold underWay Shared.due
        rw [hupdated]
        rfl
      refine h.of_eq ?_ rfl rfl rfl h.inHand
      show 0 + (P.submission.apply s.work).pending + s.handler.due + s.handler.inHand.length = underWay s
      omega
  | expire hdelayed =>
      have hone := h.one
      have hpending : s.work.pending = 1 + s.work.queued.toNat := by
        unfold Work.pending
        rw [hdelayed]
        rfl
      have hdue : underWay s = s.submitter.due + s.work.pending + s.handler.due + s.handler.inHand.length := rfl
      refine h.of_eq ?_ rfl rfl rfl h.inHand
      show s.submitter.due + 1 + s.handler.due + s.handler.inHand.length = underWay s
      omega
  | dequeue hqueued hidle =>
      have hpending : s.work.pending = s.work.dequeue.pending + 1 := by
        unfold Work.pending
        rw [hqueued]
        rfl
      have hdue : underWay s = s.submitter.due + s.work.pending + 0 + 0 := by
        unfold underWay Shared.due
        rw [hidle]
        rfl
      refine h.of_eq ?_ rfl rfl rfl fun a ha => nomatch ha
      show s.submitter.due + s.work.dequeue.pending + 1 + 0 = underWay s
      omega
  | read hentered =>
      refine h.of_eq ?_ rfl rfl rfl fun a ha => ?_
      · unfold underWay Shared.due
        rw [hentered]
        rfl
      · cases ha
        exact hsound.data
  | @finish _ a hholds =>
      obtain ⟨hone, hcounts, hinHand, hversions, htext⟩ := h
      have hdue : underWay s = s.submitter.due + s.work.pending + 0 + 1 := by
        unfold underWay Shared.due
        rw [hholds]
        rfl
      have hnext : s.submitter.due + s.work.finish.pending + 0 + 0 = 0 := by
        show s.submitter.due + s.work.pending + 0 + 0 = 0
        omega
      have hlength : (s.handled ++ [a]).length = s.handled.length + 1 := List.length_append
      have hlast : 1 + s.handled.length = s.updates := by omega
      refine ⟨?_, ?_, fun b hb => (nomatch hb), ?_, ?_⟩
      · show s.submitter.due + s.work.finish.pending + 0 + 0 ≤ 1
        omega
      · show (s.handled ++ [a]).length + (s.submitter.due + s.work.finish.pending + 0 + 0) = s.updates
        omega
      · show s.handled ++ [a] = (List.range' 1 (s.handled ++ [a]).length).map P.version
        rw [hlength, List.range'_1_concat, List.map_append, ← hversions, hlast, hinHand a hholds]
        rfl
      · show s.printed ++ [P.line a] = (s.handled ++ [a]).flatMap P.entry ++
          if s.submitter.due + s.work.finish.pending + 0 + 0 = 0 then [] else P.announce
        rw [if_pos hnext, htext, if_neg (by omega), List.flatMap_append, List.append_nil, List.append_assoc,
          List.flatMap_singleton]
        rfl

/-- **A change, a reading.** -/
theorem paced_of_reachable (h : P.prompt.Reachable s) : Paced P s := by
  apply h.invariant
  · rintro s rfl
    exact ⟨Nat.zero_le 1, rfl, nofun, rfl, rfl⟩
  · intro s t m hs hpaced hstep
    exact hpaced.next (sound_of_reachable hs.of_restrict) hstep

end Sharing

end ZephyrSamples.Lib
