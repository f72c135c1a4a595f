/-
# ZephyrSamples.Queues.FillDrain -- testing the level, then acting on it

`task_sender` puts counting values into a message queue while it reports free entries, and
`task_receiver` takes values out while it reports used ones. Test and action are separate calls, the
results of the actions are not checked, and the two tasks take no lock. It is sound all the same: only
the sender makes entries scarce and only the receiver makes them plenty, so what either of them has
seen stays true until it acts (`InBounds`).

`fillDrain_gapFree`: on every interleaving of single calls no put and no get fails, and the receiver
prints 1, 2, 3 and so on.
-/
import ZephyrSamples.Lib.Msgq
import ZephyrSamples.Lib.Pieces
import ZephyrSamples.Lib.Transition

namespace ZephyrSamples.Queues.FillDrain

open ZephyrSamples.Lib
open ZephyrSamples.Lib.Pieces

/-! ## The two tasks -/

/-- Where `task_sender` stands: before `k_msgq_num_free_get`, before `k_msgq_put`, before `k_msleep`. -/
inductive SenderPc where
  | test
  | put
  | sleep
  deriving DecidableEq, Repr

/-- Where `task_receiver` stands: before `k_msleep`, before `k_msgq_num_used_get`, before `k_msgq_get`,
before `printk`. -/
inductive ReceiverPc where
  | sleep
  | test
  | get
  | print
  deriving DecidableEq, Repr

/-- `my_msgq`, the place and the local `data` of each task, and a history: whether each put and each get
succeeded, and what was printed. -/
structure Tasks where
  queue : Msgq UInt32 10
  sender : SenderPc
  sendData : UInt32
  receiver : ReceiverPc
  recvData : UInt32
  puts : List Bool
  gets : List Bool
  printed : List UInt32

namespace Tasks

/-- Both tasks at their start; `data` of the receiver is whatever its stack held. -/
def start (garbage : UInt32) : Tasks := ⟨.empty, .test, 0, .sleep, garbage, [], [], []⟩

/-- `k_msgq_put(&my_msgq, &data, K_NO_WAIT)` -/
def kMsgqPut (s : Tasks) : Tasks :=
  match s.queue.put s.sendData with
  | some queue => { s with queue := queue, puts := s.puts ++ [true] }
  | none => { s with puts := s.puts ++ [false] }

/-- `k_msgq_get(&my_msgq, &data, K_NO_WAIT)`. When it fails `data` stays as it was. -/
def kMsgqGet (s : Tasks) : Tasks :=
  match s.queue.get with
  | some (a, queue) => { s with queue := queue, recvData := a, gets := s.gets ++ [true] }
  | none => { s with gets := s.gets ++ [false] }

/-- The next call of `task_sender`. -/
def sendStep (s : Tasks) : Tasks :=
  match s.sender with
  | .test => { s with sender := if s.queue.numFree > 0 then .put else .sleep }
  | .put => { kMsgqPut { s with sendData := s.sendData + 1 } with sender := .test }
  | .sleep => { s with sender := .test }

/-- The next call of `task_receiver`. -/
def recvStep (s : Tasks) : Tasks :=
  match s.receiver with
  | .sleep => { s with receiver := .test }
  | .test => { s with receiver := if s.queue.numUsed ≠ 0 then .get else .sleep }
  | .get => { kMsgqGet s with receiver := .print }
  | .print => { s with printed := s.printed ++ [s.recvData], receiver := .test }

end Tasks

inductive Task where
  | sender
  | receiver
  deriving DecidableEq, Repr

def Task.run (s : Tasks) : Task → Tasks
  | .sender => s.sendStep
  | .receiver => s.recvStep

/-- The two tasks in any order, one call at a time. -/
def fillDrain : System Tasks Task where
  init s := ∃ garbage, s = .start garbage
  step task s t := task.run s = t

/-- The values the sender owes, modulo 2^32. -/
def counted (i : Nat) : UInt32 := UInt32.ofNat (i + 1)

/-- No put and no get failed, and what was printed is 1, 2, 3 and so on. -/
structure GapFree (s : Tasks) : Prop where
  puts : ∀ ok ∈ s.puts, ok = true
  gets : ∀ ok ∈ s.gets, ok = true
  printed : s.printed = numbered counted s.printed.length

/-! ## The invariant -/

/-- The value taken out and not printed yet. -/
def Tasks.inHand (s : Tasks) : List UInt32 :=
  match s.receiver with
  | .print => [s.recvData]
  | _ => []

/-- What each task found when it tested the queue. -/
structure InBounds (s : Tasks) : Prop where
  room : s.sender = .put → 0 < s.queue.numFree
  filled : s.receiver = .get → s.queue.numUsed ≠ 0

/-- The tests still hold, and after `n` puts the values printed, in hand and in the queue are the
first `n`. -/
structure TasksInv (s : Tasks) (n : Nat) : Prop where
  bounds : InBounds s
  counter : s.sendData = UInt32.ofNat n
  account : s.printed ++ s.inHand ++ s.queue.items = numbered counted n
  puts : ∀ ok ∈ s.puts, ok = true
  gets : ∀ ok ∈ s.gets, ok = true

namespace TasksInv

variable {s : Tasks} {n : Nat}

theorem start (garbage : UInt32) : TasksInv (.start garbage) 0 where
  bounds := ⟨by simp [Tasks.start], by simp [Tasks.start]⟩
  counter := rfl
  account := rfl
  puts _ hok := absurd hok List.not_mem_nil
  gets _ hok := absurd hok List.not_mem_nil

/-- A put by the sender finds the room it has seen, and leaves the receiver what that has seen. -/
theorem put (h : TasksInv s n) (hpc : s.sender = .put) : TasksInv s.sendStep (n + 1) := by
  obtain ⟨queue, hput⟩ := Msgq.exists_put (h.bounds.room hpc) (s.sendData + 1)
  have hitems := Msgq.put_eq_some hput
  have hvalue : s.sendData + 1 = counted n := by
    rw [h.counter, counted, UInt32.ofNat_add]
    rfl
  have hstep : s.sendStep = { s with
      queue := queue
      sender := .test
      sendData := s.sendData + 1
      puts := s.puts ++ [true] } := by
    simp only [Tasks.sendStep, hpc, Tasks.kMsgqPut, hput]
  rw [hstep]
  refine ⟨⟨by simp, fun hget => ?_⟩, hvalue, ?_, ?_, h.gets⟩
  · -- the put has only added to what the receiver saw
    show queue.items.length ≠ 0
    rw [hitems, List.length_append]
    exact Nat.succ_ne_zero _
  · show s.printed ++ s.inHand ++ queue.items = _
    rw [hitems, ← List.append_assoc, h.account, numbered_succ, hvalue]
  · exact List.forall_mem_append.mpr ⟨h.puts, List.forall_mem_singleton.mpr rfl⟩

/-- A get by the receiver finds the value it has seen, and leaves the sender the room that has seen. -/
theorem get (h : TasksInv s n) (hpc : s.receiver = .get) : TasksInv s.recvStep n := by
  obtain ⟨a, queue, hget⟩ := Msgq.exists_get (h.bounds.filled hpc)
  have hitems := Msgq.get_eq_some hget
  have hhand : s.inHand = [] := by
    unfold Tasks.inHand
    rw [hpc]
  have hstep : s.recvStep = { s with
      queue := queue
      receiver := .print
      recvData := a
      gets := s.gets ++ [true] } := by
    simp only [Tasks.recvStep, hpc, Tasks.kMsgqGet, hget]
  rw [hstep]
  refine ⟨⟨fun hput => ?_, by simp⟩, h.counter, ?_, h.puts, ?_⟩
  · -- the get has only added to the room the sender saw
    have hroom := h.bounds.room hput
    unfold Msgq.numFree at hroom ⊢
    rw [hitems, List.length_cons] at hroom
    show 0 < 10 - queue.items.length
    omega
  · show s.printed ++ [a] ++ queue.items = _
    rw [← h.account, hhand, hitems, List.append_nil, List.append_assoc]
    rfl
  · exact List.forall_mem_append.mpr ⟨h.gets, List.forall_mem_singleton.mpr rfl⟩

theorem sendStep (h : TasksInv s n) : ∃ n', TasksInv s.sendStep n' := by
  rcases hpc : s.sender with _ | _ | _
  · refine ⟨n, ?_⟩
    simp only [Tasks.sendStep, hpc]
    refine ⟨⟨fun hput => ?_, h.bounds.filled⟩, h.counter, h.account, h.puts, h.gets⟩
    show 0 < s.queue.numFree
    -- with no room the sender goes to sleep
    by_contra hfull
    simp [hfull] at hput
  · exact ⟨n + 1, h.put hpc⟩
  · refine ⟨n, ?_⟩
    simp only [Tasks.sendStep, hpc]
    exact ⟨⟨by simp, h.bounds.filled⟩, h.counter, h.account, h.puts, h.gets⟩

/-- A step of the receiver that moves no value. -/
theorem of_account (h : TasksInv s n) {s' : Tasks} (hqueue : s'.queue = s.queue)
    (hsender : s'.sender = s.sender ∧ s'.sendData = s.sendData)
    (hhistory : s'.puts = s.puts ∧ s'.gets = s.gets)
    (hfilled : s'.receiver = .get → s.queue.numUsed ≠ 0)
    (haccount : s'.printed ++ s'.inHand = s.printed ++ s.inHand) : TasksInv s' n where
  bounds := ⟨fun hput => hqueue ▸ h.bounds.room (hsender.1 ▸ hput), fun hget => hqueue ▸ hfilled hget⟩
  counter := hsender.2.trans h.counter
  account := by
    rw [haccount, hqueue]
    exact h.account
  puts := hhistory.1 ▸ h.puts
  gets := hhistory.2 ▸ h.gets

theorem recvStep (h : TasksInv s n) : TasksInv s.recvStep n := by
  rcases hpc : s.receiver with _ | _ | _ | _
  · simp only [Tasks.recvStep, hpc]
    refine h.of_account rfl ⟨rfl, rfl⟩ ⟨rfl, rfl⟩ (by simp) ?_
    simp [Tasks.inHand, hpc]
  · simp only [Tasks.recvStep, hpc]
    by_cases hused : s.queue.numUsed ≠ 0
    · refine h.of_account rfl ⟨rfl, rfl⟩ ⟨rfl, rfl⟩ (fun _ => hused) ?_
      simp [Tasks.inHand, hpc, hused]
    · refine h.of_account rfl ⟨rfl, rfl⟩ ⟨rfl, rfl⟩ (by simp [hused]) ?_
      simp [Tasks.inHand, hpc, hused]
  · exact h.get hpc
  · simp only [Tasks.recvStep, hpc]
    refine h.of_account rfl ⟨rfl, rfl⟩ ⟨rfl, rfl⟩ (by simp) ?_
    simp [Tasks.inHand, hpc]

end TasksInv

theorem tasksInv_of_reachable {s : Tasks} (h : fillDrain.Reachable s) : ∃ n, TasksInv s n := by
  refine h.invariant (I := fun s => ∃ n, TasksInv s n) ?_ ?_
  · rintro s ⟨garbage, rfl⟩
    exact ⟨0, .start garbage⟩
  · rintro s t task - ⟨n, hinv⟩ rfl
    rcases task with _ | _
    · exact hinv.sendStep
    · exact ⟨n, hinv.recvStep⟩

/-- **No gap.** In every state of every interleaving: every put and every get succeeded, and the values
printed are 1, 2, 3 and so on, modulo 2^32. -/
theorem fillDrain_gapFree {s : Tasks} (h : fillDrain.Reachable s) : GapFree s := by
  obtain ⟨n, hinv⟩ := tasksInv_of_reachable h
  refine ⟨hinv.puts, hinv.gets, ?_⟩
  apply eq_numbered_of_prefix (n := n)
  rw [← hinv.account, List.append_assoc]
  exact List.prefix_append _ _

/-- The sender puts twice while the receiver prints the first value. -/
def twoPuts : Tasks := [.sender, .sender, .receiver, .receiver, .receiver, .sender, .receiver,
  .sender].foldl Task.run (.start 77)

theorem run_reachable {s : Tasks} (h : fillDrain.Reachable s) (tasks : List Task) :
    fillDrain.Reachable (tasks.foldl Task.run s) := by
  induction tasks generalizing s with
  | nil => exact h
  | cons task tasks ih => exact ih (.step h rfl)

theorem twoPuts_gapFree : twoPuts.printed = [1] ∧ GapFree twoPuts :=
  ⟨by decide, fillDrain_gapFree (run_reachable (.init ⟨77, rfl⟩) _)⟩

end ZephyrSamples.Queues.FillDrain
