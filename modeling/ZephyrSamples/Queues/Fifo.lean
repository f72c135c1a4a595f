/-
# ZephyrSamples.Queues.Fifo -- five nodes, appended in turn

The FIFO sample and the queue sample append the nodes of their pool in turn, five in a round, while the
receiver takes out nodes as long as it finds any. Appending a node that is still linked ends the list at
that node: the nodes behind it, and the messages in them, are no longer reached.

`lossless_iff`: over every order of appends and gets, no node is appended while linked and every message
is received once and in order, if and only if no append finds five messages outstanding.
-/
import Mathlib.Data.List.Range
import ZephyrSamples.Queues.Pool

namespace ZephyrSamples.Queues.Fifo

open ZephyrSamples.Lib
open Pool (value isEmpty)

/-! ## The two tasks, one operation at a time -/

/-- The pool and its queue, the index of the sender's loop, and the values sent and received. -/
structure Tasks where
  pool : Pool
  i : Node
  sent : List UInt32
  received : List UInt32

namespace Tasks

def boot : Tasks := ⟨.boot, 0, [], []⟩

/-- A pass of the sender's loop: `k_fifo_put` and `k_queue_append` append. Behind the last node the next
round starts with the first. -/
def append (s : Tasks) : Tasks :=
  { s with
    pool := Pool.fill Slist.append s.pool s.i
    i := s.i + 1
    sent := s.sent ++ [value s.i] }

/-- A pass of the receiver's loop, or its end if the queue is empty. -/
def poll (s : Tasks) : Tasks :=
  if isEmpty s.pool then s
  else match s.pool.list.get with
    | (none, _) => s
    | (some x, list) =>
        { s with
          pool := { s.pool with list := list }
          received := s.received ++ [s.pool.data x] }

end Tasks

inductive Op where
  | append
  | poll
  deriving DecidableEq, Repr

def Op.apply (s : Tasks) : Op → Tasks
  | .append => s.append
  | .poll => s.poll

/-! ## What a queue owes -/

/-- What was received and what the queue still holds is what was sent, in order. -/
def Balanced (s : Tasks) : Prop :=
  ∃ l, s.pool.list.Represents l ∧ s.received ++ l.map s.pool.data = s.sent

/-- At every point of the run the account is balanced, and no node is appended while it is linked. -/
def Lossless : Tasks → List Op → Prop
  | s, [] => Balanced s
  | s, .append :: ops => Balanced s ∧ ¬ s.pool.list.Linked s.i ∧ Lossless s.append ops
  | s, .poll :: ops => Balanced s ∧ Lossless s.poll ops

/-- With `n` messages outstanding, no append of the run finds as many outstanding as there are nodes. -/
def Paced : Nat → List Op → Prop
  | _, [] => True
  | n, .append :: ops => n < 5 ∧ Paced (n + 1) ops
  | n, .poll :: ops => Paced (n - 1) ops

/-! ## The invariant -/

/-- The node of the `k`th append. -/
def node (k : Nat) : Node := Fin.ofNat 5 k

/-- The nodes of the appends from `j` on. -/
def window (j n : Nat) : List Node := (List.range' j n).map node

theorem window_succ (j n : Nat) : window j (n + 1) = node j :: window (j + 1) n := rfl

theorem window_concat (j n : Nat) : window j (n + 1) = window j n ++ [node (j + n)] := by
  unfold window
  rw [List.range'_1_concat, List.map_append]
  rfl

/-- The turn comes round after five appends. -/
theorem node_mem_window_iff {j n : Nat} (hn : n ≤ 5) : node (j + n) ∈ window j n ↔ n = 5 := by
  have hnode : ∀ a b, node a = node b ↔ a % 5 = b % 5 := by
    intro a b
    unfold node
    rw [Fin.ext_iff]
    rfl
  unfold window
  rw [List.mem_map]
  constructor
  · rintro ⟨k, hk, heq⟩
    rw [hnode] at heq
    have hbounds := List.mem_range'_1.mp hk
    omega
  · rintro rfl
    refine ⟨j, List.mem_range'_1.mpr (by omega), ?_⟩
    rw [hnode]
    omega

/-- `j` messages were taken out, the next `n` are queued, each in its node. -/
structure Queued (s : Tasks) (j n : Nat) : Prop where
  turn : s.i = node (j + n)
  nodes : s.pool.list.Represents (window j n)
  data : ∀ x ∈ window j n, s.pool.data x = value x
  sent : s.received ++ (window j n).map value = s.sent

theorem Queued.boot : Queued .boot 0 0 := ⟨rfl, .empty _, fun _ h => absurd h List.not_mem_nil, rfl⟩

theorem Queued.balanced {s : Tasks} {j n : Nat} (h : Queued s j n) : Balanced s := by
  refine ⟨window j n, h.nodes, ?_⟩
  rw [List.map_congr_left h.data]
  exact h.sent

/-- Appending a node that was taken out, or was never used. -/
theorem Queued.append {s : Tasks} {j n : Nat} (h : Queued s j n) (hn : n < 5) :
    Queued s.append j (n + 1) := by
  have hfree : s.i ∉ window j n := by
    rw [h.turn, node_mem_window_iff (Nat.le_of_lt hn)]
    omega
  have hwindow : window j (n + 1) = window j n ++ [s.i] := by
    rw [window_concat, h.turn]
  refine ⟨?_, ?_, ?_, ?_⟩
  · show s.i + 1 = node (j + (n + 1))
    rw [h.turn]
    apply Fin.ext
    show ((j + n) % 5 + 1 % 5) % 5 = (j + (n + 1)) % 5
    omega
  · rw [hwindow]
    exact h.nodes.append hfree
  · rw [hwindow]
    intro x hx
    show Function.update s.pool.data s.i (value s.i) x = value x
    by_cases hxi : x = s.i
    · rw [hxi, Function.update_self]
    · rw [Function.update_of_ne hxi]
      rcases List.mem_append.mp hx with hold | hnew
      · exact h.data x hold
      · exact absurd (List.mem_singleton.mp hnew) hxi
  · rw [hwindow, List.map_append, ← List.append_assoc]
    exact congrArg (· ++ [value s.i]) h.sent

/-- Taking out the oldest message. -/
theorem Queued.poll {s : Tasks} {j n : Nat} (h : Queued s j (n + 1)) :
    Queued s.poll (j + 1) n := by
  have hwindow := window_succ j n
  obtain ⟨hget, hrest⟩ := (hwindow ▸ h.nodes).get
  have hhead : isEmpty s.pool = false := by
    have hpath := (hwindow ▸ h.nodes).path
    simp [isEmpty, hpath.1]
  have hpoll : s.poll = { s with
      pool := { s.pool with list := s.pool.list.get.2 }
      received := s.received ++ [s.pool.data (node j)] } := by
    unfold Tasks.poll
    rw [hhead]
    rcases hpair : s.pool.list.get with ⟨y, list⟩
    rw [hpair] at hget
    obtain rfl : y = some (node j) := hget
    rfl
  rw [hpoll]
  refine ⟨?_, hrest, ?_, ?_⟩
  · show s.i = node (j + 1 + n)
    rw [h.turn]
    congr 1
    omega
  · intro x hx
    exact h.data x (hwindow ▸ List.mem_cons_of_mem _ hx)
  · show s.received ++ [s.pool.data (node j)] ++ _ = s.sent
    rw [h.data (node j) (hwindow ▸ List.mem_cons_self), ← h.sent, hwindow, List.append_assoc]
    rfl

theorem Queued.poll_empty {s : Tasks} {j : Nat} (h : Queued s j 0) : s.poll = s := by
  have hhead : s.pool.list.head = none := h.nodes.path
  unfold Tasks.poll
  rw [isEmpty, hhead]
  rfl

theorem lossless_iff_of_queued {s : Tasks} {j n : Nat} (h : Queued s j n) (hn : n ≤ 5)
    (ops : List Op) : Lossless s ops ↔ Paced n ops := by
  induction ops generalizing s j n with
  | nil => exact iff_of_true h.balanced trivial
  | cons op ops ih =>
      rcases op with _ | _
      · show Balanced s ∧ ¬ s.pool.list.Linked s.i ∧ Lossless s.append ops ↔ n < 5 ∧ _
        have hlinked : ¬ s.pool.list.Linked s.i ↔ n < 5 := by
          rw [h.nodes.linked_iff, h.turn, node_mem_window_iff hn]
          omega
        rw [and_iff_right h.balanced, hlinked]
        exact and_congr_right fun hlt => ih (h.append hlt) hlt
      · show Balanced s ∧ Lossless s.poll ops ↔ Paced (n - 1) ops
        rw [and_iff_right h.balanced]
        rcases n with _ | n
        · rw [h.poll_empty]
          exact ih h hn
        · exact ih h.poll (Nat.le_of_succ_le hn)

/-- **The FIFO.** From the start and over every order of appends and gets: every message is received
once and in the order of appending, and no node is appended while it is linked, if and only if every
append finds fewer than five messages outstanding. -/
theorem lossless_iff (ops : List Op) : Lossless .boot ops ↔ Paced 0 ops :=
  lossless_iff_of_queued .boot (Nat.zero_le 5) ops

/-- A round and one append more, with nothing received. -/
def sixAppends : List Op := List.replicate 6 .append

/-- Node 0 is appended while it heads the list, and the list ends there: of the six messages one is
received. -/
theorem sixAppends_lose : ¬ Lossless .boot sixAppends ∧
    ((sixAppends ++ List.replicate 6 Op.poll).foldl Op.apply .boot).received = [0] := by
  refine ⟨?_, rfl⟩
  rw [lossless_iff_of_queued .boot (Nat.zero_le 5)]
  simp [sixAppends, List.replicate, Paced]

end ZephyrSamples.Queues.Fifo
