/-
# ZephyrSamples.Queues.Pool -- what the queue samples share

Each of the queue samples has a pool of five nodes on the stack of `task_sender`, a kernel queue that
links them, and a receiver that takes out nodes while the queue is not empty. They differ in how a node
is linked: `k_lifo_put` prepends it, `k_fifo_put` and `k_queue_append` append it.
-/
import Mathlib.Data.Fin.Basic
import ZephyrSamples.Lib.Slist

namespace ZephyrSamples.Queues

open ZephyrSamples.Lib

/-- The nodes of `mem_pool`. -/
abbrev Node := Fin 5

/-- The queue with the `snode` fields of the pool, and its `data` fields. -/
structure Pool where
  list : Slist Node
  data : Node → UInt32

namespace Pool

/-- The queue at its definition, and `mem_pool[5] = {0}`. -/
def boot : Pool := ⟨.empty fun _ => none, fun _ => 0⟩

/-- The value the sender writes to a node. -/
def value (i : Node) : UInt32 := UInt32.ofNat (i.val * 10)

/-- The body of the sender's loop, when `link` is what the queue does with a node. -/
def fill (link : Slist Node → Node → Slist Node) (s : Pool) (i : Node) : Pool :=
  { list := link s.list i, data := Function.update s.data i (value i) }

/-- `k_queue_is_empty` -/
def isEmpty (s : Pool) : Bool := s.list.head.isNone

/-- The loop of `task_receiver`, with at most `n` passes: the values received, and what it leaves. The
`get` of a pass finds a node, since the queue was not empty. -/
def drain : Nat → Pool → Option (List UInt32 × Pool)
  | 0, s => if isEmpty s then some ([], s) else none
  | n + 1, s =>
      if isEmpty s then some ([], s)
      else match s.list.get with
        | (none, _) => none
        | (some x, list) => (drain n { s with list := list }).map fun r => (s.data x :: r.1, r.2)

/-- Filled nodes hold their values, whatever became of the list. -/
theorem data_foldl_fill (link : Slist Node → Node → Slist Node) {s : Pool} {ks : List Node}
    {i : Node} (h : i ∈ ks ∨ s.data i = value i) : (ks.foldl (fill link) s).data i = value i := by
  induction ks generalizing s with
  | nil =>
      rcases h with hmem | hdata
      · exact absurd hmem List.not_mem_nil
      · exact hdata
  | cons k ks ih =>
      apply ih
      by_cases hik : i = k
      · subst hik
        apply Or.inr
        show Function.update s.data i (value i) i = value i
        rw [Function.update_self]
      · refine h.imp (fun hmem => (List.mem_cons.mp hmem).resolve_left hik) fun hdata => ?_
        show Function.update s.data k (value k) i = value i
        rw [Function.update_of_ne hik]
        exact hdata

/-- The receiver's loop is the loop on the list, read through the data. -/
theorem drain_eq (n : Nat) (s : Pool) :
    drain n s = (s.list.takeAll n).map fun r => (r.1.map s.data, { s with list := r.2 }) := by
  induction n generalizing s with
  | zero =>
      rcases hhead : s.list.head with _ | x
      · rw [Slist.takeAll_nil hhead]
        simp [drain, isEmpty, hhead]
      · simp [drain, isEmpty, hhead, Slist.takeAll]
  | succ n ih =>
      rcases hhead : s.list.head with _ | x
      · rw [Slist.takeAll_nil hhead]
        simp [drain, isEmpty, hhead]
      · obtain ⟨hget, -, -⟩ := Slist.get_of_head hhead
        rw [Slist.takeAll_succ hget, drain]
        rcases hpair : s.list.get with ⟨y, list⟩
        rw [hpair] at hget
        obtain rfl : y = some x := hget
        have hne : isEmpty s = false := by simp [isEmpty, hhead]
        simp only [hne, Bool.false_eq_true, if_false, ih, Option.map_map]
        rfl

end Pool

end ZephyrSamples.Queues
