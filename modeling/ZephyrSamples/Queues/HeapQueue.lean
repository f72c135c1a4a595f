/-
# ZephyrSamples.Queues.HeapQueue -- queue nodes from a heap

`task_sender` allocates nodes until the heap is full, numbers them and appends them to a kernel queue;
`task_receiver` takes them out, prints their numbers and frees them. A node passes from the heap to the
sender, to the queue, to the receiver and back to the heap, and no lock says so: each of these places
is written by one task at a time. The list of all owners, the sender first, then the queue, then the
receiver, names every live node once (`TasksInv.owners`), and that carries everything else.

The heap answers with any node that is free, and does as it likes with the memory of a node that was
given back.
-/
import ZephyrSamples.Lib.Pieces
import ZephyrSamples.Lib.Slist
import ZephyrSamples.Lib.Transition

namespace ZephyrSamples.Queues.HeapQueue

open ZephyrSamples.Lib
open ZephyrSamples.Lib.Pieces

/-! ## The two tasks -/

/-- Where `task_sender` stands: before `k_heap_alloc`, before the assignment to `data`, before
`k_queue_append`, before `k_msleep`. -/
inductive SenderPc (N : Nat) where
  | alloc
  | fill (node : Fin N)
  | append (node : Fin N)
  | sleep
  deriving DecidableEq, Repr

/-- Where `task_receiver` stands: before `k_msleep`, before `k_queue_is_empty`, before `k_queue_get`,
before `printk` with what the latter returned, before `k_heap_free`. -/
inductive ReceiverPc (N : Nat) where
  | sleep
  | test
  | get
  | print (rxData : Option (Fin N))
  | free (node : Fin N)
  deriving DecidableEq, Repr

/-- The calls a node goes through. -/
inductive Call (N : Nat) where
  | alloc (node : Fin N)
  | append (node : Fin N)
  | get (node : Fin N)
  | free (node : Fin N)
  deriving DecidableEq, Repr

/-- `queue_heap` with room for `N` nodes, `my_queue` with the `snode` fields, the `data` fields, the two
tasks, and a history, the newest call first. -/
structure Tasks (N : Nat) where
  live : Fin N → Bool
  queue : Slist (Fin N)
  data : Fin N → UInt32
  sender : SenderPc N
  count : UInt32
  receiver : ReceiverPc N
  printed : List UInt32
  log : List (Call N)

variable {N : Nat}

namespace Tasks

/-- Nothing is allocated; the memory of the heap holds anything. -/
def start (next : Fin N → Option (Fin N)) (data : Fin N → UInt32) : Tasks N where
  live _ := false
  queue := .empty next
  data := data
  sender := .alloc
  count := 0
  receiver := .sleep
  printed := []
  log := []

/-! ### `task_sender` -/

/-- `k_heap_alloc` returns a node. -/
def alloc (s : Tasks N) (node : Fin N) : Tasks N :=
  { s with
    live := Function.update s.live node true
    sender := .fill node
    log := .alloc node :: s.log }

/-- `k_heap_alloc` returns `NULL`. -/
def allocFails (s : Tasks N) : Tasks N := { s with sender := .sleep }

/-- `ptr_node->data = count++` -/
def fill (s : Tasks N) (node : Fin N) : Tasks N :=
  { s with
    data := Function.update s.data node s.count
    count := s.count + 1
    sender := .append node }

/-- `k_queue_append(&my_queue, ptr_node)` -/
def append (s : Tasks N) (node : Fin N) : Tasks N :=
  { s with queue := s.queue.append node, sender := .alloc, log := .append node :: s.log }

/-- `k_msleep(1000)` of the sender. -/
def sendAgain (s : Tasks N) : Tasks N := { s with sender := .alloc }

/-! ### `task_receiver` -/

/-- `k_msleep(1000)` of the receiver. -/
def recvAgain (s : Tasks N) : Tasks N := { s with receiver := .test }

/-- `while (k_queue_is_empty(&my_queue) == 0)` -/
def test (s : Tasks N) : Tasks N :=
  { s with receiver := if s.queue.head.isNone then .sleep else .get }

/-- `rx_data = k_queue_get(&my_queue, K_NO_WAIT)` -/
def get (s : Tasks N) : Tasks N :=
  { s with
    queue := s.queue.get.2
    receiver := .print s.queue.get.1
    log := (s.queue.get.1.map Call.get).toList ++ s.log }

/-- `printk(..., rx_data->data)` -/
def print (s : Tasks N) (node : Fin N) : Tasks N :=
  { s with printed := s.printed ++ [s.data node], receiver := .free node }

/-- `k_heap_free(&queue_heap, rx_data)`; the heap leaves `word` and `link` in the node's memory. -/
def free (s : Tasks N) (node : Fin N) (word : UInt32) (link : Option (Fin N)) : Tasks N :=
  { s with
    live := Function.update s.live node false
    data := Function.update s.data node word
    queue := s.queue.setNext node link
    receiver := .test
    log := .free node :: s.log }

end Tasks

inductive Task where
  | sender
  | receiver
  deriving DecidableEq, Repr

/-- One call of one task. Reading through a `NULL` pointer is no step. -/
inductive Tasks.Step : Task → Tasks N → Tasks N → Prop
  | alloc {s : Tasks N} {node : Fin N} : s.sender = .alloc → s.live node = false →
      Step .sender s (s.alloc node)
  | allocFails {s : Tasks N} : s.sender = .alloc → (∀ node, s.live node = true) →
      Step .sender s s.allocFails
  | fill {s : Tasks N} {node : Fin N} : s.sender = .fill node → Step .sender s (s.fill node)
  | append {s : Tasks N} {node : Fin N} : s.sender = .append node → Step .sender s (s.append node)
  | sendAgain {s : Tasks N} : s.sender = .sleep → Step .sender s s.sendAgain
  | recvAgain {s : Tasks N} : s.receiver = .sleep → Step .receiver s s.recvAgain
  | test {s : Tasks N} : s.receiver = .test → Step .receiver s s.test
  | get {s : Tasks N} : s.receiver = .get → Step .receiver s s.get
  | print {s : Tasks N} {node : Fin N} : s.receiver = .print (some node) →
      Step .receiver s (s.print node)
  | free {s : Tasks N} {node : Fin N} {word : UInt32} {link : Option (Fin N)} :
      s.receiver = .free node → Step .receiver s (s.free node word link)

/-- The two tasks in any order, on a heap for `N` nodes. -/
def heapQueue (N : Nat) : System (Tasks N) Task where
  init s := ∃ next data, s = .start next data
  step := Tasks.Step

/-! ## Who has a node -/

/-- The node the sender has allocated and not appended. -/
def SenderPc.held : SenderPc N → List (Fin N)
  | .fill node | .append node => [node]
  | _ => []

/-- The node the receiver has taken out and not freed. -/
def ReceiverPc.held : ReceiverPc N → List (Fin N)
  | .print (some node) | .free node => [node]
  | _ => []

/-- Everything is accounted for: the values printed are 0, 1, 2 and so on; `k_queue_get` never returned
`NULL`; each node goes through the four calls in turn, one at a time; the live nodes are those the
sender holds, those queued and those the receiver holds, and none is in two places. -/
structure Accounted (s : Tasks N) : Prop where
  printed : s.printed = numbered UInt32.ofNat s.printed.length
  noNull : s.receiver ≠ .print none
  inTurn : ∀ node, s.log.count (.free node) ≤ s.log.count (.get node) ∧
    s.log.count (.get node) ≤ s.log.count (.append node) ∧
    s.log.count (.append node) ≤ s.log.count (.alloc node) ∧
    s.log.count (.alloc node) ≤ s.log.count (.free node) + 1
  owners : ∃ l, s.queue.Represents l ∧ (s.sender.held ++ l ++ s.receiver.held).Nodup ∧
    ∀ node, s.live node = true ↔ node ∈ s.sender.held ++ l ++ s.receiver.held

/-- Every node appended so far has been freed. -/
def AllFreed (s : Tasks N) : Prop :=
  ∀ node, s.log.count (.free node) = s.log.count (.append node)

/-- The receiver alone. -/
def receiving (N : Nat) : System (Tasks N) Task := (heapQueue N).restrict fun task _ => task = .receiver

/-! ## The invariant -/

/-- A node whose number is written and not appended. -/
def SenderPc.filled : SenderPc N → List (Fin N)
  | .append node => [node]
  | _ => []

/-- A node taken out whose number is not printed. -/
def ReceiverPc.unread : ReceiverPc N → List (Fin N)
  | .print (some node) => [node]
  | _ => []

theorem mem_held_of_filled {pc : SenderPc N} {node : Fin N} (h : node ∈ pc.filled) :
    node ∈ pc.held := by
  rcases pc with _ | _ | x | _
  · cases h
  · cases h
  · exact h
  · cases h

theorem mem_held_of_unread {pc : ReceiverPc N} {node : Fin N} (h : node ∈ pc.unread) :
    node ∈ pc.held := by
  rcases pc with _ | _ | _ | ⟨_ | x⟩ | _
  · cases h
  · cases h
  · cases h
  · cases h
  · exact h
  · cases h

/-- With the queue spelling `l` and `n` nodes numbered. -/
structure TasksInv (s : Tasks N) (l : List (Fin N)) (n : Nat) : Prop where
  nodes : s.queue.Represents l
  owners : (s.sender.held ++ l ++ s.receiver.held).Nodup
  live : ∀ node, s.live node = true ↔ node ∈ s.sender.held ++ l ++ s.receiver.held
  allocs : ∀ node, s.log.count (.alloc node) =
    s.log.count (.append node) + s.sender.held.count node
  appends : ∀ node, s.log.count (.append node) = s.log.count (.get node) + l.count node
  gets : ∀ node, s.log.count (.get node) = s.log.count (.free node) + s.receiver.held.count node
  filled : s.receiver = .get → l ≠ []
  noNull : s.receiver ≠ .print none
  counter : s.count = UInt32.ofNat n
  account : s.printed ++ (s.receiver.unread ++ l ++ s.sender.filled).map s.data =
    numbered UInt32.ofNat n

/-- Writing to a node that is not in a list leaves what is read along the list. -/
theorem map_update {l : List (Fin N)} {node : Fin N} (h : node ∉ l) (data : Fin N → UInt32)
    (word : UInt32) : l.map (Function.update data node word) = l.map data := by
  apply List.map_congr_left
  intro x hx
  apply Function.update_of_ne
  rintro rfl
  exact h hx

namespace TasksInv

variable {s : Tasks N} {l : List (Fin N)} {n : Nat}

theorem start (next : Fin N → Option (Fin N)) (data : Fin N → UInt32) :
    TasksInv (.start next data) [] 0 where
  nodes := .empty next
  owners := List.nodup_nil
  live _ := iff_of_false Bool.false_ne_true List.not_mem_nil
  allocs _ := rfl
  appends _ := rfl
  gets _ := rfl
  filled := by simp [Tasks.start]
  noNull := by simp [Tasks.start]
  counter := rfl
  account := rfl

/-! ### Steps of the sender -/

theorem alloc (h : TasksInv s l n) {node : Fin N} (hpc : s.sender = .alloc)
    (hfree : s.live node = false) : TasksInv (s.alloc node) l n := by
  have hheld : s.sender.held = [] := by
    rw [hpc]
    rfl
  -- a node that is not live has no owner
  have hnew : node ∉ l ++ s.receiver.held := by
    intro hmem
    have hlive := (h.live node).mpr (by rw [hheld]; exact hmem)
    rw [hfree] at hlive
    cases hlive
  have howners := h.owners
  have hallocs := h.allocs
  rw [hheld] at howners hallocs
  refine ⟨h.nodes, ?_, ?_, ?_, ?_, ?_, h.filled, h.noNull, h.counter, ?_⟩
  · exact List.nodup_cons.mpr ⟨hnew, howners⟩
  · intro x
    show Function.update s.live node true x = true ↔ x ∈ node :: (l ++ s.receiver.held)
    by_cases hx : x = node
    · rw [hx, Function.update_self]
      exact iff_of_true rfl List.mem_cons_self
    · rw [Function.update_of_ne hx, h.live, hheld, List.mem_cons, or_iff_right hx]
      rfl
  · intro x
    simp [Tasks.alloc, SenderPc.held, List.count_cons, hallocs x]
  · intro x
    simpa [Tasks.alloc] using h.appends x
  · intro x
    simpa [Tasks.alloc] using h.gets x
  · have haccount := h.account
    rw [hpc] at haccount
    exact haccount

/-- A step of the sender that neither takes nor gives a node. -/
theorem of_sender (h : TasksInv s l n) {pc : SenderPc N} (hheld : pc.held = s.sender.held)
    (hfilled : pc.filled = s.sender.filled) : TasksInv { s with sender := pc } l n where
  nodes := h.nodes
  owners := by
    rw [hheld]
    exact h.owners
  live := by
    rw [hheld]
    exact h.live
  allocs node := by
    rw [hheld]
    exact h.allocs node
  appends := h.appends
  gets := h.gets
  filled := h.filled
  noNull := h.noNull
  counter := h.counter
  account := by
    rw [hfilled]
    exact h.account

theorem fill (h : TasksInv s l n) {node : Fin N} (hpc : s.sender = .fill node) :
    TasksInv (s.fill node) l (n + 1) := by
  have howners := h.owners
  have hlive := h.live
  have hallocs := h.allocs
  have haccount := h.account
  rw [hpc] at howners hlive hallocs haccount
  refine ⟨h.nodes, howners, hlive, hallocs, h.appends, h.gets, h.filled, h.noNull, ?_, ?_⟩
  · show s.count + 1 = UInt32.ofNat (n + 1)
    rw [h.counter, UInt32.ofNat_add]
    rfl
  · -- the node is nobody else's, so only its own number changes
    have hnew : node ∉ s.receiver.unread ++ l := by
      have hhead := (List.nodup_cons.mp howners).1
      intro hmem
      rcases List.mem_append.mp hmem with hunread | hl
      · exact hhead (List.mem_append_right l (mem_held_of_unread hunread))
      · exact hhead (List.mem_append_left _ hl)
    have hprinted : s.printed ++ (s.receiver.unread ++ l).map s.data = numbered UInt32.ofNat n := by
      rw [← haccount]
      show _ = s.printed ++ (s.receiver.unread ++ l ++ []).map s.data
      rw [List.append_nil]
    show s.printed ++ (s.receiver.unread ++ l ++ [node]).map (Function.update s.data node s.count) = _
    rw [List.map_append, map_update hnew, ← List.append_assoc, hprinted, numbered_succ, ← h.counter,
      List.map_singleton, Function.update_self]

theorem append (h : TasksInv s l n) {node : Fin N} (hpc : s.sender = .append node) :
    TasksInv (s.append node) (l ++ [node]) n := by
  have howners := h.owners
  have hlive := h.live
  have haccount := h.account
  have hallocs := h.allocs
  have hheld : s.sender.held = [node] := by
    rw [hpc]
    rfl
  rw [hheld] at howners hlive hallocs
  rw [hpc] at haccount
  have hnew : node ∉ l := fun hmem =>
    (List.nodup_cons.mp howners).1 (List.mem_append_left _ hmem)
  -- the node changes its place in the list of owners, the list stays the same
  have hperm : (l ++ [node] ++ s.receiver.held).Perm ([node] ++ l ++ s.receiver.held) :=
    List.perm_append_comm.append_right s.receiver.held
  refine ⟨h.nodes.append hnew, ?_, ?_, ?_, ?_, ?_, ?_, h.noNull, h.counter, ?_⟩
  · exact hperm.nodup_iff.mpr howners
  · intro x
    exact (hlive x).trans hperm.mem_iff.symm
  · intro x
    simp [Tasks.append, SenderPc.held, List.count_cons, hallocs x]
  · intro x
    simp [Tasks.append, List.count_cons, h.appends x, Nat.add_assoc]
  · intro x
    simpa [Tasks.append] using h.gets x
  · intro _
    exact List.concat_ne_nil node l
  · show s.printed ++ (s.receiver.unread ++ (l ++ [node]) ++ []).map s.data = _
    rw [List.append_nil, ← List.append_assoc]
    exact haccount

/-! ### Steps of the receiver -/

/-- A step of the receiver that neither takes nor gives a node and prints nothing. -/
theorem of_receiver (h : TasksInv s l n) {pc : ReceiverPc N} (hheld : pc.held = s.receiver.held)
    (hunread : pc.unread = s.receiver.unread) (hfilled : pc = .get → l ≠ [])
    (hnull : pc ≠ .print none) : TasksInv { s with receiver := pc } l n where
  nodes := h.nodes
  owners := by
    rw [hheld]
    exact h.owners
  live := by
    rw [hheld]
    exact h.live
  allocs := h.allocs
  appends := h.appends
  gets node := by
    rw [hheld]
    exact h.gets node
  filled := hfilled
  noNull := hnull
  counter := h.counter
  account := by
    rw [hunread]
    exact h.account

theorem recvAgain (h : TasksInv s l n) (hpc : s.receiver = .sleep) : TasksInv s.recvAgain l n :=
  h.of_receiver (by rw [hpc]; rfl) (by rw [hpc]; rfl) (by simp) (by simp)

/-- `k_queue_is_empty` tells whether the list is empty. -/
theorem head_isNone_iff (h : TasksInv s l n) : s.queue.head.isNone = true ↔ l = [] := by
  rcases l with _ | ⟨x, xs⟩
  · rw [show s.queue.head = none from h.nodes.path]
    exact iff_of_true rfl rfl
  · rw [h.nodes.path.1]
    exact iff_of_false Bool.false_ne_true (List.cons_ne_nil x xs)

theorem test (h : TasksInv s l n) (hpc : s.receiver = .test) : TasksInv s.test l n := by
  unfold Tasks.test
  split_ifs with hempty
  · refine h.of_receiver ?_ ?_ (by simp) (by simp)
    · rw [hpc]
      rfl
    · rw [hpc]
      rfl
  · refine h.of_receiver ?_ ?_ (fun _ => mt h.head_isNone_iff.mpr hempty) (by simp)
    · rw [hpc]
      rfl
    · rw [hpc]
      rfl

theorem get (h : TasksInv s l n) (hpc : s.receiver = .get) :
    ∃ node l', l = node :: l' ∧ s.get.receiver = .print (some node) ∧ TasksInv s.get l' n := by
  obtain ⟨node, l', rfl⟩ := List.exists_cons_of_ne_nil (h.filled hpc)
  obtain ⟨hget, hnodes⟩ := h.nodes.get
  have howners := h.owners
  have hlive := h.live
  have hgets := h.gets
  have haccount := h.account
  rw [hpc] at howners hlive hgets haccount
  have hprint : s.get.receiver = .print (some node) := congrArg ReceiverPc.print hget
  have hlog : s.get.log = .get node :: s.log := by
    unfold Tasks.get
    rw [hget]
    rfl
  have hperm : (s.sender.held ++ l' ++ [node]).Perm (s.sender.held ++ (node :: l') ++ []) := by
    rw [List.append_nil, List.append_assoc]
    exact (List.perm_append_singleton node l').append_left s.sender.held
  refine ⟨node, l', rfl, hprint, hnodes, ?_, ?_, ?_, ?_, ?_, ?_, ?_, h.counter, ?_⟩
  · rw [hprint]
    exact hperm.nodup_iff.mpr howners
  · intro x
    rw [hprint]
    exact (hlive x).trans hperm.mem_iff.symm
  · intro x
    show _ = _ + s.sender.held.count x
    simpa [hlog] using h.allocs x
  · intro x
    have hx := h.appends x
    rw [List.count_cons] at hx
    simp [hlog, List.count_cons, hx]
    omega
  · intro x
    rw [hprint]
    simp [hlog, List.count_cons, ReceiverPc.held, hgets x]
  · simp [hprint]
  · simp [hprint]
  · rw [hprint]
    exact haccount

theorem print (h : TasksInv s l n) {node : Fin N} (hpc : s.receiver = .print (some node)) :
    TasksInv (s.print node) l n := by
  have howners := h.owners
  have hlive := h.live
  have hgets := h.gets
  have haccount := h.account
  rw [hpc] at howners hlive hgets haccount
  refine ⟨h.nodes, howners, hlive, h.allocs, h.appends, hgets, by simp [Tasks.print],
    by simp [Tasks.print], h.counter, ?_⟩
  show s.printed ++ [s.data node] ++ ([] ++ l ++ s.sender.filled).map s.data = _
  rw [← haccount, List.append_assoc]
  rfl

theorem free (h : TasksInv s l n) {node : Fin N} (hpc : s.receiver = .free node) (word : UInt32)
    (link : Option (Fin N)) : TasksInv (s.free node word link) l n := by
  have howners := h.owners
  have hlive := h.live
  have hgets := h.gets
  have haccount := h.account
  have hheld : s.receiver.held = [node] := by
    rw [hpc]
    rfl
  rw [hheld] at howners hlive hgets
  rw [hpc] at haccount
  -- what the heap writes there is read by nobody
  have hnew : node ∉ s.sender.held ++ l := by
    intro hmem
    exact (List.nodup_append.mp howners).2.2 node hmem node List.mem_cons_self rfl
  have hl : node ∉ l := fun hmem => hnew (List.mem_append_right _ hmem)
  refine ⟨h.nodes.relink hl link, ?_, ?_, ?_, ?_, ?_, by simp [Tasks.free], by simp [Tasks.free],
    h.counter, ?_⟩
  · show (s.sender.held ++ l ++ []).Nodup
    rw [List.append_nil]
    exact (List.nodup_append.mp howners).1
  · intro x
    show Function.update s.live node false x = true ↔ x ∈ s.sender.held ++ l ++ []
    rw [List.append_nil]
    by_cases hx : x = node
    · rw [hx, Function.update_self]
      exact iff_of_false Bool.false_ne_true hnew
    · rw [Function.update_of_ne hx, hlive, List.mem_append, List.mem_singleton, or_iff_left hx]
  · intro x
    simpa [Tasks.free] using h.allocs x
  · intro x
    simpa [Tasks.free] using h.appends x
  · intro x
    simp [Tasks.free, ReceiverPc.held, List.count_cons, hgets x]
  · have hread : node ∉ l ++ s.sender.filled := by
      intro hmem
      rcases List.mem_append.mp hmem with hmem | hfilled
      · exact hl hmem
      · exact hnew (List.mem_append_left l (mem_held_of_filled hfilled))
    show s.printed ++ ([] ++ l ++ s.sender.filled).map (Function.update s.data node word) = _
    rw [List.nil_append, map_update hread]
    exact haccount

/-! ### Runs -/

theorem step (h : TasksInv s l n) {task : Task} {t : Tasks N} (hs : Tasks.Step task s t) :
    ∃ l' n', TasksInv t l' n' := by
  rcases hs with ⟨hpc, hfree⟩ | ⟨hpc, -⟩ | hpc | hpc | hpc | hpc | hpc | hpc | hpc | hpc
  · exact ⟨l, n, h.alloc hpc hfree⟩
  · exact ⟨l, n, h.of_sender (by rw [hpc]; rfl) (by rw [hpc]; rfl)⟩
  · exact ⟨l, n + 1, h.fill hpc⟩
  · exact ⟨_, n, h.append hpc⟩
  · exact ⟨l, n, h.of_sender (by rw [hpc]; rfl) (by rw [hpc]; rfl)⟩
  · exact ⟨l, n, h.recvAgain hpc⟩
  · exact ⟨l, n, h.test hpc⟩
  · obtain ⟨node, l', -, -, hget⟩ := h.get hpc
    exact ⟨l', n, hget⟩
  · exact ⟨l, n, h.print hpc⟩
  · exact ⟨l, n, h.free hpc _ _⟩

end TasksInv

theorem tasksInv_of_reachable {s : Tasks N} (h : (heapQueue N).Reachable s) :
    ∃ l n, TasksInv s l n := by
  refine h.invariant (I := fun s => ∃ l n, TasksInv s l n) ?_ ?_
  · rintro s ⟨next, data, rfl⟩
    exact ⟨[], 0, .start next data⟩
  · rintro s t task - ⟨l, n, hinv⟩ hstep
    exact hinv.step hstep

/-! ## Progress of the receiver -/

/-- How far the receiver is from having freed the node at its place and those still queued. -/
def ReceiverPc.rank (queued : Nat) : ReceiverPc N → Nat
  | .sleep => 4 * queued + 2
  | .test => 4 * queued + 1
  | .get => 4 * queued
  | .print _ => 4 * queued + 3
  | .free _ => 4 * queued + 2

namespace TasksInv

variable {s t : Tasks N} {l : List (Fin N)} {n : Nat}

/-- The receiver never waits for the sender. -/
theorem receiver_moves (h : TasksInv s l n) : ∃ t, Tasks.Step .receiver s t := by
  rcases hpc : s.receiver with _ | _ | _ | ⟨_ | node⟩ | node
  · exact ⟨_, .recvAgain hpc⟩
  · exact ⟨_, .test hpc⟩
  · exact ⟨_, .get hpc⟩
  · exact absurd hpc h.noNull
  · exact ⟨_, .print hpc⟩
  · exact ⟨s.free node 0 none, .free hpc⟩

/-- While it holds a node or the queue does, each of its steps brings it closer. -/
theorem receiver_closer (h : TasksInv s l n) (hbusy : ¬ (s.receiver.held = [] ∧ l = []))
    (hs : Tasks.Step .receiver s t) :
    ∃ l', TasksInv t l' n ∧ t.receiver.rank l'.length < s.receiver.rank l.length := by
  cases hs with
  | recvAgain hpc =>
      refine ⟨l, h.recvAgain hpc, ?_⟩
      rw [hpc]
      exact Nat.lt_succ_self _
  | test hpc =>
      have hl : l ≠ [] := fun hnil => hbusy ⟨by rw [hpc]; rfl, hnil⟩
      have hget : s.test.receiver = .get := if_neg (mt h.head_isNone_iff.mp hl)
      refine ⟨l, h.test hpc, ?_⟩
      rw [hpc, hget]
      exact Nat.lt_succ_self _
  | get hpc =>
      obtain ⟨node, l', rfl, hprint, hget⟩ := h.get hpc
      refine ⟨l', hget, ?_⟩
      rw [hpc, hprint]
      show 4 * l'.length + 3 < 4 * (l'.length + 1)
      omega
  | print hpc =>
      refine ⟨l, h.print hpc, ?_⟩
      rw [hpc]
      exact Nat.lt_succ_self _
  | free hpc =>
      refine ⟨l, h.free hpc _ _, ?_⟩
      rw [hpc]
      exact Nat.lt_succ_self _

/-- Left alone the receiver comes to the point where it has freed everything appended. -/
theorem drains (h : TasksInv s l n) : (receiving N).Inevitable AllFreed s := by
  refine .of_rank (fun rank s => ∃ l, TasksInv s l n ∧ s.receiver.rank l.length = rank) ?_
    ⟨l, h, rfl⟩
  rintro rank s ⟨l, h, rfl⟩
  by_cases hdone : s.receiver.held = [] ∧ l = []
  · -- nothing queued and nothing in hand: the counts of append, get and free agree
    apply Or.inl
    intro node
    rw [h.appends, h.gets, hdone.1, hdone.2]
    rfl
  · apply Or.inr
    constructor
    · obtain ⟨t, hs⟩ := h.receiver_moves
      exact ⟨.receiver, t, rfl, hs⟩
    · rintro task t ⟨rfl, hs⟩
      obtain ⟨l', hinv, hlower⟩ := h.receiver_closer hdone hs
      exact ⟨_, hlower, l', hinv, rfl⟩

end TasksInv

/-! ## The account -/

theorem TasksInv.accounted {s : Tasks N} {l : List (Fin N)} {n : Nat} (h : TasksInv s l n) :
    Accounted s where
  printed := by
    apply eq_numbered_of_prefix (n := n)
    rw [← h.account]
    exact List.prefix_append _ _
  noNull := h.noNull
  inTurn node := by
    have hone := List.nodup_iff_count.mp h.owners node
    rw [List.count_append, List.count_append] at hone
    have hallocs := h.allocs node
    have happends := h.appends node
    have hgets := h.gets node
    omega
  owners := ⟨l, h.nodes, h.owners, h.live⟩

/-- **Nodes from the heap.** For every size of the heap, in every state of every interleaving of single
calls: the account is in order, and the receiver left alone frees every node appended so far. -/
theorem heapQueue_accounted {s : Tasks N} (h : (heapQueue N).Reachable s) :
    Accounted s ∧ (receiving N).Inevitable AllFreed s := by
  obtain ⟨l, n, hinv⟩ := tasksInv_of_reachable h
  exact ⟨hinv.accounted, hinv.drains⟩

/-- One node, appended, printed, freed and allocated again. -/
def recycled : Tasks 1 :=
  let queued := ((Tasks.start (fun _ => none) fun _ => 9).alloc 0).fill 0 |>.append 0
  ((queued.recvAgain.test.get.print 0).free 0 5 none).alloc 0 |>.fill 0

theorem recycled_reachable : (heapQueue 1).Reachable recycled := by
  have hstart : (heapQueue 1).Reachable (.start (fun _ => none) fun _ => 9) := .init ⟨_, _, rfl⟩
  have hlive := hstart.step (.alloc rfl rfl : Tasks.Step .sender _ (Tasks.alloc _ 0))
  have hqueued := (hlive.step (.fill rfl)).step (.append rfl)
  have htaken := ((hqueued.step (.recvAgain rfl)).step (.test rfl)).step (.get rfl)
  have hprinted := htaken.step (.print rfl : Tasks.Step .receiver _ (Tasks.print _ 0))
  have hfreed := hprinted.step (.free rfl : Tasks.Step .receiver _ (Tasks.free _ 0 5 none))
  have hagain := hfreed.step (.alloc rfl rfl : Tasks.Step .sender _ (Tasks.alloc _ 0))
  exact hagain.step (.fill rfl)

theorem recycled_accounted : recycled.data 0 = 1 ∧ Accounted recycled :=
  ⟨rfl, (heapQueue_accounted recycled_reachable).1⟩

end ZephyrSamples.Queues.HeapQueue
