/-
# ZephyrSamples.Queues.Senders -- samples that put into a message queue without waiting

`MQUEUES/_01`, `_02` and `_05` send a counter that is incremented before each put, from a thread or from an
interrupt; `MQUEUES/_03` sends a structure from two threads that share their code. Nobody asks whether a put
succeeded. One receiver waits for messages and prints them.

Whatever the order of moves, the counters received are increasing and what is missing between them was refused
(`counter_received`). Where the receiver has the higher priority, as in `_03`, everything that was sent is
received, and every message bears the value of its source (`structures_received`).
-/
import ZephyrSamples.Lib.Mailbox

namespace ZephyrSamples.Queues.Senders

open ZephyrSamples.Lib

/-- What a receiver keeps is nothing; it prints what it received. -/
def receiver {α : Type} (line : α → String) (_ : Unit) (data : α) : Unit × List String := ((), [line data])

/-- Where nobody else prints, the text is that of the messages handled. -/
theorem printed_eq {ι ρ α : Type} {size : Nat} {P : Program ι ρ α Unit} {line : α → String}
    (hprocess : P.process = receiver line) (hquiet : ∀ a, P.announce a = []) (shared : ρ)
    (turns : List (Turn ι)) :
    (P.run (.start shared () : Running ρ α Unit size) turns).printed =
      (P.run (.start shared () : Running ρ α Unit size) turns).mailbox.handled.map line := by
  unfold Program.run
  induction turns using List.reverseRecOn with
  | nil => rfl
  | append_singleton turns turn ih =>
      rw [List.foldl_append]
      generalize turns.foldl P.step (.start shared () : Running ρ α Unit size) = s at ih ⊢
      rw [List.foldl_cons, List.foldl_nil]
      rcases turn with i | _
      · show s.printed ++ P.announce (P.produce i s.shared).1 =
          (s.mailbox.post (P.produce i s.shared).1).handled.map line
        rw [hquiet, List.append_nil, Mailbox.handled_post, ih]
      · have hprinted : (P.step s .consumer).printed = s.printed ++ s.mailbox.consumer.inHand.map line := by
          unfold Program.step
          rw [hprocess]
          rcases s.mailbox.consumer with _ | _ | a
          · exact (List.append_nil _).symm
          · exact (List.append_nil _).symm
          · rfl
        rw [hprinted, Program.mailbox_step_consumer, Mailbox.handled_advance, List.map_append, ih]

/-! ## Counters -/

/-- `task_sender` or `my_own_isr`, with `data` for its state, and `task_receiver`. -/
def counter : Program Unit UInt32 UInt32 Unit where
  produce _ data := (data + 1, data + 1)
  announce _ := []
  process := receiver fun data => "Received Value = " ++ toString data.toInt32 ++ "\n"

/-- A run with a queue of 5 entries (`_01`) or 10 (`_02`, `_05`). -/
def runCounter (size : Nat) (turns : List (Turn Unit)) : Running UInt32 UInt32 Unit size :=
  counter.run (.start 0 ()) turns

/-- What the puts after the `k`-th send, `n` of them. -/
def counted (k n : Nat) : List UInt32 := (List.range' (k + 1) n).map UInt32.ofNat

theorem messages_counter (k : Nat) (turns : List (Turn Unit)) :
    counter.messages (UInt32.ofNat k) turns =
      counted k (counter.messages (UInt32.ofNat k) turns).length := by
  induction turns generalizing k with
  | nil => rfl
  | cons turn turns ih =>
      rcases turn with _ | _
      · have hnext : UInt32.ofNat k + 1 = UInt32.ofNat (k + 1) := (UInt32.ofNat_add k 1).symm
        have hmessages : counter.messages (UInt32.ofNat k) (.producer () :: turns) =
            UInt32.ofNat (k + 1) :: counter.messages (UInt32.ofNat (k + 1)) turns := by
          rw [← hnext]
          rfl
        rw [hmessages, ih (k + 1)]
        unfold counted
        rw [List.length_cons, List.range'_succ, List.map_cons, List.length_map, List.length_range']
      · exact ih k

/-- Below the wrap the counters sent are increasing. -/
theorem counted_increasing {n : Nat} (h : n < UInt32.size) : (counted 0 n).Pairwise (· < ·) := by
  unfold counted
  rw [List.pairwise_map]
  refine List.Pairwise.imp_of_mem ?_ (List.pairwise_lt_range' (s := 1) (n := n))
  intro a b ha hb hlt
  rw [List.mem_range'_1] at ha hb
  rw [UInt32.lt_iff_toNat_lt, UInt32.toNat_ofNat_of_lt' (by omega), UInt32.toNat_ofNat_of_lt' (by omega)]
  exact hlt

/-- **Received in order.** In any run with a queue of any size the text of the receiver is that of the counters
handled; these are increasing, as long as the counter has not wrapped, and with those on their way and those
refused they are as many as were sent. -/
theorem counter_received (size : Nat) (turns : List (Turn Unit))
    (h : (runCounter size turns).mailbox.posts.length < UInt32.size) :
    let s := runCounter size turns
    s.printed = s.mailbox.handled.map (fun data => "Received Value = " ++ toString data.toInt32 ++ "\n") ∧
      s.mailbox.handled.Pairwise (· < ·) ∧
      s.mailbox.handled.Sublist (counted 0 s.mailbox.posts.length) ∧
      s.mailbox.handled.length + (s.mailbox.consumer.inHand ++ s.mailbox.queue.items).length +
        s.mailbox.posts.countP (fun post => !post.2) = s.mailbox.posts.length := by
  intro s
  have hkept : counter.Kept () s := Program.kept_run 0 () turns
  have hposts : s.mailbox.posts.map (·.1) = counted 0 s.mailbox.posts.length := by
    have hrun : s.mailbox.posts.map (·.1) = counter.messages (UInt32.ofNat 0) turns := Program.posts_run _ turns
    have hlength := congrArg List.length hrun
    rw [List.length_map] at hlength
    rw [hrun, messages_counter, ← hlength]
  have hsub : s.mailbox.handled.Sublist (counted 0 s.mailbox.posts.length) := by
    rw [← hposts]
    refine List.Sublist.trans ?_ (taken_sublist _)
    rw [← hkept.accounts.conserved, List.append_assoc]
    exact List.sublist_append_left _ _
  refine ⟨printed_eq rfl (fun _ => rfl) 0 turns, (counted_increasing h).sublist hsub, hsub, ?_⟩
  have htaken := congrArg List.length hkept.accounts.conserved
  unfold taken at htaken
  rw [List.append_assoc, List.length_append, List.length_map, ← List.countP_eq_length_filter] at htaken
  have htotal := List.length_eq_countP_add_countP (fun post : UInt32 × Bool => post.2) (l := s.mailbox.posts)
  simp only [Bool.not_eq_true, Bool.decide_eq_false] at htotal
  omega

/-- Six puts before the receiver comes, a seventh when it has taken two, and everything is received. -/
def crowded : List (Turn Unit) :=
  List.replicate 6 (.producer ()) ++ List.replicate 4 .consumer ++ [.producer ()] ++
    List.replicate 8 .consumer

/-- The sixth counter finds the queue of `_01` full. -/
theorem counter_received_crowded :
    (runCounter 5 crowded).mailbox.handled = [1, 2, 3, 4, 5, 7] ∧
      (runCounter 5 crowded).mailbox.handled.Sublist (counted 0 7) ∧
      (runCounter 5 crowded).printed = [1, 2, 3, 4, 5, 7].map fun data : UInt32 =>
        "Received Value = " ++ toString data.toInt32 ++ "\n" := by
  have hhandled : (runCounter 5 crowded).mailbox.handled = [1, 2, 3, 4, 5, 7] := by decide +kernel
  have hposts : (runCounter 5 crowded).mailbox.posts.length = 7 := by decide +kernel
  obtain ⟨hprinted, -, hsub, -⟩ := counter_received 5 crowded (by rw [hposts]; decide)
  rw [hposts] at hsub
  rw [hhandled] at hprinted
  exact ⟨hhandled, hsub, hprinted⟩

/-! ## Structures from two senders -/

/-- `struct data` -/
structure Data where
  value : UInt8
  source : UInt8
  deriving DecidableEq, Repr

inductive Sender where
  | sender1
  | sender2
  deriving DecidableEq, Repr

/-- `p1` and `p2`, as the threads are defined. -/
def params : Sender → UInt32 × UInt32
  | .sender1 => (101, 1)
  | .sender2 => (202, 2)

/-- What a sender sends. -/
def dataToSend (i : Sender) : Data := ⟨(params i).1.toUInt8, (params i).2.toUInt8⟩

def structureLine (data : Data) : String :=
  "Received Value = " ++ toString data.value ++ " from: " ++ toString data.source ++ "\n"

/-- Two threads that run `task_sender`, and `task_receiver`. -/
def structures : Program Sender Unit Data Unit where
  produce i _ := (dataToSend i, ())
  announce _ := []
  process := receiver structureLine

def startStructures : Running Unit Data Unit 10 := .start () ()

theorem dataToSend_inj {i j : Sender} : dataToSend i = dataToSend j ↔ i = j := by
  rcases i with _ | _ <;> rcases j with _ | _ <;> decide

theorem count_messages_structures (i : Sender) (turns : List (Turn Sender)) :
    (structures.messages () turns).count (dataToSend i) = turns.count (.producer i) := by
  induction turns with
  | nil => rfl
  | cons turn turns ih =>
      rcases turn with j | _
      · show (dataToSend j :: structures.messages () turns).count (dataToSend i) = _
        rw [List.count_cons, List.count_cons, ih]
        simp [dataToSend_inj]
      · rw [List.count_cons_of_ne (by simp), ← ih]
        rfl

theorem mem_messages_structures {data : Data} {turns : List (Turn Sender)}
    (h : data ∈ structures.messages () turns) : ∃ i, data = dataToSend i := by
  induction turns with
  | nil => cases h
  | cons turn turns ih =>
      rcases turn with j | _
      · rcases List.mem_cons.mp h with rfl | h
        · exact ⟨j, rfl⟩
        · exact ih h
      · exact ih h

/-- **Received in full.** The receiver has the higher priority, so a sender moves only while it waits. Then
nothing is refused or queued: of each sender's messages the receiver has handled all but one that it may have
in hand, each printed with the value of its source. -/
theorem structures_received {turns : List (Turn Sender)}
    (h : Steps structures.step Program.Prompt startStructures turns) :
    let s := structures.run startStructures turns
    s.printed = s.mailbox.handled.map structureLine ∧
      (∀ data ∈ s.mailbox.handled, data = ⟨101, 1⟩ ∨ data = ⟨202, 2⟩) ∧
      ∀ i, (s.mailbox.handled ++ s.mailbox.consumer.inHand).count (dataToSend i) =
        turns.count (.producer i) := by
  intro s
  have hkept : structures.Kept () s := Program.kept_run () () turns
  have hdirect : Program.Direct s := (Program.prompt_run () () h).last
  have hposts : s.mailbox.posts.map (·.1) = structures.messages () turns := Program.posts_run _ turns
  have hhandled : s.mailbox.handled ++ s.mailbox.consumer.inHand = structures.messages () turns := by
    rw [← hposts, ← taken_of_all hdirect.accepted, ← hkept.accounts.conserved, hdirect.empty, List.append_nil]
  refine ⟨printed_eq rfl (fun _ => rfl) () turns, ?_, ?_⟩
  · intro data hdata
    have hmem : data ∈ structures.messages () turns := by
      rw [← hhandled]
      exact List.mem_append_left _ hdata
    obtain ⟨_ | _, rfl⟩ := mem_messages_structures hmem
    · exact Or.inl rfl
    · exact Or.inr rfl
  · intro i
    rw [hhandled, count_messages_structures]

/-- Each of the senders in turn, the receiver after each. -/
theorem structures_received_both :
    (structures.run startStructures
      [.consumer, .producer .sender1, .consumer, .consumer, .producer .sender2, .consumer]).printed =
      ["Received Value = 101 from: 1\n", "Received Value = 202 from: 2\n"] := by
  have hprompt : Steps structures.step Program.Prompt startStructures
      [.consumer, .producer .sender1, .consumer, .consumer, .producer .sender2, .consumer] := by decide
  exact (structures_received hprompt).1

end ZephyrSamples.Queues.Senders
