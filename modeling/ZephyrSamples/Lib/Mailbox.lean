/-
# ZephyrSamples.Lib.Mailbox -- a consumer behind a bounded queue

Producers put messages into a queue of fixed size without waiting and do not ask whether they were taken. One
consumer takes them out, waits while there are none, and processes each. A message put while the consumer waits
goes to it directly. A `Program` says what the producers send and what the consumer makes of it; its runs are
all the orders in which they may move.

`Accounts` is what every run keeps: what was handled, what is in hand and what is queued are together what was
taken, in order, and the consumer's state is that of the messages handled. Where the producers move only when the
consumer waits, no message is refused and none is ever queued (`prompt_run`).

Nothing here names a program.
-/
import ZephyrSamples.Lib.Msgq
import ZephyrSamples.Lib.Runs
import Mathlib.Data.List.Induction

namespace ZephyrSamples.Lib

universe u v w x

/-- Where the consumer stands: before it asks for a message, waiting for one, or with one in hand. -/
inductive Consumer (α : Type u) where
  | ready
  | blocked
  | holds (a : α)
  deriving DecidableEq, Repr

namespace Consumer

def inHand {α : Type u} : Consumer α → List α
  | .holds a => [a]
  | _ => []

end Consumer

/-- The queue and its consumer, and a history: what was put and whether it was taken, what was handled. -/
structure Mailbox (α : Type u) (size : Nat) where
  queue : Msgq α size
  consumer : Consumer α
  posts : List (α × Bool)
  handled : List α
  deriving DecidableEq

/-- What was taken of some posts. -/
def taken {α : Type u} (posts : List (α × Bool)) : List α := (posts.filter (·.2)).map (·.1)

theorem taken_append {α : Type u} (posts : List (α × Bool)) (a : α) (ok : Bool) :
    taken (posts ++ [(a, ok)]) = taken posts ++ if ok then [a] else [] := by
  unfold taken
  rw [List.filter_append, List.map_append]
  rcases ok with _ | _ <;> rfl

theorem taken_sublist {α : Type u} (posts : List (α × Bool)) : (taken posts).Sublist (posts.map (·.1)) :=
  List.filter_sublist.map _

theorem taken_of_all {α : Type u} {posts : List (α × Bool)} (h : posts.all (·.2) = true) :
    taken posts = posts.map (·.1) := by
  unfold taken
  rw [List.filter_eq_self.mpr (List.all_eq_true.mp h)]

namespace Mailbox

variable {α : Type u} {size : Nat}

def start : Mailbox α size := ⟨.empty, .ready, [], []⟩

/-- A put that does not wait. -/
def post (m : Mailbox α size) (a : α) : Mailbox α size :=
  match m.consumer with
  | .blocked => { m with consumer := .holds a, posts := m.posts ++ [(a, true)] }
  | _ =>
      match m.queue.put a with
      | some queue => { m with queue := queue, posts := m.posts ++ [(a, true)] }
      | none => { m with posts := m.posts ++ [(a, false)] }

/-- The consumer's next step: to ask for a message, to go on waiting, to be done with the one in hand. -/
def advance (m : Mailbox α size) : Mailbox α size :=
  match m.consumer with
  | .ready =>
      match m.queue.get with
      | some (a, queue) => { m with queue := queue, consumer := .holds a }
      | none => { m with consumer := .blocked }
  | .blocked => m
  | .holds a => { m with consumer := .ready, handled := m.handled ++ [a] }

/-- Nothing taken is lost, doubled or out of order, and nothing waits for a consumer that waits. -/
structure Accounts (m : Mailbox α size) : Prop where
  conserved : m.handled ++ m.consumer.inHand ++ m.queue.items = taken m.posts
  blocked : m.consumer = .blocked → m.queue.items = []

/-- A post is taken or refused. -/
theorem post_cases (m : Mailbox α size) (a : α) :
    (m.consumer = .blocked ∧
        m.post a = { m with consumer := .holds a, posts := m.posts ++ [(a, true)] }) ∨
      (m.consumer ≠ .blocked ∧ ∃ queue, m.queue.put a = some queue ∧
        m.post a = { m with queue := queue, posts := m.posts ++ [(a, true)] }) ∨
      (m.consumer ≠ .blocked ∧ m.queue.put a = none ∧
        m.post a = { m with posts := m.posts ++ [(a, false)] }) := by
  by_cases hblocked : m.consumer = .blocked
  · refine Or.inl ⟨hblocked, ?_⟩
    unfold post
    rw [hblocked]
  · have hpost : m.post a = match m.queue.put a with
        | some queue => { m with queue := queue, posts := m.posts ++ [(a, true)] }
        | none => { m with posts := m.posts ++ [(a, false)] } := by
      rcases hc : m.consumer with _ | _ | b
      · simp only [post, hc]
      · exact absurd hc hblocked
      · simp only [post, hc]
    rcases hput : m.queue.put a with _ | queue
    · refine Or.inr (Or.inr ⟨hblocked, rfl, ?_⟩)
      rw [hpost, hput]
    · refine Or.inr (Or.inl ⟨hblocked, queue, rfl, ?_⟩)
      rw [hpost, hput]

theorem handled_post (m : Mailbox α size) (a : α) : (m.post a).handled = m.handled := by
  rcases m.post_cases a with ⟨-, hpost⟩ | ⟨-, queue, -, hpost⟩ | ⟨-, -, hpost⟩ <;> rw [hpost]

/-- The consumer is done with what it has in hand. -/
theorem handled_advance (m : Mailbox α size) : m.advance.handled = m.handled ++ m.consumer.inHand := by
  unfold advance
  rcases m.consumer with _ | _ | a
  · rcases m.queue.get with _ | ⟨a, queue⟩ <;> exact (List.append_nil _).symm
  · exact (List.append_nil _).symm
  · rfl

namespace Accounts

variable {m : Mailbox α size}

theorem start : Accounts (Mailbox.start : Mailbox α size) := ⟨rfl, fun _ => rfl⟩

theorem post (h : Accounts m) (a : α) : Accounts (m.post a) := by
  obtain ⟨hconserved, hempty⟩ := h
  rcases m.post_cases a with ⟨hc, hpost⟩ | ⟨hc, queue, hput, hpost⟩ | ⟨hc, hput, hpost⟩
  · rw [hpost]
    refine ⟨?_, fun hblocked => by cases hblocked⟩
    rw [taken_append, ← hconserved, hc, hempty hc]
    simp [Consumer.inHand]
  · rw [hpost]
    refine ⟨?_, fun hblocked => absurd hblocked hc⟩
    rw [taken_append, ← hconserved, Msgq.put_eq_some hput]
    exact (List.append_assoc _ _ _).symm
  · rw [hpost]
    refine ⟨?_, fun hblocked => absurd hblocked hc⟩
    rw [taken_append, ← hconserved]
    exact (List.append_nil _).symm

theorem advance (h : Accounts m) : Accounts m.advance := by
  obtain ⟨hconserved, hempty⟩ := h
  unfold Mailbox.advance
  rcases hc : m.consumer with _ | _ | a
  · rcases hget : m.queue.get with _ | ⟨a, queue⟩
    · refine ⟨?_, fun _ => ?_⟩
      · rw [← hconserved, hc]
        rfl
      · exact List.eq_nil_of_length_eq_zero (Msgq.get_eq_none_iff.mp hget)
    · refine ⟨?_, fun hblocked => by cases hblocked⟩
      rw [← hconserved, hc, Msgq.get_eq_some hget]
      simp [Consumer.inHand]
  · refine ⟨?_, fun _ => hempty hc⟩
    rw [← hconserved]
  · refine ⟨?_, fun hblocked => by cases hblocked⟩
    rw [← hconserved, hc]
    simp [Consumer.inHand]

end Accounts

end Mailbox

/-! ## Programs -/

/-- Producers that share a state, and a consumer. -/
structure Program (ι : Type u) (ρ : Type v) (α : Type w) (σ : Type x) where
  /-- the message, and the state for the next one -/
  produce : ι → ρ → α × ρ
  /-- what a producer prints with a message -/
  announce : α → List String
  process : σ → α → σ × List String

/-- Who moves. -/
inductive Turn (ι : Type u) where
  | producer (i : ι)
  | consumer
  deriving DecidableEq, Repr

/-- A program's state: `shared` is the producers', `own` the consumer's. -/
structure Running (ρ : Type v) (α : Type w) (σ : Type x) (size : Nat) where
  mailbox : Mailbox α size
  shared : ρ
  own : σ
  printed : List String

def Running.start {ρ : Type v} {α : Type w} {σ : Type x} {size : Nat} (shared : ρ) (own : σ) :
    Running ρ α σ size := ⟨.start, shared, own, []⟩

namespace Program

variable {ι : Type u} {ρ : Type v} {α : Type w} {σ : Type x} {size : Nat} (P : Program ι ρ α σ)

def step (s : Running ρ α σ size) : Turn ι → Running ρ α σ size
  | .producer i =>
      let (a, shared) := P.produce i s.shared
      { s with
        mailbox := s.mailbox.post a
        shared := shared
        printed := s.printed ++ P.announce a }
  | .consumer =>
      match s.mailbox.consumer with
      | .holds a =>
          let (own, lines) := P.process s.own a
          { s with mailbox := s.mailbox.advance, own := own, printed := s.printed ++ lines }
      | _ => { s with mailbox := s.mailbox.advance }

/-- The state after a run. -/
def run (s : Running ρ α σ size) (turns : List (Turn ι)) : Running ρ α σ size := turns.foldl P.step s

/-- The messages of a run, whatever became of them. -/
def messages (shared : ρ) : List (Turn ι) → List α
  | [] => []
  | .producer i :: turns => (P.produce i shared).1 :: messages (P.produce i shared).2 turns
  | .consumer :: turns => messages shared turns

/-- What a consumer has made of some messages. -/
def consumed (own : σ) (handled : List α) : σ := handled.foldl (fun s a => (P.process s a).1) own

/-- The books of a run from a start with `own`. -/
structure Kept (own : σ) (s : Running ρ α σ size) : Prop where
  accounts : s.mailbox.Accounts
  own_eq : s.own = P.consumed own s.mailbox.handled

variable {P} {own : σ} {s : Running ρ α σ size}

theorem mailbox_step_consumer (s : Running ρ α σ size) :
    (P.step s .consumer).mailbox = s.mailbox.advance := by
  unfold Program.step
  rcases s.mailbox.consumer with _ | _ | a <;> rfl

theorem own_step_consumer (s : Running ρ α σ size) :
    (P.step s .consumer).own = P.consumed s.own s.mailbox.consumer.inHand := by
  unfold Program.step
  rcases s.mailbox.consumer with _ | _ | a <;> rfl

theorem consumed_append (own : σ) (before after : List α) :
    P.consumed own (before ++ after) = P.consumed (P.consumed own before) after := List.foldl_append

theorem Kept.step (h : P.Kept own s) (turn : Turn ι) : P.Kept own (P.step s turn) := by
  obtain ⟨haccounts, hown⟩ := h
  rcases turn with i | _
  · refine ⟨haccounts.post _, ?_⟩
    show s.own = P.consumed own (s.mailbox.post (P.produce i s.shared).1).handled
    rw [hown, Mailbox.handled_post]
  · refine ⟨?_, ?_⟩
    · rw [mailbox_step_consumer]
      exact haccounts.advance
    · rw [own_step_consumer, mailbox_step_consumer, Mailbox.handled_advance, consumed_append, hown]

/-- **The books are kept** by every run. -/
theorem kept_run (shared : ρ) (own : σ) (turns : List (Turn ι)) :
    P.Kept own (P.run (.start shared own : Running ρ α σ size) turns) := by
  unfold run
  induction turns using List.reverseRecOn with
  | nil => exact ⟨.start, rfl⟩
  | append_singleton turns turn ih =>
      rw [List.foldl_append]
      exact ih.step turn

/-- What the producers do does not depend on the consumer. -/
theorem posts_run (s : Running ρ α σ size) (turns : List (Turn ι)) :
    (P.run s turns).mailbox.posts.map (·.1) =
      s.mailbox.posts.map (·.1) ++ P.messages s.shared turns := by
  unfold run
  induction turns generalizing s with
  | nil => exact (List.append_nil _).symm
  | cons turn turns ih =>
      rw [List.foldl_cons, ih]
      rcases turn with i | _
      · have hposts : (P.step s (.producer i)).mailbox.posts.map (·.1) =
            s.mailbox.posts.map (·.1) ++ [(P.produce i s.shared).1] := by
          show (s.mailbox.post (P.produce i s.shared).1).posts.map (·.1) = _
          rcases s.mailbox.post_cases (P.produce i s.shared).1 with
            ⟨-, hpost⟩ | ⟨-, queue, -, hpost⟩ | ⟨-, -, hpost⟩ <;> rw [hpost] <;> simp
        rw [hposts, List.append_assoc]
        rfl
      · have hposts : (P.step s .consumer).mailbox.posts = s.mailbox.posts ∧
            (P.step s .consumer).shared = s.shared := by
          unfold Program.step Mailbox.advance
          rcases s.mailbox.consumer with _ | _ | a
          · rcases s.mailbox.queue.get with _ | ⟨a, queue⟩ <;> exact ⟨rfl, rfl⟩
          · exact ⟨rfl, rfl⟩
          · exact ⟨rfl, rfl⟩
        rw [hposts.1, hposts.2]
        rfl

/-! ## Producers that wait for their turn -/

/-- The producers move only when the consumer waits: it is of higher priority. -/
def Prompt (s : Running ρ α σ size) : Turn ι → Prop
  | .producer _ => s.mailbox.consumer = .blocked
  | .consumer => True

instance [DecidableEq α] (s : Running ρ α σ size) (turn : Turn ι) : Decidable (Prompt s turn) :=
  match turn with
  | .producer _ => inferInstanceAs (Decidable (_ = _))
  | .consumer => inferInstanceAs (Decidable True)

/-- Everything was taken, and nothing is queued. -/
structure Direct (s : Running ρ α σ size) : Prop where
  accepted : s.mailbox.posts.all (·.2) = true
  empty : s.mailbox.queue.items = []

theorem Direct.step (h : Direct s) {turn : Turn ι} (hprompt : Prompt s turn) : Direct (P.step s turn) := by
  obtain ⟨haccepted, hempty⟩ := h
  rcases turn with i | _
  · obtain ⟨-, hpost⟩ | ⟨hbusy, -⟩ | ⟨hbusy, -⟩ := s.mailbox.post_cases (P.produce i s.shared).1
    · have hmailbox : (P.step s (.producer i)).mailbox = s.mailbox.post (P.produce i s.shared).1 := rfl
      refine ⟨?_, ?_⟩
      · rw [hmailbox, hpost]
        simpa using haccepted
      · rw [hmailbox, hpost]
        exact hempty
    · exact absurd hprompt hbusy
    · exact absurd hprompt hbusy
  · refine ⟨?_, ?_⟩ <;> rw [mailbox_step_consumer] <;> unfold Mailbox.advance
    · rcases s.mailbox.consumer with _ | _ | a
      · rcases s.mailbox.queue.get with _ | ⟨a, queue⟩ <;> exact haccepted
      · exact haccepted
      · exact haccepted
    · have hnone : s.mailbox.queue.get = none := by
        rw [Msgq.get_eq_none_iff]
        exact List.length_eq_zero_iff.mpr hempty
      rcases s.mailbox.consumer with _ | _ | a
      · rw [hnone]
        exact hempty
      · exact hempty
      · exact hempty

/-- **Promptness is enough.** Nothing is refused and nothing ever queued. -/
theorem prompt_run (shared : ρ) (own : σ) {turns : List (Turn ι)}
    (h : Steps P.step Prompt (.start shared own : Running ρ α σ size) turns) :
    Along P.step Direct (.start shared own : Running ρ α σ size) turns :=
  along_of_steps P.step (fun _ hd => hd) (fun _ _ hd hp => hd.step hp) ⟨rfl, rfl⟩ h

end Program

end ZephyrSamples.Lib
