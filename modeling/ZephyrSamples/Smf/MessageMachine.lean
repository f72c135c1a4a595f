/-
# ZephyrSamples.Smf.MessageMachine -- a state machine behind a message queue

In `SMF/_06` a timer posts 0 and 1 by turns into a queue of five, and does not ask whether they were taken;
`main` takes a message, stores it with the machine and runs the machine, which goes over to the other state on
a 1. The timer interrupts `main` anywhere, so a message may come while `main` waits, before it asks for the
next one, or between a message and the run it is for.

The machine has gone over once for every 1 that was posted, but for those that were refused and those that
have not had their run (`messageMachine_transitions`).
-/
import ZephyrSamples.Lib.Mailbox
import ZephyrSamples.Smf.Machines

namespace ZephyrSamples.Smf.MessageMachine

open ZephyrSamples.Lib

/-- `struct state_machine`, but for the machine's own part, and what the run going on has printed. -/
structure Data where
  data : UInt32
  printed : List String

def actions : Actions MyStates Data where
  toHierarchy := MyStates.flat
  entry _ := none
  exit _ := none

def runLine (s : MyStates) (data : UInt32) : String :=
  let name := match s with
    | .state1 => "State 1"
    | .state2 => "State 2"
  name ++ " running after: " ++ toString data.toInt32 ++ ".\n"

/-- `state1_run` and `state2_run` -/
def stateRun (s : MyStates) (c : Ctx MyStates Data) : Ctx MyStates Data × Result :=
  if c.data.data = 1 then
    let c := c.update fun obj => { obj with printed := printk (runLine s obj.data) obj.printed }
    (actions.setState s.other c, .handled)
  else (c, .handled)

/-- `state_table` -/
def machine : Machine MyStates Data where
  toActions := actions
  run s := some (stateRun s)

/-- `expiry_callback`, with `dummy_msg` for its state, and the loop of `main`. -/
def program : Program Unit UInt32 UInt32 (Ctx MyStates Data) where
  produce _ dummyMsg := (dummyMsg, dummyMsg ^^^ 1)
  announce dummyMsg := ["Timer expired, posting message: " ++ toString dummyMsg.toInt32 ++ ".\n"]
  process sm data :=
    let sm := machine.runState (sm.update fun _ => ⟨data, []⟩)
    (sm, sm.data.printed)

/-- The state when `main` enters its loop; `sm.data` is whatever the stack held. -/
def start (garbage : UInt32) : Running UInt32 UInt32 (Ctx MyStates Data) 5 :=
  .start 0 (actions.setInitial .state1 ⟨garbage, []⟩)

/-- Any run of timer and `main`. -/
def run (garbage : UInt32) (turns : List (Turn Unit)) : Running UInt32 UInt32 (Ctx MyStates Data) 5 :=
  program.run (start garbage) turns

/-- A run goes over on a 1. -/
theorem current_runState (c : Ctx MyStates Data) :
    (machine.runState c).current = if c.data.data = 1 then c.current.other else c.current := by
  obtain ⟨current, executing, newState, ⟨data, printed⟩⟩ := c
  by_cases h : data = 1
  · subst h
    rcases current with _ | _ <;> rfl
  · rcases current with _ | _
    all_goals
      simp [Machine.runState, Machine.runPath, machine, stateRun, actions, Hierarchy.path, Hierarchy.climb,
        MyStates.flat, h]

/-- Messages lead to the state that the number of ones among them says. -/
theorem current_consumed {own : Ctx MyStates Data} {k : Nat} (hown : own.current = MyStates.after k)
    (handled : List UInt32) :
    (program.consumed own handled).current = MyStates.after (k + handled.count 1) := by
  induction handled generalizing own k with
  | nil => exact hown
  | cons data handled ih =>
      have hstep : (program.process own data).1.current =
          if data = 1 then own.current.other else own.current := current_runState _
      show (program.consumed (program.process own data).1 handled).current = _
      rw [List.count_cons]
      by_cases h : data = 1
      · rw [if_pos h, hown, ← MyStates.after_succ] at hstep
        rw [ih hstep, if_pos (beq_iff_eq.mpr h), Nat.add_right_comm, ← Nat.add_assoc]
      · rw [if_neg h, hown] at hstep
        rw [ih hstep, if_neg (mt beq_iff_eq.mp h), Nat.add_zero]

/-- `dummy_msg` after `k` expiries. -/
def dummyMsg (k : Nat) : UInt32 := if k % 2 = 0 then 0 else 1

theorem dummyMsg_succ (k : Nat) : dummyMsg (k + 1) = dummyMsg k ^^^ 1 := by
  unfold dummyMsg
  rcases Nat.mod_two_eq_zero_or_one k with h | h
  · have hnext : ¬ (k + 1) % 2 = 0 := by omega
    rw [if_pos h, if_neg hnext]
    rfl
  · have hnow : ¬ k % 2 = 0 := by omega
    have hnext : (k + 1) % 2 = 0 := by omega
    rw [if_neg hnow, if_pos hnext]
    rfl

/-- What `k` expiries post. -/
def alternating (k : Nat) : List UInt32 := (List.range k).map dummyMsg

theorem alternating_succ (k : Nat) : alternating (k + 1) = alternating k ++ [dummyMsg k] := by
  unfold alternating
  rw [List.range_succ, List.map_append, List.map_singleton]

theorem alternating_append_messages (k : Nat) (turns : List (Turn Unit)) :
    alternating k ++ program.messages (dummyMsg k) turns =
      alternating (k + (program.messages (dummyMsg k) turns).length) := by
  induction turns generalizing k with
  | nil => exact List.append_nil _
  | cons turn turns ih =>
      rcases turn with _ | _
      · have hmessages : program.messages (dummyMsg k) (.producer () :: turns) =
            dummyMsg k :: program.messages (dummyMsg (k + 1)) turns := by
          rw [dummyMsg_succ]
          rfl
        rw [hmessages, ← List.singleton_append (l := program.messages _ _), ← List.append_assoc,
          ← alternating_succ, ih, List.length_append, List.length_singleton]
        congr 1
        omega
      · exact ih k

theorem count_alternating (k : Nat) : (alternating k).count 1 = k / 2 := by
  induction k with
  | zero => rfl
  | succ k ih =>
      rw [alternating_succ, List.count_append, ih]
      unfold dummyMsg
      split_ifs with h
      · show k / 2 + 0 = _
        omega
      · show k / 2 + 1 = _
        omega

/-- The messages of a list of posts are those taken and those refused. -/
theorem count_posts (posts : List (UInt32 × Bool)) (a : UInt32) :
    (posts.map (·.1)).count a = (taken posts).count a + posts.count (a, false) := by
  induction posts with
  | nil => rfl
  | cons post posts ih =>
      obtain ⟨b, ok⟩ := post
      have htaken : taken ((b, ok) :: posts) = (if ok then [b] else []) ++ taken posts := by
        unfold taken
        rcases ok with _ | _ <;> rfl
      rw [List.map_cons, List.count_cons, List.count_cons, ih, htaken, List.count_append]
      rcases ok with _ | _ <;> by_cases hb : b = a <;> simp [hb] <;> omega

/-- **One transition for every 1.** In any run the machine is in the state that the ones it was run on say, and
these are, with the ones that were refused and the ones that wait for their run, one for every second expiry
of the timer. -/
theorem messageMachine_transitions (garbage : UInt32) (turns : List (Turn Unit)) :
    let s := run garbage turns
    s.own.current = MyStates.after (s.mailbox.handled.count 1) ∧
      s.mailbox.handled.count 1 + (s.mailbox.consumer.inHand ++ s.mailbox.queue.items).count 1 +
        s.mailbox.posts.count (1, false) = s.mailbox.posts.length / 2 := by
  intro s
  have hkept : program.Kept _ s := Program.kept_run 0 _ turns
  have hposts : s.mailbox.posts.map (·.1) = program.messages (dummyMsg 0) turns := Program.posts_run _ turns
  refine ⟨?_, ?_⟩
  · rw [hkept.own_eq, current_consumed (k := 0) rfl, Nat.zero_add]
  · have hcount := count_posts s.mailbox.posts 1
    have halternating : s.mailbox.posts.map (·.1) = alternating s.mailbox.posts.length := by
      have happend := alternating_append_messages 0 turns
      rw [← hposts, List.length_map, Nat.zero_add] at happend
      exact happend
    rw [halternating, count_alternating, ← hkept.accounts.conserved, List.append_assoc,
      List.count_append] at hcount
    omega

end ZephyrSamples.Smf.MessageMachine
