/-
# ZephyrSamples.Smf.Machines -- the state machine samples that run by the clock

Three samples set up a machine and run it once a second, for ever. `SMF/_02` has two states with entry, run and
exit actions, `SMF/_03` two states that look at a word of user data before they go over to each other, `SMF/_04`
two states under a parent and one beside it. Their runs differ by the number of cycles alone, and each sample
is given by what it has printed after any number of them.

What the text of `SMF/_02` and `SMF/_04` comes to is for the framework to say: it decides which entries and exits
a transition calls, and in which order. So these two are proved for every framework that does what is documented
(`entryExit_printed`, `hierarchical_brackets`). In `SMF/_03` there is nothing to enter or leave. Its guards never
bar the way, because word and state go together; from a start where they do not the machine stands still for ever
(`dataPass_runs`).
-/
import Mathlib.Logic.Function.Iterate
import ZephyrSamples.Lib.Hsm

namespace ZephyrSamples.Smf

open ZephyrSamples.Lib

/-- `MyStates`, where there are two. -/
inductive MyStates where
  | state1
  | state2
  deriving DecidableEq, Repr

namespace MyStates

/-- No state has a parent. -/
def flat : Hierarchy MyStates where
  parent _ := none
  level _ := 0
  level_lt h := by cases h

def other : MyStates → MyStates
  | .state1 => .state2
  | .state2 => .state1

/-- The state after `n` transitions to the other one. -/
def after (n : Nat) : MyStates := if n % 2 = 0 then .state1 else .state2

theorem after_succ (n : Nat) : after (n + 1) = (after n).other := by
  unfold after
  rcases Nat.mod_two_eq_zero_or_one n with h | h
  · have hnext : ¬ (n + 1) % 2 = 0 := by omega
    rw [if_pos h, if_neg hnext]
    rfl
  · have hnow : ¬ n % 2 = 0 := by omega
    have hnext : (n + 1) % 2 = 0 := by omega
    rw [if_neg hnow, if_pos hnext]
    rfl

end MyStates

/-- `main` after `n` iterations of its loop. -/
def cycles {κ : Type} (runState before : κ → κ) (start : κ) : Nat → κ
  | 0 => start
  | n + 1 => runState (before (cycles runState before start n))

/-- What every cycle keeps holds after any number of them. -/
theorem cycles_induction {κ : Type} {runState before : κ → κ} {start : κ} {P : Nat → κ → Prop}
    (hstart : P 0 start) (hcycle : ∀ n c, P n c → P (n + 1) (runState (before c))) (n : Nat) :
    P n (cycles runState before start n) := by
  induction n with
  | zero => exact hstart
  | succ n ih => exact hcycle n _ ih

def printk (line : String) (printed : List String) : List String := printed ++ [line]

def cycleLine : String := "----- Machine cycle -----\n"

/-! ## `SMF/_02`: entry, run and exit -/

namespace EntryExit

open MyStates

def entryLine : MyStates → String
  | .state1 => "State 1 entry.\n"
  | .state2 => "State 2 entry.\n"

def runLine : MyStates → String
  | .state1 => "State 1 run.\n"
  | .state2 => "State 2 run.\n"

def exitLine : MyStates → String
  | .state1 => "State 1 exit.\n"
  | .state2 => "State 2 exit.\n"

def actions : Actions MyStates (List String) where
  toHierarchy := flat
  entry s := some (printk (entryLine s))
  exit s := some (printk (exitLine s))

section

variable {κ : Type} (F : Framework MyStates (List String) κ)

/-- `state1_run` and `state2_run` -/
def stateRun (s : MyStates) (c : κ) : κ × Result :=
  (F.setState actions s.other (F.update (printk (runLine s)) c), .handled)

/-- The runs of `state_table`. -/
def run (s : MyStates) : Option (κ → κ × Result) := some (stateRun F s)

def start : κ := F.setInitial actions .state1 []

def main (n : Nat) : κ := cycles (F.runState actions (run F)) (F.update (printk cycleLine)) (start F) n

/-- What a state prints from its entry to its exit, with the cycle it is run in. -/
def visit (s : MyStates) : List String := [entryLine s, cycleLine, runLine s, exitLine s]

variable {F}

theorem runState_eq (hF : F.Documented) (c : κ) :
    F.current (F.runState actions (run F) c) = (F.current c).other ∧
      F.obj (F.runState actions (run F) c) =
        F.obj c ++ [runLine (F.current c), exitLine (F.current c), entryLine (F.current c).other] := by
  have hs : actions.path (F.current c) = [F.current c] ++ [] := flat.path_of_root rfl
  have ht : actions.path (F.current c).other = [(F.current c).other] ++ [] := flat.path_of_root rfl
  have hdisjoint : ∀ s ∈ [F.current c], s ∉ [(F.current c).other] := by
    cases F.current c <;> decide
  have hrun : run F (F.current c) = some (stateRun F (F.current c)) := rfl
  obtain ⟨hnext, hprinted⟩ := hF.runState hrun hs ht hdisjoint (by simp) (by simp)
  refine ⟨hnext, hprinted.trans ?_⟩
  show F.obj c ++ _ ++ _ ++ _ = _
  rw [List.append_assoc, List.append_assoc]
  rfl

/-- **Visits are complete.** After any number of cycles the text is that many visits, the states by turns, and
the entry of the state that will run next. -/
theorem entryExit_printed (hF : F.Documented) (n : Nat) :
    F.obj (main F n) = (List.range n).flatMap (fun k => visit (after k)) ++ [entryLine (after n)] ∧
      F.current (main F n) = after n := by
  obtain ⟨hfirst, hentered⟩ := hF.initial actions .state1 []
  refine cycles_induction (P := fun n c =>
    F.obj c = (List.range n).flatMap (fun k => visit (after k)) ++ [entryLine (after n)] ∧
      F.current c = after n) ⟨hentered, hfirst⟩ ?_ n
  rintro n c ⟨hdata, hcurrent⟩
  obtain ⟨hsame, -, hmarked⟩ := hF.update (printk cycleLine) c
  obtain ⟨hnext, hprinted⟩ := runState_eq hF (F.update (printk cycleLine) c)
  rw [hnext, hprinted, hsame, hcurrent, hmarked, hdata, ← after_succ]
  refine ⟨?_, rfl⟩
  rw [List.range_succ, List.flatMap_append]
  simp [visit, printk]

/-- Three cycles. -/
theorem entryExit_printed_three : (main reference 3).data =
      visit .state1 ++ visit .state2 ++ visit .state1 ++ [entryLine .state2] ∧
    (main reference 3).current = .state2 :=
  entryExit_printed reference_documented 3

end

end EntryExit

/-! ## `SMF/_03`: user data -/

namespace DataPass

open MyStates

/-- `struct state_machine`, but for the machine's own part. -/
structure Data where
  event : UInt32
  printed : List String

/-- `%d` of a word -/
def runLine (s : MyStates) (event : UInt32) : String :=
  let name := match s with
    | .state1 => "State 1"
    | .state2 => "State 2"
  name ++ " run, event = " ++ toString event.toInt32 ++ ".\n"

def actions : Actions MyStates Data where
  toHierarchy := flat
  entry _ := none
  exit _ := none

/-- The event that a state waits for, and the one it leaves. -/
def awaited : MyStates → UInt32
  | .state1 => 0
  | .state2 => 1

/-- `state1_run` and `state2_run` -/
def stateRun (s : MyStates) (c : Ctx MyStates Data) : Ctx MyStates Data × Result :=
  let c := c.update fun obj => { obj with printed := printk (runLine s obj.event) obj.printed }
  if c.data.event = awaited s then
    (actions.setState s.other (c.update fun obj => { obj with event := awaited s.other }), .handled)
  else (c, .handled)

def machine : Machine MyStates Data where
  toActions := actions
  run s := some (stateRun s)

/-- A start in any state with any event. `main` starts in `state1` with 0. -/
def start (s : MyStates) (event : UInt32) : Ctx MyStates Data := actions.setInitial s ⟨event, []⟩

def main (s : MyStates) (event : UInt32) (n : Nat) : Ctx MyStates Data := cycles machine.runState id (start s event) n

/-- A cycle with the event awaited. -/
theorem runState_of_awaited {c : Ctx MyStates Data} (h : c.data.event = awaited c.current) :
    (machine.runState c).current = c.current.other ∧
      (machine.runState c).data =
        ⟨awaited c.current.other, c.data.printed ++ [runLine c.current (awaited c.current)]⟩ := by
  obtain ⟨current, executing, newState, ⟨event, printed⟩⟩ := c
  obtain rfl : event = awaited current := h
  rcases current with _ | _
  · exact ⟨rfl, rfl⟩
  · exact ⟨rfl, rfl⟩

/-- One with another. -/
theorem runState_of_not_awaited {c : Ctx MyStates Data} (h : c.data.event ≠ awaited c.current) :
    (machine.runState c).current = c.current ∧
      (machine.runState c).data =
        { c.data with printed := c.data.printed ++ [runLine c.current c.data.event] } := by
  obtain ⟨current, executing, newState, ⟨event, printed⟩⟩ := c
  rcases current with _ | _
  all_goals
    simp only [ne_eq] at h
    simp [Machine.runState, Machine.runPath, machine, stateRun, actions, Hierarchy.path, Hierarchy.climb, flat,
      Ctx.update, printk, h]

/-- `n` cycles with the event awaited each time. -/
structure Alternated (s : MyStates) (n : Nat) (c : Ctx MyStates Data) : Prop where
  current : c.current = other^[n] s
  event : c.data.event = awaited (other^[n] s)
  printed : c.data.printed = (List.range n).map fun k => runLine (other^[k] s) (awaited (other^[k] s))

/-- `n` cycles with another event. -/
structure Stuck (s : MyStates) (event : UInt32) (n : Nat) (c : Ctx MyStates Data) : Prop where
  current : c.current = s
  printed : c.data.printed = List.replicate n (runLine s event)
  event : c.data.event = event

/-- **All or nothing.** A machine whose event is the one awaited goes over in every cycle and finds the event
awaited there again; any other stays where it is for ever, with the same line each cycle. -/
theorem dataPass_runs (s : MyStates) (event : UInt32) (n : Nat) :
    if event = awaited s then Alternated s n (main s event n) else Stuck s event n (main s event n) := by
  split_ifs with h
  · refine cycles_induction (P := Alternated s) ⟨rfl, h, rfl⟩ ?_ n
    intro n c hc
    have hawaited : c.data.event = awaited c.current := by
      rw [hc.current]
      exact hc.event
    obtain ⟨hnext, hran⟩ := runState_of_awaited hawaited
    rw [hc.current] at hnext hran
    rw [hc.printed] at hran
    refine ⟨?_, ?_, ?_⟩
    · rw [id, hnext, Function.iterate_succ_apply']
    · rw [id, hran, Function.iterate_succ_apply']
    · rw [id, hran, List.range_succ, List.map_append, List.map_singleton]
  · refine cycles_induction (P := Stuck s event) ⟨rfl, rfl, rfl⟩ ?_ n
    intro n c hc
    have hother : c.data.event ≠ awaited c.current := by
      rw [hc.current, hc.event]
      exact h
    obtain ⟨hnext, hran⟩ := runState_of_not_awaited hother
    have hdata : c.data = ⟨event, List.replicate n (runLine s event)⟩ := by
      rw [← hc.printed, ← hc.event]
    rw [hc.current, hdata] at hran
    refine ⟨hnext.trans hc.current, ?_, ?_⟩
    · rw [id, hran, List.replicate_succ']
    · rw [id, hran]

end DataPass

/-! ## `SMF/_04`: a parent -/

namespace Hierarchical

inductive MyStates where
  | parent
  | state1
  | state2
  | state3
  deriving DecidableEq, Repr

/-- `state_table`: the two children of `parent`. -/
def family : Hierarchy MyStates where
  parent
    | .state1 | .state2 => some .parent
    | .parent | .state3 => none
  level
    | .state1 | .state2 => 1
    | .parent | .state3 => 0
  level_lt := by
    intro s p h
    rcases s with _ | _ | _ | _ <;> cases h <;> exact Nat.zero_lt_one

def entering : String := "Entering Parent State.\n"

def exiting : String := "Exiting Parent State.\n"

def actions : Actions MyStates (List String) where
  toHierarchy := family
  entry
    | .parent => some (printk entering)
    | _ => none
  exit
    | .parent => some (printk exiting)
    | _ => none

/-- Where a state goes over to. -/
def next : MyStates → MyStates
  | .parent => .parent
  | .state1 => .state2
  | .state2 => .state3
  | .state3 => .state1

def runLine : MyStates → String
  | .parent => ""
  | .state1 => "State 1 running.\n"
  | .state2 => "State 2 running.\n"
  | .state3 => "State 3 running.\n"

section

variable {κ : Type} (F : Framework MyStates (List String) κ)

/-- `state1_run`, `state2_run` and `state3_run` -/
def stateRun (s : MyStates) (c : κ) : κ × Result :=
  (F.setState actions (next s) (F.update (printk (runLine s)) c), .handled)

/-- The runs of `state_table`. -/
def run : MyStates → Option (κ → κ × Result)
  | .parent => none
  | .state1 => some (stateRun F .state1)
  | .state2 => some (stateRun F .state2)
  | .state3 => some (stateRun F .state3)

def start : κ := F.setInitial actions .state1 []

def main (n : Nat) : κ := cycles (F.runState actions (run F)) (F.update (printk cycleLine)) (start F) n

end

/-- What a call prints. -/
def line : Move MyStates → Option String
  | .enter .parent => some entering
  | .exit .parent => some exiting
  | .run s => some (runLine s)
  | _ => none

/-! ### A transition -/

/-- The states that the transition of a state leaves, the innermost first. -/
def leaves : MyStates → List MyStates
  | .parent => []
  | .state1 => [.state1]
  | .state2 => [.state2, .parent]
  | .state3 => [.state3]

/-- Those it enters. -/
def enters : MyStates → List MyStates
  | .parent => []
  | .state1 => [.state2]
  | .state2 => [.state3]
  | .state3 => [.state1, .parent]

/-- Those it keeps. -/
def keeps : MyStates → List MyStates
  | .parent | .state1 => [.parent]
  | .state2 | .state3 => []

theorem path_eq (s : MyStates) :
    family.path s = leaves s ++ keeps s ∧ family.path (next s) = enters s ++ keeps s := by
  cases s <;> exact ⟨rfl, rfl⟩

/-- What a cycle calls. -/
def calls (s : MyStates) : List (Move MyStates) :=
  .run s :: ((leaves s).map .exit ++ (enters s).reverse.map .enter)

theorem play_calls (s : MyStates) : family.play (family.path s) (calls s) = some (family.path (next s)) := by
  obtain ⟨hs, hnext⟩ := path_eq s
  have hrun : family.apply (family.path s) (.run s) = some (family.path s) := by
    cases s <;> rfl
  unfold Hierarchy.play calls
  rw [List.foldlM_cons, hrun]
  exact family.play_transition hs hnext

theorem performAll_calls (s : MyStates) (text : List String) :
    actions.performAll ((leaves s).map .exit ++ (enters s).reverse.map .enter) (printk (runLine s) text) =
      text ++ (calls s).filterMap line := by
  cases s <;>
    simp [Actions.performAll, Actions.perform, Actions.action, actions, leaves, enters, calls, line, printk,
      List.filterMap_cons]

section

variable {κ : Type} {F : Framework MyStates (List String) κ}

theorem runState_eq (hF : F.Documented) {c : κ} (h : F.current c ≠ .parent) :
    F.current (F.runState actions (run F) c) = next (F.current c) ∧
      F.obj (F.runState actions (run F) c) = F.obj c ++ (calls (F.current c)).filterMap line := by
  obtain ⟨hs, ht⟩ := path_eq (F.current c)
  have hrun : run F (F.current c) = some (stateRun F (F.current c)) := by
    revert h
    cases F.current c <;> simp [run]
  have hdisjoint : ∀ s ∈ leaves (F.current c), s ∉ enters (F.current c) := by
    cases F.current c <;> decide
  have hchanges : leaves (F.current c) ≠ [] ∧ enters (F.current c) ≠ [] := by
    revert h
    cases F.current c <;> simp [leaves, enters]
  obtain ⟨hnext, hprinted⟩ := hF.runState hrun hs ht hdisjoint hchanges.1 hchanges.2
  rw [performAll_calls] at hprinted
  exact ⟨hnext, hprinted⟩

/-- The state in turn, and how often the parent has been entered and left. -/
structure Turn (F : Framework MyStates (List String) κ) (n : Nat) (c : κ) : Prop where
  current : F.current c = next^[n] .state1
  played : ∃ moves, family.play [] moves = some (family.path (F.current c)) ∧
    (F.obj c).filter (fun l => l ≠ cycleLine) = moves.filterMap line
  entered : (F.obj c).count entering = n / 3 + 1
  left : (F.obj c).count exiting = (n + 1) / 3

/-- The states in turn. -/
theorem iterate_next (n : Nat) :
    next^[n] .state1 = if n % 3 = 0 then .state1 else if n % 3 = 1 then .state2 else .state3 := by
  induction n with
  | zero => rfl
  | succ n ih =>
      rw [Function.iterate_succ_apply', ih]
      have hcases : n % 3 = 0 ∨ n % 3 = 1 ∨ n % 3 = 2 := by omega
      rcases hcases with h | h | h
      · have hnext : (n + 1) % 3 = 1 := by omega
        rw [h, hnext]
        rfl
      · have hnext : (n + 1) % 3 = 2 := by omega
        rw [h, hnext]
        rfl
      · have hnext : (n + 1) % 3 = 0 := by omega
        rw [h, hnext]
        rfl

theorem Turn.start (hF : F.Documented) : Turn F 0 (start F) := by
  obtain ⟨hfirst, hentered⟩ := hF.initial actions .state1 []
  have hobj : F.obj (Hierarchical.start F) = [entering] := hentered
  refine ⟨hfirst, ⟨(family.path .state1).reverse.map .enter, ?_, ?_⟩, ?_, ?_⟩
  · have hcurrent : F.current (Hierarchical.start F) = .state1 := hfirst
    have hentries := family.play_entries (List.append_nil (family.path .state1)).symm
    rw [hcurrent]
    simpa using hentries
  all_goals
    rw [hobj]
    decide

/-- A cycle of the state in turn. -/
theorem Turn.runState (hF : F.Documented) {n : Nat} {c : κ} (h : Turn F n c) :
    Turn F (n + 1) (F.runState actions (run F) (F.update (printk cycleLine) c)) := by
  obtain ⟨hsame, -, hmarked⟩ := hF.update (printk cycleLine) c
  obtain ⟨hturn, ⟨moves, hplayed, htext⟩, hentered, hleft⟩ := h
  have hparent : F.current c ≠ .parent := by
    rw [hturn, iterate_next]
    split_ifs <;> decide
  obtain ⟨hnext, hran⟩ := runState_eq hF (c := F.update (printk cycleLine) c) (by rwa [hsame])
  rw [hsame] at hnext hran
  have hobj : F.obj (F.runState actions (run F) (F.update (printk cycleLine) c)) =
      F.obj c ++ [cycleLine] ++ (calls (F.current c)).filterMap line := by
    rw [hran, hmarked]
    rfl
  have hlines : ∀ s, ((calls s).filterMap line).filter (fun l => l ≠ cycleLine) = (calls s).filterMap line := by
    intro s
    cases s <;> decide
  refine ⟨?_, ⟨moves ++ calls (F.current c), ?_, ?_⟩, ?_, ?_⟩
  · rw [hnext, hturn, Function.iterate_succ_apply']
  · rw [family.play_append hplayed, play_calls, hnext]
  · rw [hobj, List.filter_append, List.filter_append, List.filterMap_append, htext, hlines]
    simp
  · rw [hobj, List.count_append, List.count_append, hentered, hturn, iterate_next]
    split_ifs with h0 h1
    · show n / 3 + 1 + 0 + 0 = _
      omega
    · show n / 3 + 1 + 0 + 0 = _
      omega
    · show n / 3 + 1 + 0 + 1 = _
      omega
  · rw [hobj, List.count_append, List.count_append, hleft, hturn, iterate_next]
    split_ifs with h0 h1
    · show (n + 1) / 3 + 0 + 0 = _
      omega
    · show (n + 1) / 3 + 0 + 1 = _
      omega
    · show (n + 1) / 3 + 0 + 0 = _
      omega

/-- **The parent brackets its children.** After any number of cycles the text, but for the marks of the
cycles, is that of entries, exits and runs that follow the hierarchy and have led to the current state and its
ancestors. The parent is entered at the start and in every third cycle, and left in the cycle before. -/
theorem hierarchical_brackets (hF : F.Documented) (n : Nat) :
    (∃ moves, family.play [] moves = some (family.path (F.current (main F n))) ∧
        (F.obj (main F n)).filter (fun l => l ≠ cycleLine) = moves.filterMap line) ∧
      F.current (main F n) = next^[n] .state1 ∧
      (F.obj (main F n)).count entering = n / 3 + 1 ∧ (F.obj (main F n)).count exiting = (n + 1) / 3 := by
  have hturn : Turn F n (main F n) :=
    cycles_induction (P := Turn F) (Turn.start hF) (fun _ _ h => h.runState hF) n
  exact ⟨hturn.played, hturn.current, hturn.entered, hturn.left⟩

/-- A round of the three states, and the first of the next. -/
theorem hierarchical_brackets_round :
    (∃ moves, family.play [] moves = some [.state2, .parent] ∧
        (main reference 4).data.filter (fun l => l ≠ cycleLine) = moves.filterMap line) ∧
      (main reference 4).current = .state2 ∧
      (main reference 4).data.count entering = 2 ∧ (main reference 4).data.count exiting = 1 :=
  hierarchical_brackets reference_documented 4

end

end Hierarchical

end ZephyrSamples.Smf
