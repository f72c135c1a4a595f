/-
# ZephyrSamples.Lib.Hsm -- hierarchical state machines

States may have a parent, and whoever is in a state is in all its ancestors: the active states are a stack. What
entries, exits and runs may do to such a stack is `Hierarchy.play`, and a transition that leaves what the two
states do not share, the innermost first, and enters the new ones, the outermost first, turns the stack of the
old state into that of the new one (`play_transition`).

A program sees a framework through its functions: it starts a machine, asks for transitions and runs cycles.
`Documented` is what a framework promises of them, and all that is assumed. `reference` is one that keeps the
promises (`reference_documented`).

Nothing here names a program.
-/
import Mathlib.Data.List.Basic
import Mathlib.Data.List.Nodup

namespace ZephyrSamples.Lib

universe u v w

/-- A parent for some of the states. The levels keep a state from being its own ancestor. -/
structure Hierarchy (ι : Type u) where
  parent : ι → Option ι
  level : ι → Nat
  level_lt : ∀ {s p}, parent s = some p → level p < level s

/-- What a machine calls of a state. -/
inductive Move (ι : Type u) where
  | enter (s : ι)
  | exit (s : ι)
  | run (s : ι)
  deriving DecidableEq, Repr

namespace Hierarchy

variable {ι : Type u} (H : Hierarchy ι)

/-- A state and `n` of its ancestors. -/
def climb : Nat → ι → List ι
  | 0, s => [s]
  | n + 1, s =>
      match H.parent s with
      | none => [s]
      | some p => s :: climb n p

/-- The states that are active in `s`, the innermost first. -/
def path (s : ι) : List ι := H.climb (H.level s) s

theorem climb_eq_path {n : Nat} {s : ι} (h : H.level s ≤ n) : H.climb n s = H.path s := by
  suffices hany : ∀ m n s, H.level s ≤ m → H.level s ≤ n → H.climb m s = H.climb n s from
    hany n (H.level s) s h (Nat.le_refl _)
  intro m
  induction m with
  | zero =>
      intro n s hm _
      rcases n with _ | n
      · rfl
      · have hroot : H.parent s = none := by
          rcases hp : H.parent s with _ | p
          · rfl
          · have hlt := H.level_lt hp
            omega
        simp only [climb, hroot]
  | succ m ih =>
      intro n s hm hn
      rcases hp : H.parent s with _ | p
      · rcases n with _ | n <;> simp only [climb, hp]
      · have hlt := H.level_lt hp
        rcases n with _ | n
        · omega
        · simp only [climb, hp]
          rw [ih n p (by omega) (by omega)]

theorem path_of_root {s : ι} (h : H.parent s = none) : H.path s = [s] := by
  rw [← H.climb_eq_path (Nat.le_succ (H.level s))]
  simp only [climb, h]

theorem path_of_parent {s p : ι} (h : H.parent s = some p) : H.path s = s :: H.path p := by
  have hlt := H.level_lt h
  rw [← H.climb_eq_path (Nat.le_succ (H.level s))]
  simp only [climb, h]
  rw [H.climb_eq_path (Nat.le_of_lt hlt)]

/-- Up the hierarchy: from the parent to the state. -/
theorem induction {P : ι → Prop} (root : ∀ s, H.parent s = none → P s)
    (child : ∀ s p, H.parent s = some p → P p → P s) (s : ι) : P s := by
  generalize hn : H.level s = n
  induction n using Nat.strongRecOn generalizing s with
  | _ n ih =>
      rcases hp : H.parent s with _ | p
      · exact root s hp
      · exact child s p hp (ih _ (hn ▸ H.level_lt hp) p rfl)

theorem exists_path_eq (s : ι) : ∃ up, H.path s = s :: up ∧ H.parent s = up.head? := by
  rcases hp : H.parent s with _ | p
  · exact ⟨[], H.path_of_root hp, rfl⟩
  · refine ⟨H.path p, H.path_of_parent hp, ?_⟩
    rcases hpp : H.parent p with _ | q
    · rw [H.path_of_root hpp]
      rfl
    · rw [H.path_of_parent hpp]
      rfl

/-! ## The stack of active states -/

variable [DecidableEq ι]

/-- A state is entered from its parent, left while it is innermost, and run while it is active. -/
def apply (stack : List ι) : Move ι → Option (List ι)
  | .enter s => if H.parent s = stack.head? then some (s :: stack) else none
  | .exit s => if stack.head? = some s then some stack.tail else none
  | .run s => if s ∈ stack then some stack else none

/-- The stack after some moves, if they are allowed. -/
def play (stack : List ι) (moves : List (Move ι)) : Option (List ι) := moves.foldlM H.apply stack

theorem play_append {stack middle : List ι} {before after : List (Move ι)}
    (h : H.play stack before = some middle) :
    H.play stack (before ++ after) = H.play middle after := by
  unfold play at h ⊢
  rw [List.foldlM_append, h]
  rfl

theorem play_exits (below rest : List ι) :
    H.play (below ++ rest) (below.map Move.exit) = some rest := by
  induction below with
  | nil => rfl
  | cons s below ih =>
      have hleave : H.apply (s :: below ++ rest) (.exit s) = some (below ++ rest) := by
        simp [apply]
      unfold play at ih ⊢
      rw [List.map_cons, List.foldlM_cons, hleave]
      exact ih

theorem play_entries {t : ι} {above rest : List ι} (h : H.path t = above ++ rest) :
    H.play rest (above.reverse.map Move.enter) = some (above ++ rest) := by
  induction above generalizing t with
  | nil => rfl
  | cons s above ih =>
      obtain ⟨up, hup, hparent⟩ := H.exists_path_eq t
      rw [h] at hup
      obtain ⟨rfl, rfl⟩ := List.cons.inj hup
      have hbefore : H.play rest (above.reverse.map Move.enter) = some (above ++ rest) := by
        rcases hp : H.parent s with _ | p
        · rw [hp] at hparent
          obtain ⟨rfl, rfl⟩ := List.append_eq_nil_iff.mp (List.head?_eq_none_iff.mp hparent.symm)
          rfl
        · rw [H.path_of_parent hp] at h
          exact ih (List.cons.inj h).2
      have henter : H.apply (above ++ rest) (.enter s) = some (s :: above ++ rest) := by
        simp [apply, hparent]
      rw [List.reverse_cons, List.map_append, H.play_append hbefore]
      simp only [play, List.map_cons, List.map_nil, List.foldlM_cons, List.foldlM_nil, henter]
      rfl

/-- **Transitions keep the stack.** The states below what is shared are left, those of the target entered. -/
theorem play_transition {s t : ι} {below above common : List ι} (hs : H.path s = below ++ common)
    (ht : H.path t = above ++ common) :
    H.play (H.path s) (below.map .exit ++ above.reverse.map .enter) = some (H.path t) := by
  rw [hs, H.play_append (H.play_exits below common), H.play_entries ht, ht]

end Hierarchy

/-! ## Frameworks -/

/-- Entry and exit actions, where a state has any. -/
structure Actions (ι : Type u) (σ : Type v) extends Hierarchy ι where
  entry : ι → Option (σ → σ)
  exit : ι → Option (σ → σ)

namespace Actions

variable {ι : Type u} {σ : Type v} (A : Actions ι σ)

/-- The action called, if there is one. -/
def action : Move ι → Option (σ → σ)
  | .enter s => A.entry s
  | .exit s => A.exit s
  | .run _ => none

def perform (obj : σ) (m : Move ι) : σ :=
  match A.action m with
  | none => obj
  | some f => f obj

/-- Some entries and exits, one after the other. -/
def performAll (ms : List (Move ι)) (obj : σ) : σ := ms.foldl A.perform obj

end Actions

/-- What a run says of the event: whether the ancestors are to run too. -/
inductive Result where
  | handled
  | propagate
  deriving DecidableEq, Repr

/-- The functions of a framework. A context holds the machine's own part, of which the program sees the current
state and the one that is executing, and the program's, which it may change. -/
structure Framework (ι : Type u) (σ : Type v) (κ : Type w) where
  current : κ → ι
  executing : κ → ι
  obj : κ → σ
  update : (σ → σ) → κ → κ
  setInitial : Actions ι σ → ι → σ → κ
  setState : Actions ι σ → ι → κ → κ
  runState : Actions ι σ → (ι → Option (κ → κ × Result)) → κ → κ

/-- What is documented of a framework. -/
structure Framework.Documented {ι : Type u} {σ : Type v} {κ : Type w} (F : Framework ι σ κ) : Prop where
  /-- What the program changes is its own part. -/
  update (f : σ → σ) (c : κ) :
    F.current (F.update f c) = F.current c ∧ F.executing (F.update f c) = F.executing c ∧
      F.obj (F.update f c) = f (F.obj c)
  /-- A machine starts with the entries of its first state and of its ancestors, the outermost first. -/
  initial (A : Actions ι σ) (s : ι) (obj : σ) :
    F.current (F.setInitial A s obj) = s ∧
      F.obj (F.setInitial A s obj) = A.performAll ((A.path s).reverse.map .enter) obj
  /-- A transition that the current state asks for, to one that neither is in the other: the ancestors they share
  are neither left nor entered; the other states of the old one are left, the innermost first, and then those of
  the new one are entered, the outermost first. -/
  transition (A : Actions ι σ) (c : κ) (t : ι) (below above common : List ι) :
    F.executing c = F.current c → A.path (F.current c) = below ++ common → A.path t = above ++ common →
      (∀ s ∈ below, s ∉ above) → below ≠ [] → above ≠ [] →
        F.current (F.setState A t c) = t ∧
          F.obj (F.setState A t c) = A.performAll (below.map .exit ++ above.reverse.map .enter) (F.obj c)
  /-- A cycle runs the current state, and no other one if that handles the event. -/
  cycle (A : Actions ι σ) (run : ι → Option (κ → κ × Result)) (c : κ) (step : κ → κ × Result) :
    run (F.current c) = some step →
      ∃ c', F.current c' = F.current c ∧ F.executing c' = F.current c ∧ F.obj c' = F.obj c ∧
        ((step c').2 = .handled → F.current (F.runState A run c) = F.current (step c').1 ∧
          F.obj (F.runState A run c) = F.obj (step c').1)

/-- **A cycle with a transition.** The current state writes something and asks for another state. -/
theorem Framework.Documented.runState {ι : Type u} {σ : Type v} {κ : Type w} {F : Framework ι σ κ}
    (hF : F.Documented) {A : Actions ι σ} {run : ι → Option (κ → κ × Result)} {c : κ} {f : σ → σ} {t : ι}
    (hrun : run (F.current c) = some fun c => (F.setState A t (F.update f c), .handled))
    {below above common : List ι} (hs : A.path (F.current c) = below ++ common) (ht : A.path t = above ++ common)
    (hdisjoint : ∀ s ∈ below, s ∉ above) (hbelow : below ≠ []) (habove : above ≠ []) :
    F.current (F.runState A run c) = t ∧
      F.obj (F.runState A run c) =
        A.performAll (below.map .exit ++ above.reverse.map .enter) (f (F.obj c)) := by
  obtain ⟨c', hcurrent, hexecuting, hobj, hran⟩ := hF.cycle A run c _ hrun
  obtain ⟨hcurrent', hobj'⟩ := hran rfl
  obtain ⟨hsame, hstill, hwritten⟩ := hF.update f c'
  obtain ⟨hnext, hperformed⟩ := hF.transition A (F.update f c') t below above common
    (by rw [hstill, hsame, hexecuting, hcurrent]) (by rw [hsame, hcurrent, hs]) ht hdisjoint hbelow habove
  refine ⟨hcurrent'.trans hnext, ?_⟩
  rw [hobj', hperformed, hwritten, hobj]

/-! ## A framework -/

/-- A context. `newState` says that the run going on has asked for a transition. -/
structure Ctx (ι : Type u) (σ : Type v) where
  current : ι
  executing : ι
  newState : Bool
  data : σ

def Ctx.update {ι : Type u} {σ : Type v} (c : Ctx ι σ) (f : σ → σ) : Ctx ι σ := { c with data := f c.data }

/-- A machine with run actions, which may ask for a transition. -/
structure Machine (ι : Type u) (σ : Type v) extends Actions ι σ where
  run : ι → Option (Ctx ι σ → Ctx ι σ × Result)

section Reference

variable {ι : Type u} {σ : Type v}

/-- The machine in its first state, all of whose ancestors are entered. -/
def Actions.setInitial (A : Actions ι σ) (s : ι) (data : σ) : Ctx ι σ :=
  ⟨s, s, false, A.performAll ((A.path s).reverse.map .enter) data⟩

variable [DecidableEq ι]

/-- The moves of a transition that the current state asks for. One of a state to itself leaves and enters it. -/
def Hierarchy.moves (H : Hierarchy ι) (s t : ι) : List (Move ι) :=
  if s = t then [.exit t, .enter t]
  else ((H.path s).filter (· ∉ H.path t)).map .exit ++ ((H.path t).filter (· ∉ H.path s)).reverse.map .enter

def Actions.setState (A : Actions ι σ) (t : ι) (c : Ctx ι σ) : Ctx ι σ :=
  ⟨t, t, true, A.performAll (A.moves c.current t) c.data⟩

namespace Machine

variable (M : Machine ι σ)

/-- The runs of some states, one after the other, until one handles the event or asks for a transition. -/
def runPath : List ι → Ctx ι σ → Ctx ι σ
  | [], c => c
  | s :: up, c =>
      match M.run s with
      | none => runPath up c
      | some run =>
          let (c, result) := run { c with executing := s }
          if c.newState || result == .handled then c else runPath up c

/-- One cycle. -/
def runState (c : Ctx ι σ) : Ctx ι σ :=
  { M.runPath (M.path c.current) { c with newState := false } with newState := false }

end Machine

def reference : Framework ι σ (Ctx ι σ) where
  current := Ctx.current
  executing := Ctx.executing
  obj := Ctx.data
  update f c := c.update f
  setInitial := Actions.setInitial
  setState := Actions.setState
  runState A run := Machine.runState ⟨A, run⟩

omit [DecidableEq ι] in
theorem Hierarchy.level_le (H : Hierarchy ι) {s a : ι} (h : a ∈ H.path s) : H.level a ≤ H.level s := by
  induction s using H.induction with
  | root s hroot =>
      rw [H.path_of_root hroot] at h
      exact Nat.le_of_eq (congrArg H.level (List.mem_singleton.mp h))
  | child s p hp ih =>
      rw [H.path_of_parent hp] at h
      rcases List.mem_cons.mp h with rfl | hmem
      · exact Nat.le_refl _
      · exact Nat.le_trans (ih hmem) (Nat.le_of_lt (H.level_lt hp))

omit [DecidableEq ι] in
theorem Hierarchy.nodup_path (H : Hierarchy ι) (s : ι) : (H.path s).Nodup := by
  induction s using H.induction with
  | root s hroot =>
      rw [H.path_of_root hroot]
      exact List.nodup_singleton s
  | child s p hp ih =>
      rw [H.path_of_parent hp, List.nodup_cons]
      refine ⟨fun hmem => ?_, ih⟩
      have hle := H.level_le hmem
      have hlt := H.level_lt hp
      omega

/-- What the two states do not share. -/
theorem Hierarchy.filter_path (H : Hierarchy ι) {s t : ι} {below above common : List ι}
    (hs : H.path s = below ++ common) (ht : H.path t = above ++ common) (hdisjoint : ∀ a ∈ below, a ∉ above) :
    (H.path s).filter (· ∉ H.path t) = below := by
  have hnodup := H.nodup_path s
  rw [hs] at hnodup ⊢
  rw [ht, List.filter_append]
  have hbelow : below.filter (· ∉ above ++ common) = below := by
    rw [List.filter_eq_self]
    intro a ha
    have habove : a ∉ above := hdisjoint a ha
    have hcommon : a ∉ common := List.disjoint_left.mp (List.disjoint_of_nodup_append hnodup) ha
    simp [habove, hcommon]
  have hcommon : common.filter (· ∉ above ++ common) = [] := by
    rw [List.filter_eq_nil_iff]
    intro a ha
    simp [ha]
  rw [hbelow, hcommon, List.append_nil]

theorem Hierarchy.moves_eq (H : Hierarchy ι) {s t : ι} {below above common : List ι}
    (hs : H.path s = below ++ common) (ht : H.path t = above ++ common) (hdisjoint : ∀ a ∈ below, a ∉ above)
    (hbelow : below ≠ []) : H.moves s t = below.map .exit ++ above.reverse.map .enter := by
  have hne : s ≠ t := by
    rintro rfl
    obtain rfl : below = above := List.append_cancel_right (hs.symm.trans ht)
    obtain ⟨a, ha⟩ := List.exists_mem_of_ne_nil below hbelow
    exact hdisjoint a ha ha
  unfold Hierarchy.moves
  rw [if_neg hne, H.filter_path hs ht hdisjoint, H.filter_path ht hs fun a ha hmem => hdisjoint a hmem ha]

/-- **The reference keeps its promises.** -/
theorem reference_documented : (reference : Framework ι σ (Ctx ι σ)).Documented where
  update f c := ⟨rfl, rfl, rfl⟩
  initial A s obj := ⟨rfl, rfl⟩
  transition A c t below above common _ hs ht hdisjoint hbelow _ := by
    refine ⟨rfl, ?_⟩
    have hmoves : A.moves c.current t = below.map .exit ++ above.reverse.map .enter :=
      A.moves_eq hs ht hdisjoint hbelow
    show A.performAll (A.moves c.current t) c.data = _
    rw [hmoves]
    rfl
  cycle A run c step hrun := by
    obtain ⟨up, hup, -⟩ := A.exists_path_eq c.current
    refine ⟨{ c with newState := false, executing := c.current }, rfl, rfl, rfl, fun hhandled => ?_⟩
    have hpath : Machine.runPath ⟨A, run⟩ (A.path c.current) { c with newState := false } =
        (step { c with newState := false, executing := c.current }).1 := by
      change run c.current = some step at hrun
      rw [hup]
      simp only [Machine.runPath, hrun, hhandled]
      simp
    show (Machine.runPath ⟨A, run⟩ (A.path c.current) { c with newState := false }).current = _ ∧
      (Machine.runPath ⟨A, run⟩ (A.path c.current) { c with newState := false }).data = _
    rw [hpath]
    exact ⟨rfl, rfl⟩

end Reference

end ZephyrSamples.Lib
