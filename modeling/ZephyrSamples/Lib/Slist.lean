/-
# ZephyrSamples.Lib.Slist -- intrusive singly linked lists

The list object holds a head and a tail, and every node holds its own `next` pointer, so a node can be
in one place only: linking it again rewrites the pointer the first place depends on. `Represents s l`
says that the pointers of `s` spell the nodes of `l`, each once. Under the side condition that the node
is not in the list, the operations are those of `List` (`Represents.prepend`, `Represents.append`,
`Represents.get`). Without it, prepending closes a cycle (`not_acyclic_prepend`), and a loop that
removes nodes until the list is empty ends only on acyclic lists (`takeAll_isSome_iff`).

The type of the nodes is arbitrary.
-/
import Mathlib.Data.List.Basic
import Mathlib.Logic.Function.Basic

namespace ZephyrSamples.Lib

variable {ν : Type*}

/-- A list object and the `next` pointers of all nodes, linked or not. -/
structure Slist (ν : Type*) where
  head : Option ν
  tail : Option ν
  next : ν → Option ν

namespace Slist

/-! ## Operations -/

/-- The list at its definition. -/
def empty (next : ν → Option ν) : Slist ν := ⟨none, none, next⟩

section Operations

variable [DecidableEq ν]

def setNext (s : Slist ν) (x : ν) (p : Option ν) : Slist ν :=
  { s with next := Function.update s.next x p }

/-- The node points to the old head and becomes the head, and the tail too if there is none. -/
def prepend (s : Slist ν) (x : ν) : Slist ν :=
  let s := s.setNext x s.head
  { s with head := some x, tail := if s.tail = none then some x else s.tail }

/-- The node ends the list and is linked behind the tail; if there is none it is head and tail. -/
def append (s : Slist ν) (x : ν) : Slist ν :=
  let s := s.setNext x none
  match s.tail with
  | none => { s with head := some x, tail := some x }
  | some t => { s.setNext t (some x) with tail := some x }

/-- The head is removed, and if it was the tail too, the tail is what the head is then. -/
def get (s : Slist ν) : Option ν × Slist ν :=
  match s.head with
  | none => (none, s)
  | some x => (some x,
      { s with head := s.next x, tail := if s.tail = some x then s.next x else s.tail })

end Operations

/-! ## Walks along the pointers -/

/-- Following the pointers from `p` spells `l` and arrives at `q`. -/
def Walk (next : ν → Option ν) (p : Option ν) : List ν → Option ν → Prop
  | [], q => p = q
  | x :: l, q => p = some x ∧ Walk next (next x) l q

/-- A walk that ends spells the list. -/
abbrev Path (next : ν → Option ν) (p : Option ν) (l : List ν) : Prop := Walk next p l none

/-- The pointers end. -/
def Acyclic (s : Slist ν) : Prop := ∃ l, Path s.next s.head l

/-- The node is reached from the head. -/
def Linked (s : Slist ν) (x : ν) : Prop := ∃ l, Walk s.next s.head l (some x)

variable {next : ν → Option ν} {p q : Option ν} {l l' : List ν} {x : ν}

theorem walk_append : Walk next p (l ++ l') q ↔ ∃ r, Walk next p l r ∧ Walk next r l' q := by
  induction l generalizing p with
  | nil =>
      constructor
      · intro h
        exact ⟨p, rfl, h⟩
      · rintro ⟨r, rfl, h⟩
        exact h
  | cons y ys ih =>
      show p = some y ∧ Walk next (next y) (ys ++ l') q ↔ _
      rw [ih]
      constructor
      · rintro ⟨hp, r, hr, hq⟩
        exact ⟨r, ⟨hp, hr⟩, hq⟩
      · rintro ⟨r, ⟨hp, hr⟩, hq⟩
        exact ⟨hp, r, hr, hq⟩

/-- A finished walk goes through every place a walk from the same start reaches. -/
theorem Walk.suffix {r : Option ν} (h : Walk next p l r) (hl : Path next p l') :
    ∃ rest, l' = l ++ rest ∧ Path next r rest := by
  induction l generalizing p l' with
  | nil => exact ⟨l', rfl, (show p = r from h) ▸ hl⟩
  | cons y ys ih =>
      obtain ⟨rfl, hys⟩ := h
      rcases l' with _ | ⟨z, zs⟩
      · exact absurd (show some y = none from hl) (by simp)
      · obtain ⟨hyz, hzs⟩ := hl
        obtain rfl := Option.some.inj hyz
        obtain ⟨rest, rfl, hrest⟩ := ih hys hzs
        exact ⟨rest, rfl, hrest⟩

/-- The pointers spell one list. -/
theorem path_unique (h : Path next p l) (h' : Path next p l') : l' = l := by
  obtain ⟨rest, rfl, hrest⟩ := h.suffix h'
  rcases rest with _ | ⟨y, ys⟩
  · exact List.append_nil l
  · exact absurd hrest.1 (by simp)

/-- A list that ends visits no node twice. -/
theorem path_nodup (h : Path next p l) : l.Nodup := by
  induction l generalizing p with
  | nil => exact List.nodup_nil
  | cons y ys ih =>
      refine List.nodup_cons.mpr ⟨fun hmem => ?_, ih h.2⟩
      -- from a second visit on, the rest would repeat the list from the first visit on
      obtain ⟨front, back, rfl⟩ := List.append_of_mem hmem
      obtain ⟨r, -, hr⟩ := walk_append.mp h.2
      have hagain : Path next p (y :: back) := ⟨h.1, hr.2⟩
      have hlen := congrArg List.length (path_unique h hagain)
      simp only [List.length_cons, List.length_append] at hlen
      omega

/-- Rewriting the pointer of a node the walk does not leave from changes nothing. -/
theorem walk_update [DecidableEq ν] (hx : x ∉ l) (r : Option ν) :
    Walk (Function.update next x r) p l q ↔ Walk next p l q := by
  induction l generalizing p with
  | nil => exact Iff.rfl
  | cons y ys ih =>
      simp only [List.mem_cons, not_or] at hx
      show p = some y ∧ Walk _ (Function.update next x r y) ys q ↔ p = some y ∧ Walk _ (next y) ys q
      rw [Function.update_of_ne (Ne.symm hx.1), ih hx.2]

/-! ## Represented lists -/

/-- The pointers spell `l`, and the tail is its last node. -/
structure Represents (s : Slist ν) (l : List ν) : Prop where
  path : Path s.next s.head l
  tail : s.tail = l.getLast?

namespace Represents

variable {s : Slist ν}

theorem empty (next : ν → Option ν) : Represents (Slist.empty next) [] := ⟨rfl, rfl⟩

theorem nodup (h : Represents s l) : l.Nodup := path_nodup h.path

theorem acyclic (h : Represents s l) : s.Acyclic := ⟨l, h.path⟩

theorem unique (h : Represents s l) (h' : Represents s l') : l' = l := path_unique h.path h'.path

/-- The nodes linked are the nodes of the list. -/
theorem linked_iff (h : Represents s l) : s.Linked x ↔ x ∈ l := by
  constructor
  · rintro ⟨front, hfront⟩
    obtain ⟨rest, rfl, hrest⟩ := hfront.suffix h.path
    rcases rest with _ | ⟨y, ys⟩
    · exact absurd (show some x = none from hrest) (by simp)
    · obtain rfl := Option.some.inj hrest.1
      exact List.mem_append_right front List.mem_cons_self
  · intro hmem
    obtain ⟨front, back, rfl⟩ := List.append_of_mem hmem
    obtain ⟨r, hfront, hback⟩ := walk_append.mp h.path
    refine ⟨front, ?_⟩
    rw [← show r = some x from hback.1]
    exact hfront

section Operations

variable [DecidableEq ν]

/-- The pointer of a node that is not linked may become anything. -/
theorem relink (h : Represents s l) (hx : x ∉ l) (r : Option ν) : Represents (s.setNext x r) l :=
  ⟨(walk_update hx r).mpr h.path, h.tail⟩

/-- Prepending a node that is not linked. -/
theorem prepend (h : Represents s l) (hx : x ∉ l) : Represents (s.prepend x) (x :: l) where
  path := by
    refine ⟨rfl, ?_⟩
    show Walk (Function.update s.next x s.head) (Function.update s.next x s.head x) l none
    rw [Function.update_self, walk_update hx]
    exact h.path
  tail := by
    show (if s.tail = none then some x else s.tail) = _
    rw [h.tail]
    rcases l with _ | ⟨y, ys⟩
    · rfl
    · simp

/-- Appending a node that is not linked. -/
theorem append (h : Represents s l) (hx : x ∉ l) : Represents (s.append x) (l ++ [x]) := by
  rcases List.eq_nil_or_concat l with rfl | ⟨front, t, rfl⟩
  · have htail : s.tail = none := h.tail
    have happ : s.append x = ⟨some x, some x, Function.update s.next x none⟩ := by
      simp [Slist.append, setNext, htail]
    rw [happ]
    have hnext : Function.update s.next x none x = none := Function.update_self ..
    exact ⟨⟨rfl, hnext⟩, rfl⟩
  · -- the old tail is the one node of the list whose pointer changes
    rw [List.concat_eq_append] at *
    have htail : s.tail = some t := by
      rw [h.tail]
      simp
    have happ : s.append x = ⟨s.head, some x,
        Function.update (Function.update s.next x none) t (some x)⟩ := by
      simp [Slist.append, setNext, htail]
    simp only [List.mem_append, List.mem_singleton, not_or] at hx
    have hnodup := h.nodup
    have ht : t ∉ front := by
      intro hmem
      exact (List.nodup_append.mp hnodup).2.2 t hmem t (List.mem_singleton.mpr rfl) rfl
    obtain ⟨r, hfront, hback⟩ := walk_append.mp h.path
    rw [happ]
    refine ⟨?_, by simp⟩
    rw [List.append_assoc]
    refine walk_append.mpr ⟨r, ?_, hback.1, ?_⟩
    · rw [walk_update ht, walk_update hx.1]
      exact hfront
    · have hlast : Function.update (Function.update s.next x none) t (some x) t = some x :=
        Function.update_self ..
      have hend : Function.update (Function.update s.next x none) t (some x) x = none := by
        rw [Function.update_of_ne hx.2, Function.update_self]
      exact ⟨hlast, hend⟩

/-- Removing the head. -/
theorem get (h : Represents s (x :: l)) : s.get.1 = some x ∧ Represents s.get.2 l := by
  have hget : s.get = (some x,
      { s with head := s.next x, tail := if s.tail = some x then s.next x else s.tail }) := by
    unfold Slist.get
    rw [h.path.1]
  rw [hget]
  refine ⟨rfl, h.path.2, ?_⟩
  have htail : s.tail = (x :: l).getLast? := h.tail
  show (if s.tail = some x then s.next x else s.tail) = l.getLast?
  rcases l with _ | ⟨y, ys⟩
  · have hone : s.tail = some x := htail
    rw [if_pos hone]
    exact h.path.2
  · have hne : s.tail ≠ some x := by
      rw [htail, List.getLast?_cons_cons]
      intro heq
      exact (List.nodup_cons.mp h.nodup).1 (List.mem_of_getLast? heq)
    rw [if_neg hne, htail, List.getLast?_cons_cons]

end Operations

end Represents

section Loops

variable [DecidableEq ν]

/-! ## Relinking -/

/-- **Prepending a linked node.** From the node the pointers lead back to the old head and from there to
the node: the list has no end. -/
theorem not_acyclic_prepend {s : Slist ν} (hx : s.Linked x) : ¬ (s.prepend x).Acyclic := by
  -- up to the first visit of the node, no pointer of the walk is rewritten
  have hfirst : ∃ front, x ∉ front ∧ Walk s.next s.head front (some x) := by
    obtain ⟨l, hl⟩ := hx
    by_cases hmem : x ∈ l
    · obtain ⟨front, back, rfl, hfront⟩ := List.eq_append_cons_of_mem hmem
      obtain ⟨r, hr, hback⟩ := walk_append.mp hl
      exact ⟨front, hfront, (show r = some x from hback.1) ▸ hr⟩
    · exact ⟨l, hmem, hl⟩
  obtain ⟨front, hnotin, hwalk⟩ := hfirst
  have hback : Walk (s.prepend x).next (some x) (x :: front) (some x) := by
    refine ⟨rfl, ?_⟩
    show Walk (Function.update s.next x s.head) (Function.update s.next x s.head x) front _
    rw [Function.update_self, walk_update hnotin]
    exact hwalk
  rintro ⟨l, hl⟩
  obtain ⟨rest, rfl, hrest⟩ := hback.suffix hl
  have hlen := congrArg List.length (path_unique hrest hl)
  simp only [List.length_append, List.length_cons] at hlen
  omega

/-! ## Removing everything -/

/-- The loop that removes nodes until the list is empty, with at most `n` removals: the nodes, and the
list it leaves. -/
def takeAll : Nat → Slist ν → Option (List ν × Slist ν)
  | 0, s => if s.head = none then some ([], s) else none
  | n + 1, s =>
      match s.get with
      | (none, s) => some ([], s)
      | (some x, s) => (takeAll n s).map fun r => (x :: r.1, r.2)

theorem get_of_head_none {s : Slist ν} (h : s.head = none) : s.get = (none, s) := by
  unfold get
  rw [h]

theorem get_of_head {s : Slist ν} (h : s.head = some x) :
    s.get.1 = some x ∧ s.get.2.head = s.next x ∧ s.get.2.next = s.next := by
  unfold get
  rw [h]
  exact ⟨rfl, rfl, rfl⟩

theorem takeAll_nil {s : Slist ν} (h : s.head = none) (n : Nat) : takeAll n s = some ([], s) := by
  cases n with
  | zero => exact if_pos h
  | succ n =>
      unfold takeAll
      rw [get_of_head_none h]

theorem takeAll_succ {s : Slist ν} (h : s.get.1 = some x) (n : Nat) :
    takeAll (n + 1) s = (takeAll n s.get.2).map fun r => (x :: r.1, r.2) := by
  rw [takeAll]
  rcases hget : s.get with ⟨y, s'⟩
  rw [hget] at h
  obtain rfl : y = some x := h
  rfl

/-- On a represented list the loop takes the nodes in order and leaves nothing. -/
theorem Represents.of_takeAll {s : Slist ν} (h : Represents s l) {n : Nat} {r : List ν × Slist ν}
    (hr : takeAll n s = some r) : r.1 = l ∧ Represents r.2 [] := by
  induction l generalizing s n r with
  | nil =>
      rw [takeAll_nil h.path] at hr
      obtain rfl := Option.some.inj hr
      exact ⟨rfl, h⟩
  | cons x xs ih =>
      obtain ⟨hget, hrest⟩ := h.get
      cases n with
      | zero =>
          have hhead : s.head ≠ none := by
            rw [h.path.1]
            simp
          rw [takeAll, if_neg hhead] at hr
          cases hr
      | succ n =>
          rw [takeAll_succ hget] at hr
          obtain ⟨r', hr', rfl⟩ := Option.map_eq_some_iff.mp hr
          obtain ⟨rfl, hempty⟩ := ih hrest hr'
          exact ⟨rfl, hempty⟩

/-- **Termination.** The loop ends exactly if the pointers do. -/
theorem takeAll_isSome_iff (s : Slist ν) : (∃ n, (takeAll n s).isSome = true) ↔ s.Acyclic := by
  constructor
  · rintro ⟨n, hn⟩
    induction n generalizing s with
    | zero =>
        by_cases hhead : s.head = none
        · exact ⟨[], hhead⟩
        · rw [takeAll, if_neg hhead] at hn
          cases hn
    | succ n ih =>
        rcases hhead : s.head with _ | x
        · exact ⟨[], hhead⟩
        · obtain ⟨hget, hhead', hnext⟩ := get_of_head hhead
          rw [takeAll_succ hget, Option.isSome_map] at hn
          obtain ⟨l, hl⟩ := ih s.get.2 hn
          rw [hhead', hnext] at hl
          exact ⟨x :: l, hhead, hl⟩
  · rintro ⟨l, hl⟩
    refine ⟨l.length, ?_⟩
    induction l generalizing s with
    | nil =>
        rw [takeAll_nil hl]
        rfl
    | cons x xs ih =>
        obtain ⟨hget, hhead', hnext⟩ := get_of_head hl.1
        rw [List.length_cons, takeAll_succ hget, Option.isSome_map]
        apply ih
        rw [hhead', hnext]
        exact hl.2

/-- So on a represented list it ends. -/
theorem Represents.takeAll_eq_some {s : Slist ν} (h : Represents s l) :
    ∃ n s', takeAll n s = some (l, s') ∧ Represents s' [] := by
  obtain ⟨n, hn⟩ := (takeAll_isSome_iff s).mpr h.acyclic
  obtain ⟨r, hr⟩ := Option.isSome_iff_exists.mp hn
  obtain ⟨rfl, hempty⟩ := h.of_takeAll hr
  exact ⟨n, r.2, hr, hempty⟩

end Loops

end Slist

end ZephyrSamples.Lib
