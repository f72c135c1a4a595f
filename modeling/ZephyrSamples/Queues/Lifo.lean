/-
# ZephyrSamples.Queues.Lifo -- five nodes, put again every second

`task_sender` puts the five nodes of its pool into the LIFO and sleeps, `task_receiver` sleeps and
takes out what it finds. Equal sleeping times are all that orders the two. A node that is put again
while it is still linked closes the list into a ring.

`sound_iff`: over every order of rounds the list stays intact and each drain ends and returns what was
put, last first, if and only if no two rounds of the sender follow each other.
-/
import Mathlib.Data.List.Chain
import Mathlib.Data.List.FinRange
import ZephyrSamples.Queues.Pool

namespace ZephyrSamples.Queues.Lifo

open ZephyrSamples.Lib
open Pool (value isEmpty drain)

/-! ## Rounds and schedules -/

/-- The body of the sender's loop: `k_lifo_put` prepends. -/
def fill : Pool → Node → Pool := Pool.fill Slist.prepend

/-- Its first `k` passes. -/
def fillTo (k : Nat) (s : Pool) : Pool := ((List.finRange 5).take k).foldl fill s

/-- A round of `task_sender`. -/
def senderRound (s : Pool) : Pool := fillTo 5 s

inductive Round where
  | sender
  | receiver
  deriving DecidableEq, Repr

/-- The list ends and holds no node twice. -/
def Intact (s : Pool) : Prop := ∃ l, Slist.Path s.list.next s.list.head l ∧ l.Nodup

/-- `appended` are the values put since the last drain. Every put leaves the list intact, every drain
ends and returns them, last first. -/
def Sound : Pool → List UInt32 → List Round → Prop
  | _, _, [] => True
  | s, appended, .sender :: rs =>
      (∀ k ≤ 5, Intact (fillTo k s)) ∧
        Sound (senderRound s) (appended ++ (List.finRange 5).map value) rs
  | s, appended, .receiver :: rs =>
      ∃ n s', drain n s = some (appended.reverse, s') ∧ Sound s' [] rs

/-- No two rounds of the sender follow each other. -/
def Alternates (rs : List Round) : Prop := rs.IsChain fun a b => ¬ (a = .sender ∧ b = .sender)

theorem not_alternates_sender_sender (rs : List Round) : ¬ Alternates (.sender :: .sender :: rs) :=
  fun halt => (List.isChain_cons_cons.mp halt).1 ⟨rfl, rfl⟩

theorem alternates_receiver (rs : List Round) : Alternates (.receiver :: rs) ↔ Alternates rs := by
  rcases rs with _ | ⟨b, bs⟩
  · exact iff_of_true (.singleton _) .nil
  · unfold Alternates
    rw [List.isChain_cons_cons]
    exact and_iff_right fun hboth => Round.noConfusion hboth.1

/-- A round of the receiver separates what is before it from what is behind it. -/
theorem alternates_cons_receiver (a : Round) (rs : List Round) :
    Alternates (a :: .receiver :: rs) ↔ Alternates rs := by
  rw [← alternates_receiver rs]
  unfold Alternates
  rw [List.isChain_cons_cons]
  exact and_iff_right fun hboth => Round.noConfusion hboth.2

/-! ## One round -/

/-- Putting nodes that are not linked. -/
theorem represents_foldl_fill {s : Pool} {l ks : List Node} (h : s.list.Represents l)
    (hks : ks.Nodup) (hdisj : ∀ i ∈ ks, i ∉ l) :
    (ks.foldl fill s).list.Represents (ks.reverse ++ l) := by
  induction ks generalizing s l with
  | nil => exact h
  | cons i ks ih =>
      obtain ⟨hi, hks'⟩ := List.nodup_cons.mp hks
      have hput : (fill s i).list.Represents (i :: l) := h.prepend (hdisj i List.mem_cons_self)
      have hrest := ih hput hks' fun j hj hmem => by
        rcases List.mem_cons.mp hmem with rfl | hold
        · exact hi hj
        · exact hdisj j (List.mem_cons_of_mem i hj) hold
      rw [List.foldl_cons, List.reverse_cons, List.append_assoc]
      exact hrest

/-- What a round of the sender leaves: all five nodes, the last one first. -/
structure Filled (s : Pool) : Prop where
  nodes : s.list.Represents (List.finRange 5).reverse
  data : ∀ i, s.data i = value i

theorem filled_senderRound {s : Pool} (h : s.list.Represents []) : Filled (senderRound s) where
  nodes := by
    have hfill := represents_foldl_fill h (List.nodup_finRange 5) fun _ _ => List.not_mem_nil
    rwa [List.append_nil] at hfill
  data i := Pool.data_foldl_fill Slist.prepend (Or.inl (List.mem_finRange i))

/-- From an empty queue every pass of the round leaves the list intact. -/
theorem intact_fillTo {s : Pool} (h : s.list.Represents []) (k : Nat) : Intact (fillTo k s) := by
  have hnodup : ((List.finRange 5).take k).Nodup :=
    (List.nodup_finRange 5).sublist (List.take_sublist k _)
  have hfill := represents_foldl_fill h hnodup fun _ _ => List.not_mem_nil
  exact ⟨_, hfill.path, hfill.nodup⟩

/-- The first put into a full queue puts node 0, which is linked. -/
theorem Filled.not_intact {s : Pool} (h : Filled s) : ¬ Intact (fillTo 1 s) := by
  have hlinked : s.list.Linked 0 := h.nodes.linked_iff.mpr (by simp)
  rintro ⟨l, hpath, -⟩
  exact Slist.not_acyclic_prepend hlinked ⟨l, hpath⟩

/-- After a round on a full queue the nodes form a ring, and the receiver never comes out of it. -/
theorem Filled.drain_senderRound {s : Pool} (h : Filled s) (n : Nat) :
    Pool.drain n (senderRound s) = none := by
  have hhead : s.list.head = some 4 := h.nodes.path.1
  have hlinked : (fillTo 4 s).list.Linked 4 := ⟨[3, 2, 1, 0], rfl, rfl, rfl, rfl, hhead⟩
  have hring : ¬ (senderRound s).list.Acyclic := Slist.not_acyclic_prepend hlinked
  rw [Pool.drain_eq]
  rcases htake : Slist.takeAll n (senderRound s).list with _ | r
  · rfl
  · exact absurd ((Slist.takeAll_isSome_iff _).mp ⟨n, by rw [htake]; rfl⟩) hring

/-- What a drain of a full queue can return. -/
theorem Filled.drain {s s' : Pool} (h : Filled s) {n : Nat} {out : List UInt32}
    (hdrain : drain n s = some (out, s')) :
    out = ((List.finRange 5).map value).reverse ∧ s'.list.Represents [] := by
  rw [Pool.drain_eq] at hdrain
  obtain ⟨r, hr, heq⟩ := Option.map_eq_some_iff.mp hdrain
  obtain ⟨hnodes, hempty⟩ := h.nodes.of_takeAll hr
  obtain ⟨rfl, rfl⟩ := Prod.mk.inj heq
  refine ⟨?_, hempty⟩
  rw [hnodes, ← List.map_reverse]
  exact List.map_congr_left fun i _ => h.data i

theorem Filled.drained {s : Pool} (h : Filled s) :
    ∃ n s', Pool.drain n s = some (((List.finRange 5).map value).reverse, s') := by
  obtain ⟨n, list, htake, -⟩ := h.nodes.takeAll_eq_some
  have hdrain : Pool.drain n s =
      some ((List.finRange 5).reverse.map s.data, { s with list := list }) := by
    rw [Pool.drain_eq, htake]
    rfl
  exact ⟨n, { s with list := list }, by rw [hdrain, (h.drain hdrain).1]⟩

/-- A drain of an empty queue. -/
theorem drain_empty {s : Pool} (h : s.list.Represents []) (n : Nat) : drain n s = some ([], s) := by
  rw [Pool.drain_eq, Slist.takeAll_nil h.path]
  rfl

/-! ## Schedules -/

/-- The receiver on an empty queue. -/
theorem sound_receiver_empty {s : Pool} (h : s.list.Represents []) (rs : List Round) :
    Sound s [] (.receiver :: rs) ↔ Sound s [] rs := by
  constructor
  · rintro ⟨n, s', hdrain, hsound⟩
    rw [drain_empty h] at hdrain
    obtain ⟨-, rfl⟩ := Prod.mk.inj (Option.some.inj hdrain)
    exact hsound
  · intro hsound
    exact ⟨0, s, drain_empty h 0, hsound⟩

/-- The receiver on a full one: a drain that ends leaves it empty. -/
theorem Filled.sound_receiver_iff {s : Pool} (h : Filled s) {rs : List Round} {P : Prop}
    (hrest : ∀ s', s'.list.Represents [] → (Sound s' [] rs ↔ P)) :
    Sound s ((List.finRange 5).map value) (.receiver :: rs) ↔ P := by
  constructor
  · rintro ⟨n, s', hdrain, hsound⟩
    exact (hrest s' (h.drain hdrain).2).mp hsound
  · intro hP
    obtain ⟨n, s', hdrain⟩ := h.drained
    exact ⟨n, s', hdrain, (hrest s' (h.drain hdrain).2).mpr hP⟩

/-- A schedule is as sound as it alternates: from an empty queue, and from a full one as if a round of
the sender had just been scheduled. -/
theorem sound_iff_of_represents (rs : List Round) :
    (∀ s, s.list.Represents [] → (Sound s [] rs ↔ Alternates rs)) ∧
      ∀ s, Filled s → (Sound s ((List.finRange 5).map value) rs ↔ Alternates (.sender :: rs)) := by
  induction rs with
  | nil => exact ⟨fun _ _ => iff_of_true trivial .nil, fun _ _ => iff_of_true trivial (.singleton _)⟩
  | cons r rs ih =>
      obtain ⟨ihEmpty, ihFilled⟩ := ih
      rcases r with _ | _
      · -- the sender
        refine ⟨fun s h => ?_, fun s h => ?_⟩
        · show (∀ k ≤ 5, Intact (fillTo k s)) ∧ Sound (senderRound s) ([] ++ _) rs ↔ _
          rw [List.nil_append, ihFilled _ (filled_senderRound h)]
          exact and_iff_right fun k _ => intact_fillTo h k
        · refine iff_of_false ?_ (not_alternates_sender_sender rs)
          rintro ⟨hintact, -⟩
          exact h.not_intact (hintact 1 (by decide))
      · -- the receiver
        refine ⟨fun s h => ?_, fun s h => ?_⟩
        · rw [sound_receiver_empty h, alternates_receiver]
          exact ihEmpty s h
        · rw [alternates_cons_receiver]
          exact h.sound_receiver_iff ihEmpty

/-- **The LIFO.** From the start and over every order of rounds: the list ends and holds no node twice,
each drain ends and returns the values put since the last one, last first, if and only if no two rounds
of the sender follow each other. -/
theorem sound_iff (rs : List Round) : Sound .boot [] rs ↔ Alternates rs :=
  (sound_iff_of_represents rs).1 .boot (.empty _)

/-- Two rounds of the sender in a row, as equal sleeping times allow: the list is a ring, and the drain
that follows never ends. -/
theorem senderTwice_unsound : ¬ Sound .boot [] [.sender, .sender] ∧
    ∀ n, drain n (senderRound (senderRound .boot)) = none := by
  have hfilled : Filled (senderRound .boot) := filled_senderRound (.empty _)
  refine ⟨?_, hfilled.drain_senderRound⟩
  rintro ⟨-, hintact, -⟩
  exact hfilled.not_intact (hintact 1 (by decide))

end ZephyrSamples.Queues.Lifo
