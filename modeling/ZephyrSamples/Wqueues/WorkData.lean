/-
# ZephyrSamples.Wqueues.WorkData -- what the handlers of work items read

In `WQUEUES/_02` and `_04` the work item is part of a structure whose other field is the data. `main` increments
the data and submits the item, in `_04` with a delay, and the handler, on the thread of the system work queue,
prints what it finds there. The items of `_01`, `_03`, `_05` and `_06` come without data.

Nothing orders the increment and the reading but priorities and delays. Without them the increments whose counter
is printed never go back (`workData_reads`), and the last counter is printed in the end (`workData_catchesUp`); with
them every counter is printed, once and in order (`workData_prompt`). The counter is a byte: what is printed of the
`i`-th increment is `i` modulo 256.
-/
import ZephyrSamples.Lib.Work

namespace ZephyrSamples.Wqueues.WorkData

open ZephyrSamples.Lib

/-! ## The samples -/

def dataLine (data : UInt8) : String := "Data passed to work queue: " ++ toString data ++ "\r"

/-- The line of the `i`-th increment: after 255 comes 0. -/
def counterLine (i : Nat) : String := "Data passed to work queue: " ++ toString (i % 256) ++ "\r"

/-- `main` and `work_handler` of `_02`. -/
def workData : Sharing UInt8 where
  initial := 0
  update data := data + 1
  submission := .submit
  announce := []
  line := dataLine

/-- `main` and `work_handler` of `_04`. -/
def delayedWorkData : Sharing UInt8 := { workData with
  submission := .schedule
  announce := ["About to send a new work\r"] }

/-- `main` and `work_handler` of `_01`; those of `_06`, where `main` sets an interrupt pending and `my_own_isr`
submits the item. -/
def work : Sharing Unit where
  initial := ()
  update := id
  submission := .submit
  announce := []
  line _ := "Work to do on system workqueue\r"

/-- `main` and `work_handler` of `_03`. -/
def delayedWork : Sharing Unit := { work with
  submission := .schedule
  announce := ["About to send a new work\r"] }

/-- `main` and `work_handler` of `_05`, whose queue has a thread of its own. -/
def customWork : Sharing Unit := { work with line := fun _ => "Work to do on user workqueue\r" }

/-! ## The counters printed -/

section

variable {P : Sharing UInt8} {s : Shared UInt8}

theorem version_eq (hP : P = workData ∨ P = delayedWorkData) (n : Nat) : P.version n = UInt8.ofNat n := by
  have hzero : P.initial = 0 := by rcases hP with rfl | rfl <;> rfl
  have hupdate : ∀ data, P.update data = data + 1 := by
    intro data
    rcases hP with rfl | rfl <;> rfl
  induction n with
  | zero => exact hzero
  | succ n ih =>
      rw [Sharing.version_succ, ih, hupdate, UInt8.ofNat_add]
      rfl

theorem line_eq (hP : P = workData ∨ P = delayedWorkData) : P.line = dataLine := by
  rcases hP with rfl | rfl <;> rfl

theorem dataLine_ofNat (i : Nat) : dataLine (UInt8.ofNat i) = counterLine i := rfl

/-- No line of the handler is one of `main`. -/
theorem line_ne (hP : P = workData ∨ P = delayedWorkData) (data : UInt8) : P.line data ∉ P.announce := by
  rcases hP with rfl | rfl
  · exact List.not_mem_nil
  · intro hmem
    have hline : dataLine data = "About to send a new work\r" := List.mem_singleton.mp hmem
    have htext := congrArg String.toList hline
    unfold dataLine at htext
    rw [String.toList_append, String.toList_append] at htext
    simp at htext

/-- A counter printed, and the next one submitted. -/
def second : Shared UInt8 :=
  ⟨2, ⟨true, false, false⟩, .ready, .idle,
    ["About to send a new work\r", dataLine 1, "About to send a new work\r"], 2, [1]⟩

theorem reachable_second : delayedWorkData.prompt.Reachable second := by
  have next {s t : Shared UInt8} (m : Sharing.Move) (h : delayedWorkData.prompt.Reachable s)
      (hstep : delayedWorkData.Step m s t) (hsettled : m = .update → s.Settled) :
      delayedWorkData.prompt.Reachable t := h.step ⟨hsettled, hstep⟩
  have hupdated := next .update (.init rfl) (.update rfl) fun _ => ⟨rfl, rfl⟩
  have hsent := next .send hupdated (.send rfl) nofun
  have hqueued := next .expire hsent (.expire rfl) nofun
  have hentered := next .dequeue hqueued (.dequeue rfl rfl) nofun
  have hread := next .read hentered (.read rfl) nofun
  have hdone := next .finish hread (.finish rfl) nofun
  exact next .send (next .update hdone (.update rfl) fun _ => ⟨rfl, rfl⟩) (.send rfl) nofun

/-- **Readings never go back.** Whatever the priorities and delays, the handler prints the counters, modulo 256, of
increments of which none is before the one printed last, none is ahead of `main`, and no more than `main` has
made. -/
theorem workData_reads (hP : P = workData ∨ P = delayedWorkData) (h : P.system.Reachable s) :
    ∃ k : List Nat, s.printed.filter (· ∉ P.announce) = k.map counterLine ∧
      k.Pairwise (· ≤ ·) ∧ (∀ i ∈ k, 0 < i ∧ i ≤ s.updates) ∧ k.length ≤ s.updates := by
  have hsound := Sharing.sound_of_reachable h
  obtain ⟨k, hk, hsorted, hbounds⟩ := hsound.follows.left
  have hversions : s.handled = k.map UInt8.ofNat := by
    rw [hk]
    exact List.map_congr_left fun i _ => version_eq hP i
  refine ⟨k, ?_, hsorted, hbounds, ?_⟩
  · rw [hsound.lines (line_ne hP), line_eq hP, hversions, List.map_map]
    exact List.map_congr_left fun i _ => dataLine_ofNat i
  · have hlength : s.handled.length = k.length := by rw [hversions, List.length_map]
    have hcalls := hsound.calls
    unfold Shared.seen at hcalls
    rw [List.length_append] at hcalls
    omega

theorem workData_reads_second : ∃ k : List Nat,
    second.printed.filter (· ∉ delayedWorkData.announce) = k.map counterLine ∧
      k.Pairwise (· ≤ ·) ∧ (∀ i ∈ k, 0 < i ∧ i ≤ 2) ∧ k.length ≤ 2 :=
  workData_reads (Or.inr rfl) reachable_second.of_restrict

/-- **The last counter is printed.** If `main` pauses, the timer and the work queue come to rest, and the last
line of the handler is then that of the data, unless `main` has not counted at all. -/
theorem workData_catchesUp (hP : P = workData ∨ P = delayedWorkData) (h : P.system.Reachable s) :
    P.paused.Inevitable (fun t => t.Settled ∧ t.data = s.data ∧
      (s.updates = 0 ∨ t.handled.getLast? = some (UInt8.ofNat s.updates))) s := by
  have hdata : s.data = UInt8.ofNat s.updates := by
    rw [(Sharing.sound_of_reachable h).data, version_eq hP]
  rw [← hdata]
  exact Sharing.catchesUp h

theorem workData_catchesUp_second : delayedWorkData.paused.Inevitable
    (fun t => t.Settled ∧ t.data = 2 ∧ (2 = 0 ∨ t.handled.getLast? = some 2)) second :=
  workData_catchesUp (Or.inr rfl) reachable_second.of_restrict

/-- **Every counter is printed.** Where `main` counts only when nothing is under way, what is printed is an entry
for each increment, the first, the second and so on, with the number of it modulo 256, and the announcement of the
one under way. -/
theorem workData_prompt (hP : P = workData ∨ P = delayedWorkData) (h : P.prompt.Reachable s) :
    ∃ n, (s.updates = n ∨ s.updates = n + 1) ∧
      s.printed =
        (List.range' 1 n).flatMap (fun i => P.announce ++ [counterLine i]) ++
          if s.updates = n then [] else P.announce := by
  have hpaced := Sharing.paced_of_reachable h
  have hone := hpaced.one
  have hcounts := hpaced.counts
  refine ⟨s.handled.length, by omega, ?_⟩
  have hentries : s.handled.flatMap P.entry =
      (List.range' 1 s.handled.length).flatMap fun i => P.announce ++ [counterLine i] := by
    conv_lhs => rw [hpaced.handled, List.flatMap_map]
    apply congrArg List.flatten
    apply List.map_congr_left
    intro i _
    show P.announce ++ [P.line (P.version i)] = _
    rw [version_eq hP, line_eq hP, dataLine_ofNat]
  have hiff : s.updates = s.handled.length ↔ Sharing.underWay s = 0 := by omega
  rw [hpaced.printed, hentries]
  simp only [hiff]

theorem workData_prompt_second : ∃ n, (2 = n ∨ 2 = n + 1) ∧
    second.printed =
      (List.range' 1 n).flatMap (fun i => delayedWorkData.announce ++ [counterLine i]) ++
        if 2 = n then [] else delayedWorkData.announce :=
  workData_prompt (Or.inr rfl) reachable_second

end

/-! ## Items without data -/

section

variable {P : Sharing Unit} {s : Shared Unit}

/-- **Submissions coalesce.** Whatever the priorities and delays, the handler of an item without data prints its
line no more often than the item was submitted. -/
theorem work_coalesces (hP : P = work ∨ P = delayedWork ∨ P = customWork) (h : P.system.Reachable s) :
    ∃ n ≤ s.updates, s.printed.filter (· ∉ P.announce) = List.replicate n (P.line ()) := by
  have hsound := Sharing.sound_of_reachable h
  have hne : ∀ a, P.line a ∉ P.announce := by
    rintro ⟨⟩
    rcases hP with rfl | rfl | rfl <;> decide
  have hcalls := hsound.calls
  unfold Shared.seen at hcalls
  rw [List.length_append] at hcalls
  refine ⟨s.handled.length, by omega, ?_⟩
  rw [hsound.lines hne]
  show s.handled.map (fun _ => P.line ()) = _
  exact List.map_const'

/-- Where `main` submits it only when nothing is under way, once for each submission. -/
theorem work_prompt (h : P.prompt.Reachable s) :
    ∃ n, (s.updates = n ∨ s.updates = n + 1) ∧
      s.printed = (List.replicate n (P.announce ++ [P.line ()])).flatten ++
        if s.updates = n then [] else P.announce := by
  have hpaced := Sharing.paced_of_reachable h
  have hone := hpaced.one
  have hcounts := hpaced.counts
  have hentries : s.handled.flatMap P.entry =
      (List.replicate s.handled.length (P.announce ++ [P.line ()])).flatten := by
    apply congrArg List.flatten
    show s.handled.map (fun _ => P.announce ++ [P.line ()]) = _
    exact List.map_const'
  have hiff : s.updates = s.handled.length ↔ Sharing.underWay s = 0 := by omega
  refine ⟨s.handled.length, by omega, ?_⟩
  rw [hpaced.printed, hentries]
  simp only [hiff]

end

end ZephyrSamples.Wqueues.WorkData
