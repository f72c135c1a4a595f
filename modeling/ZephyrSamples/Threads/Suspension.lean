/-
# ZephyrSamples.Threads.Suspension -- a thread that another suspends and resumes

In `THREADS/_02` both threads count and print. After every fifth message thread 0 suspends or resumes thread 1, in
turn, and says so. The model leaves open who runs when, so it covers every choice of priorities and delays; the
counter of thread 0 does not overflow.

A monitor that knows how many messages and announcements there were accepts exactly the texts that can be printed
(`suspension_printed`): thread 0 counts up and announces after each fifth message, thread 1 counts from 0 to 4 over
and over and prints nothing from an announced suspension to the fifth message after it.
-/
import ZephyrSamples.Lib.Monitor

namespace ZephyrSamples.Threads.Suspension

open ZephyrSamples.Lib

inductive Line where
  | message0 (i : Nat)
  | message1 (i : Nat)
  | suspending
  | resuming
  deriving DecidableEq, Repr

def Line.text : Line → String
  | message0 i => "message from thread 0: " ++ toString i ++ "\n"
  | message1 i => "message from thread 1: " ++ toString i ++ "\n"
  | suspending => "suspending thread 1\n"
  | resuming => "resuming thread 1\n"

/-- Where thread 0 stands: before its message, before the call, before it is announced, before `k_msleep`. -/
inductive Pc0 where
  | print
  | toggle
  | announce
  | sleep
  deriving DecidableEq, Repr

inductive Pc1 where
  | print
  | sleep
  deriving DecidableEq, Repr

/-- The threads, and what they have printed. -/
structure Bottles where
  i0 : Nat
  flag : Bool
  pc0 : Pc0
  i1 : Nat
  pc1 : Pc1
  suspended : Bool
  log : List Line
  deriving DecidableEq, Repr

def Bottles.printed (s : Bottles) : List String := s.log.map Line.text

def start : Bottles := ⟨0, false, .print, 0, .print, false, []⟩

inductive Label where
  | thread0
  | thread1
  | clock
  deriving DecidableEq, Repr

/-- `bottle_th0` and `bottle_th1`; the clock wakes the one that sleeps. -/
inductive Step : Label → Bottles → Bottles → Prop
  | print0 {s : Bottles} : s.pc0 = .print →
      Step .thread0 s
        { s with
          i0 := s.i0 + 1
          pc0 := if (s.i0 + 1) % 5 = 0 then .toggle else .sleep
          log := s.log ++ [.message0 s.i0] }
  | toggle {s : Bottles} : s.pc0 = .toggle →
      Step .thread0 s { s with suspended := !s.flag, pc0 := .announce }
  | announce {s : Bottles} : s.pc0 = .announce →
      Step .thread0 s
        { s with
          flag := !s.flag
          pc0 := .sleep
          log := s.log ++ [if s.flag then .resuming else .suspending] }
  | wake0 {s : Bottles} : s.pc0 = .sleep → Step .clock s { s with pc0 := .print }
  | print1 {s : Bottles} : s.pc1 = .print → s.suspended = false →
      Step .thread1 s
        { s with
          i1 := s.i1 % 5 + 1
          pc1 := .sleep
          log := s.log ++ [.message1 (s.i1 % 5)] }
  | wake1 {s : Bottles} : s.pc1 = .sleep → Step .clock s { s with pc1 := .print }

def suspension : System Bottles Label where
  init s := s = start
  step := Step

/-! ## The monitor -/

/-- How many messages of thread 0 and how many announcements there were, and the next number of thread 1. -/
structure Seen where
  messages : Nat
  announced : Nat
  next1 : Nat
  deriving DecidableEq, Repr

namespace Seen

/-- Announcements are made in turn, a suspension first. -/
def announce (m : Seen) (resuming : Bool) : Option Seen :=
  if m.messages = 5 * (m.announced + 1) ∧ (m.announced % 2 = 1 ↔ resuming = true) then
    some { m with announced := m.announced + 1 }
  else none

/-- From an announced suspension to the fifth message after it. -/
def Silent (m : Seen) : Prop := m.announced % 2 = 1 ∧ m.messages / 5 = m.announced

instance (m : Seen) : Decidable m.Silent := inferInstanceAs (Decidable (_ ∧ _))

def next (m : Seen) : Line → Option Seen
  | .message0 i =>
      if i = m.messages ∧ m.messages / 5 = m.announced then some { m with messages := m.messages + 1 } else none
  | .message1 i => if i = m.next1 ∧ ¬ m.Silent then some { m with next1 := (m.next1 + 1) % 5 } else none
  | .suspending => m.announce false
  | .resuming => m.announce true

end Seen

def monitor : Monitor Seen Line where
  start := ⟨0, 0, 0⟩
  next := Seen.next

/-! ## The monitor follows -/

/-- An announcement is due. -/
def Pc0.due : Pc0 → Nat
  | .toggle | .announce => 1
  | .print | .sleep => 0

def announced (s : Bottles) : Nat := s.i0 / 5 - s.pc0.due

def seen (s : Bottles) : Seen := ⟨s.i0, announced s, s.i1 % 5⟩

/-- The flag counts the announcements, thread 1 is suspended by every other call, and a call is due after a fifth
message only. -/
structure Inv (s : Bottles) : Prop where
  flag : s.flag = true ↔ announced s % 2 = 1
  suspended : s.suspended = if s.pc0 = .announce then !s.flag else s.flag
  due : s.pc0.due = 1 → s.i0 = 5 * (announced s + 1)

/-- At the start thread 1 runs, and nothing is announced. -/
theorem Inv.start : Inv start := ⟨⟨nofun, nofun⟩, rfl, nofun⟩

/-- A message does not change what has been announced. -/
theorem announced_print {i : Nat} : (i + 1) / 5 - (if (i + 1) % 5 = 0 then Pc0.toggle else Pc0.sleep).due = i / 5 := by
  split
  · show (i + 1) / 5 - 1 = i / 5
    omega
  · show (i + 1) / 5 - 0 = i / 5
    omega

/-- **One step.** The call comes before its announcement and the flag changes with it, so in between they differ. -/
theorem Inv.next {s t : Bottles} {l : Label} (h : Inv s) (hstep : Step l s t) : Inv t := by
  obtain ⟨hflag, hsuspended, hdue⟩ := h
  unfold announced at hflag hdue
  cases hstep with
  | print0 hpc =>
      rw [hpc] at hflag hsuspended
      refine ⟨?_, ?_, ?_⟩
      · show s.flag = true ↔ ((s.i0 + 1) / 5 - (if (s.i0 + 1) % 5 = 0 then Pc0.toggle else Pc0.sleep).due) % 2 = 1
        rw [announced_print]
        exact hflag
      · show s.suspended = _
        rw [hsuspended, if_neg nofun, if_neg]
        show ¬ (if (s.i0 + 1) % 5 = 0 then Pc0.toggle else Pc0.sleep) = Pc0.announce
        split <;> nofun
      · intro hdue'
        show s.i0 + 1 = 5 * ((s.i0 + 1) / 5 - (if (s.i0 + 1) % 5 = 0 then Pc0.toggle else Pc0.sleep).due + 1)
        rw [announced_print]
        change (if (s.i0 + 1) % 5 = 0 then Pc0.toggle else Pc0.sleep).due = 1 at hdue'
        split at hdue'
        · omega
        · cases hdue'
  | toggle hpc =>
      -- k_thread_suspend or k_thread_resume, as the flag says
      rw [hpc] at hflag hdue
      exact ⟨hflag, rfl, hdue⟩
  | announce hpc =>
      rw [hpc] at hflag hsuspended hdue
      have hcount := hdue rfl
      change s.i0 = 5 * (s.i0 / 5 - 1 + 1) at hcount
      change s.flag = true ↔ (s.i0 / 5 - 1) % 2 = 1 at hflag
      refine ⟨?_, hsuspended, nofun⟩
      show (!s.flag) = true ↔ (s.i0 / 5 - 0) % 2 = 1
      rw [Bool.not_eq_true', ← Bool.not_eq_true, hflag]
      omega
  | wake0 hpc =>
      rw [hpc] at hflag hsuspended
      exact ⟨hflag, hsuspended, nofun⟩
  | print1 hpc hruns => exact ⟨hflag, hsuspended, hdue⟩
  | wake1 hpc => exact ⟨hflag, hsuspended, hdue⟩

/-- Whoever runs when. -/
theorem inv_of_reachable {s : Bottles} (h : suspension.Reachable s) : Inv s := by
  apply h.invariant
  · rintro s rfl
    exact Inv.start
  · intro s t l _ hinv hstep
    exact hinv.next hstep

/-- Where thread 1 may run the monitor lets it print. -/
theorem not_silent {s : Bottles} (h : Inv s) (hruns : s.suspended = false) : ¬ (seen s).Silent := by
  obtain ⟨hflag, hsuspended, hdue⟩ := h
  rintro ⟨hodd, hcount⟩
  change announced s % 2 = 1 at hodd
  change s.i0 / 5 = announced s at hcount
  rw [hflag.mpr hodd, hruns] at hsuspended
  rcases hpc : s.pc0 with _ | _ | _ | _ <;> rw [hpc] at hsuspended hdue
  · cases hsuspended
  · cases hsuspended
  · -- resumed and not announced yet: the fifth message has been printed
    have hnext := hdue rfl
    omega
  · cases hsuspended

/-- **The monitor follows each step**, which prints one line that it allows or none. -/
theorem follows {s t : Bottles} {l : Label} (h : Inv s) (hstep : Step l s t) :
    (t.log = s.log ∧ seen t = seen s) ∨
      ∃ line, t.log = s.log ++ [line] ∧ monitor.next (seen s) line = some (seen t) := by
  have hduePc := h.due
  have hflag := h.flag
  cases hstep with
  | print0 hpc =>
      refine Or.inr ⟨_, rfl, ?_⟩
      have hsame : announced s = s.i0 / 5 := by
        unfold announced
        rw [hpc]
        rfl
      show (if s.i0 = s.i0 ∧ s.i0 / 5 = announced s then some (⟨s.i0 + 1, announced s, s.i1 % 5⟩ : Seen) else none) = _
      rw [if_pos ⟨rfl, hsame.symm⟩, hsame]
      unfold seen announced
      rw [announced_print]
  | toggle hpc =>
      refine Or.inl ⟨rfl, ?_⟩
      unfold seen announced
      rw [hpc]
      rfl
  | announce hpc =>
      refine Or.inr ⟨_, rfl, ?_⟩
      have hsame : announced s = s.i0 / 5 - 1 := by
        unfold announced
        rw [hpc]
        rfl
      rw [hpc] at hduePc
      have hcount := hduePc rfl
      have hnext : Seen.announce (seen s) s.flag = some ⟨s.i0, announced s + 1, s.i1 % 5⟩ :=
        if_pos ⟨hcount, hflag.symm⟩
      have hafter : announced s + 1 = s.i0 / 5 - 0 := by omega
      rw [hafter] at hnext
      rcases hvalue : s.flag with _ | _ <;> rw [hvalue] at hnext <;> exact hnext
  | wake0 hpc =>
      refine Or.inl ⟨rfl, ?_⟩
      unfold seen announced
      rw [hpc]
      rfl
  | print1 hpc hruns =>
      refine Or.inr ⟨_, rfl, ?_⟩
      exact if_pos ⟨rfl, not_silent h hruns⟩
  | wake1 hpc => exact Or.inl ⟨rfl, rfl⟩

/-! ## The system can do it all -/

/-- Before a message or a call, or between a resumption and its announcement. -/
def Ready (s : Bottles) : Prop := (s.pc0 ≠ .sleep ∧ (s.pc0 = .announce → s.suspended = false)) ∧ s.pc1 = .print

section

variable {s : Bottles}

/-- Thread 0 goes on to the next message or call. -/
theorem awake (h : suspension.Reachable s) (hpc : s.pc0 = .sleep) (h1 : s.pc1 = .print) :
    ∃ t, suspension.Reachable t ∧ Ready t ∧ t.log = s.log :=
  ⟨_, h.step (.wake0 hpc), ⟨⟨nofun, nofun⟩, h1⟩, rfl⟩

/-- Thread 0 announces, whether or not it has made the call. -/
theorem announces (h : suspension.Reachable s) (hready : Ready s) (hdue : s.pc0.due = 1) :
    ∃ t, suspension.Reachable t ∧ Ready t ∧ t.log = s.log ++ [if s.flag then .resuming else .suspending] := by
  obtain ⟨-, h1⟩ := hready
  rcases hpc : s.pc0 with _ | _ | _ | _
  · rw [hpc] at hdue
    cases hdue
  · obtain ⟨t, ht, hready, hlog⟩ := awake ((h.step (.toggle hpc)).step (.announce rfl)) rfl h1
    exact ⟨t, ht, hready, hlog⟩
  · obtain ⟨t, ht, hready, hlog⟩ := awake (h.step (.announce hpc)) rfl h1
    exact ⟨t, ht, hready, hlog⟩
  · rw [hpc] at hdue
    cases hdue

/-- Thread 1 prints. -/
theorem prints1 (h : suspension.Reachable s) (hready : Ready s) (hruns : s.suspended = false) :
    ∃ t, suspension.Reachable t ∧ Ready t ∧ t.log = s.log ++ [.message1 (s.i1 % 5)] := by
  obtain ⟨⟨hawake, hannounce⟩, h1⟩ := hready
  exact ⟨_, (h.step (.print1 h1 hruns)).step (.wake1 rfl), ⟨⟨hawake, hannounce⟩, rfl⟩, rfl⟩

end

/-- **What the monitor allows can be printed**, from a state in which nobody sleeps: thread 0 is where the line is
due, and thread 1 runs or can be resumed first. -/
theorem allowed {s : Bottles} {line : Line} {m : Seen} (h : suspension.Reachable s) (hready : Ready s)
    (hnext : monitor.next (seen s) line = some m) :
    ∃ t, suspension.Reachable t ∧ Ready t ∧ t.log = s.log ++ [line] := by
  have hinv := inv_of_reachable h
  obtain ⟨⟨hawake, hannounce⟩, h1⟩ := hready
  have hdueOf {resuming : Bool} (hann : (seen s).announce resuming = some m) :
      s.pc0.due = 1 ∧ s.flag = resuming := by
    unfold Seen.announce at hann
    split at hann
    · next hallowed =>
        obtain ⟨hcount, hiff⟩ := hallowed
        change s.i0 = 5 * (announced s + 1) at hcount
        change announced s % 2 = 1 ↔ resuming = true at hiff
        refine ⟨?_, ?_⟩
        · unfold announced at hcount
          rcases hpc : s.pc0 with _ | _ | _ | _ <;> rw [hpc] at hcount <;> simp only [Pc0.due] at hcount ⊢ <;> omega
        · rw [Bool.eq_iff_iff, hinv.flag, hiff]
    · cases hann
  cases line with
  | message0 i =>
      change (if i = s.i0 ∧ s.i0 / 5 = announced s then _ else none) = some m at hnext
      split at hnext
      · next hallowed =>
          obtain ⟨rfl, hcount⟩ := hallowed
          -- with a call due there would be one announcement more to make
          have hpc : s.pc0 = .print := by
            rcases hpc : s.pc0 with _ | _ | _ | _
            · rfl
            · have hdue := hinv.due (by rw [hpc]; rfl)
              omega
            · have hdue := hinv.due (by rw [hpc]; rfl)
              omega
            · exact absurd hpc hawake
          have hprint := h.step (.print0 hpc)
          by_cases hfifth : (s.i0 + 1) % 5 = 0
          · refine ⟨_, hprint, ⟨⟨?_, ?_⟩, h1⟩, rfl⟩
            · simp [hfifth]
            · simp [hfifth]
          · obtain ⟨t, ht, hready, hlog⟩ := awake hprint (if_neg hfifth) h1
            exact ⟨t, ht, hready, hlog⟩
      · cases hnext
  | message1 i =>
      change (if i = s.i1 % 5 ∧ ¬ (seen s).Silent then _ else none) = some m at hnext
      split at hnext
      · next hallowed =>
          obtain ⟨rfl, hsilent⟩ := hallowed
          rcases hsuspended : s.suspended with _ | _
          · exact prints1 h ⟨⟨hawake, hannounce⟩, h1⟩ hsuspended
          · -- it can only be that the call that resumes thread 1 is due
            have hpc : s.pc0 = .toggle := by
              rcases hpc : s.pc0 with _ | _ | _ | _
              · have hflag : s.flag = true := by
                  rw [← hsuspended, hinv.suspended, hpc]
                  rfl
                have hodd := hinv.flag.mp hflag
                refine absurd ⟨hodd, ?_⟩ hsilent
                show s.i0 / 5 = announced s
                unfold announced
                rw [hpc]
                rfl
              · rfl
              · rw [hannounce hpc] at hsuspended
                cases hsuspended
              · exact absurd hpc hawake
            have hflag : s.flag = true := by
              rw [← hsuspended, hinv.suspended, hpc]
              rfl
            have hresumed : (!s.flag) = false := by rw [hflag]; rfl
            obtain ⟨t, ht, hready, hlog⟩ :=
              prints1 (h.step (.toggle hpc)) ⟨⟨nofun, fun _ => hresumed⟩, h1⟩ hresumed
            exact ⟨t, ht, hready, hlog⟩
      · cases hnext
  | suspending =>
      obtain ⟨hdue, hflag⟩ := hdueOf hnext
      obtain ⟨t, ht, hready, hlog⟩ := announces h ⟨⟨hawake, hannounce⟩, h1⟩ hdue
      rw [hflag] at hlog
      exact ⟨t, ht, hready, hlog⟩
  | resuming =>
      obtain ⟨hdue, hflag⟩ := hdueOf hnext
      obtain ⟨t, ht, hready, hlog⟩ := announces h ⟨⟨hawake, hannounce⟩, h1⟩ hdue
      rw [hflag] at hlog
      exact ⟨t, ht, hready, hlog⟩

/-- What is printed is what the monitor accepts. -/
theorem logs_iff (log : List Line) : (∃ s, suspension.Reachable s ∧ s.log = log) ↔ monitor.Accepts log := by
  have hfollows : ∀ s, suspension.Reachable s → monitor.run s.log = some (seen s) := by
    intro s h
    refine Monitor.run_of_reachable ?_ ?_ h
    · rintro s rfl
      exact ⟨rfl, rfl⟩
    · intro s t l hs hstep
      exact follows (inv_of_reachable hs) hstep
  apply Monitor.logs_iff Ready ?_ hfollows
  · intro s line m h hready hnext
    exact allowed h hready hnext
  · exact ⟨start, rfl, ⟨⟨nofun, nofun⟩, rfl⟩, rfl⟩

/-- **What the sample can print.** The texts of all runs are those of the logs that the monitor accepts. -/
theorem suspension_printed (texts : List String) :
    (∃ s, suspension.Reachable s ∧ s.printed = texts) ↔ ∃ log, monitor.Accepts log ∧ log.map Line.text = texts := by
  constructor
  · rintro ⟨s, hs, rfl⟩
    exact ⟨s.log, (logs_iff s.log).mp ⟨s, hs, rfl⟩, rfl⟩
  · rintro ⟨log, haccepts, rfl⟩
    obtain ⟨s, hs, rfl⟩ := (logs_iff log).mpr haccepts
    exact ⟨s, hs, rfl⟩

/-- A suspension is announced after the fifth message, and thread 1 is silent from then on. -/
example : ¬ monitor.Accepts
    [.message0 0, .message1 0, .message0 1, .message0 2, .message0 3, .message0 4, .suspending, .message1 1] := by
  decide

end ZephyrSamples.Threads.Suspension
