/-
# ZephyrSamples.Leds.Fade -- a brightness that goes up and down

`main` sets the brightness of a PWM LED in steps of two and turns round where the new value is 0 or 100. The
brightness is a `uint8_t`, the step an `int8_t` that is added to it with its sign.

In a run of any length the brightness is a triangle wave of a hundred steps, the byte never wraps, each turn is
told when it is reached, and the first call that fails ends the run (`fade_spec`).
-/
import Mathlib.Data.List.Basic
import Mathlib.Tactic.SplitIfs

namespace ZephyrSamples.Leds.Fade

/-! ## The program -/

/-- The variables of `main`, and a history: the brightness at each call of `led_set_brightness` and the texts
printed. -/
structure Led where
  brightness : UInt8
  direction : Int8
  asked : List UInt8
  printed : List String
  returned : Bool
  deriving DecidableEq

/-- `FADE_STEP` -/
def fadeStep : Int8 := 2

namespace Led

def start : Led where
  brightness := 0
  direction := fadeStep
  asked := []
  printed := ["Starting PWM LED brightness control (fade effect)...\n", "Fading from 0% to 100% and back\n"]
  returned := false

def printk (s : Led) (text : String) : Led := { s with printed := s.printed ++ [text] }

/-- `brightness += direction`, in `int` and cut to a byte. -/
def move (s : Led) : Led := { s with brightness := UInt8.ofInt (s.brightness.toNat + s.direction.toInt) }

def turn (s : Led) : Led :=
  if s.brightness = 0 ∨ s.brightness = 100 then
    let s := { s with direction := -s.direction }
    if s.brightness = 0 then s.printk "Faded to 0% (OFF)\n" else s.printk "Faded to 100% (MAX)\n"
  else s

/-- The body of the loop, where `led_set_brightness` returns `ret`. -/
def iterate (s : Led) (ret : Int) : Led :=
  if s.returned then s
  else
    let s := { s with asked := s.asked ++ [s.brightness] }
    if ret ≠ 0 then { s.printk ("led_set_brightness failed: " ++ toString ret ++ "\n") with returned := true }
    else s.move.turn

end Led

/-- As many iterations as there are results of `led_set_brightness`. -/
def main (ready : Bool) (rets : List Int) : Led :=
  if ready then rets.foldl Led.iterate .start
  else { Led.start with printed := ["PWM LED device not ready\n"], returned := true }

/-! ## The wave -/

/-- The brightness after `n` steps. -/
def level (n : Nat) : Nat := if n % 100 ≤ 50 then 2 * (n % 100) else 200 - 2 * (n % 100)

/-- What is told when step `n` is taken. -/
def told (n : Nat) : List String :=
  if n % 100 = 0 then ["Faded to 0% (OFF)\n"]
  else if n % 100 = 50 then ["Faded to 100% (MAX)\n"]
  else []

theorem level_le (n : Nat) : level n ≤ 100 := by
  unfold level
  split_ifs <;> omega

/-- The loop after `n` steps. -/
structure At (n : Nat) (s : Led) : Prop where
  brightness : s.brightness.toNat = level n
  direction : s.direction = if n % 100 < 50 then fadeStep else -fadeStep
  running : s.returned = false

theorem at_start : At 0 .start := ⟨rfl, rfl, rfl⟩

theorem At.move {n : Nat} {s : Led} (h : At n s) : s.move.brightness.toNat = level (n + 1) := by
  have hle := level_le (n + 1)
  have hsum : (s.brightness.toNat + s.direction.toInt : Int) = level (n + 1) := by
    rw [h.brightness, h.direction]
    unfold level
    by_cases hup : n % 100 < 50
    · rw [if_pos hup, if_pos (by omega), if_pos (by omega), show fadeStep.toInt = 2 from rfl]
      omega
    · rw [if_neg hup, show (-fadeStep).toInt = -2 from rfl]
      split_ifs <;> omega
  show (UInt8.ofInt (s.brightness.toNat + s.direction.toInt)).toNat = level (n + 1)
  rw [hsum, UInt8.ofInt, UInt8.toNat_ofNat']
  omega

/-- **One step.** -/
theorem At.step {n : Nat} {s : Led} (h : At n s) :
    At (n + 1) s.move.turn ∧ s.move.turn.asked = s.asked ∧ s.move.turn.printed = s.printed ++ told (n + 1) := by
  have hmove := h.move
  have hrunning : s.move.returned = false := h.running
  have hdirection : s.move.direction = if n % 100 < 50 then fadeStep else -fadeStep := h.direction
  have hprinted : s.move.printed = s.printed := rfl
  have hasked : s.move.asked = s.asked := rfl
  have hoff : s.move.brightness = 0 ↔ (n + 1) % 100 = 0 := by
    rw [← UInt8.toNat_inj, hmove]
    show level (n + 1) = 0 ↔ _
    unfold level
    split_ifs <;> omega
  have hmax : s.move.brightness = 100 ↔ (n + 1) % 100 = 50 := by
    rw [← UInt8.toNat_inj, hmove]
    show level (n + 1) = 100 ↔ _
    unfold level
    split_ifs <;> omega
  generalize s.move = m at *
  have hturn : -(if n % 100 < 50 then fadeStep else -fadeStep) = if n % 100 < 50 then -fadeStep else fadeStep := by
    split_ifs <;> rfl
  unfold Led.turn told
  by_cases hdark : (n + 1) % 100 = 0
  · have hzero := hoff.mpr hdark
    rw [if_pos (Or.inl hzero), if_pos hzero, if_pos hdark]
    refine ⟨⟨hmove, ?_, hrunning⟩, hasked, congrArg (· ++ _) hprinted⟩
    show -m.direction = _
    rw [hdirection, hturn, if_neg (by omega), if_pos (by omega)]
  · have hnonzero : m.brightness ≠ 0 := fun heq => hdark (hoff.mp heq)
    rw [if_neg hdark]
    by_cases hfull : (n + 1) % 100 = 50
    · have hhundred := hmax.mpr hfull
      rw [if_pos (Or.inr hhundred), if_neg hnonzero, if_pos hfull]
      refine ⟨⟨hmove, ?_, hrunning⟩, hasked, congrArg (· ++ _) hprinted⟩
      show -m.direction = _
      rw [hdirection, hturn, if_pos (by omega), if_neg (by omega)]
    · rw [if_neg (not_or.mpr ⟨hnonzero, fun heq => hfull (hmax.mp heq)⟩), if_neg hfull]
      refine ⟨⟨hmove, ?_, hrunning⟩, hasked, hprinted.trans (List.append_nil _).symm⟩
      rw [hdirection]
      split_ifs <;> first | rfl | omega

/-! ## Runs -/

/-- The calls that succeed before one fails. -/
def successes (rets : List Int) : Nat := (rets.takeWhile (· = 0)).length

/-- What is told of the failure. -/
def failure (rets : List Int) : List String :=
  (rets.find? (· ≠ 0)).elim [] fun ret => ["led_set_brightness failed: " ++ toString ret ++ "\n"]

theorem foldl_iterate_returned {s : Led} (h : s.returned = true) (rets : List Int) :
    rets.foldl Led.iterate s = s := by
  induction rets with
  | nil => rfl
  | cons ret rets ih =>
      have hsame : s.iterate ret = s := if_pos h
      rw [List.foldl_cons, hsame, ih]

/-- The run that goes on from step `n`. -/
theorem At.run {n : Nat} {s : Led} (h : At n s) (rets : List Int) :
    (rets.foldl Led.iterate s).asked = s.asked ++
        (List.range (min (successes rets + 1) rets.length)).map (fun i => UInt8.ofNat (level (n + i))) ∧
      (rets.foldl Led.iterate s).printed = s.printed ++
        ((List.range (successes rets)).flatMap (fun i => told (n + i + 1)) ++ failure rets) := by
  induction rets generalizing n s with
  | nil => exact ⟨(List.append_nil _).symm, (List.append_nil _).symm⟩
  | cons ret rets ih =>
      have hbrightness : s.brightness = UInt8.ofNat (level n) := by
        rw [← h.brightness]
        exact UInt8.ofNat_toNat.symm
      by_cases hret : ret = 0
      · subst hret
        have hiterate : s.iterate 0 = ({ s with asked := s.asked ++ [s.brightness] } : Led).move.turn := by
          unfold Led.iterate
          rw [if_neg (by simp [h.running])]
          rfl
        have hat : At n { s with asked := s.asked ++ [s.brightness] } := ⟨h.brightness, h.direction, h.running⟩
        obtain ⟨hnext, hasked, hprinted⟩ := hat.step
        obtain ⟨hasked', hprinted'⟩ := ih hnext
        have hsuccesses : successes (0 :: rets) = successes rets + 1 := by simp [successes]
        have hfailure : failure (0 :: rets) = failure rets := by simp [failure]
        rw [List.foldl_cons, hiterate, hasked', hprinted', hasked, hprinted, hsuccesses, hfailure,
          List.length_cons, Nat.add_min_add_right, List.range_succ_eq_map, List.range_succ_eq_map]
        refine ⟨?_, ?_⟩
        · rw [hbrightness, List.map_cons, List.map_map, List.append_assoc, List.singleton_append]
          refine congrArg (fun l => s.asked ++ _ :: l) (List.map_congr_left fun i _ => ?_)
          show _ = UInt8.ofNat (level (n + (i + 1)))
          rw [show n + (i + 1) = n + 1 + i by omega]
        · rw [List.flatMap_cons, List.flatMap_map, List.append_assoc, List.append_assoc]
          refine congrArg (fun l => s.printed ++ (told (n + 1) ++ (l ++ failure rets))) ?_
          refine List.flatMap_congr fun i _ => ?_
          show _ = told (n + (i + 1) + 1)
          rw [show n + (i + 1) + 1 = n + 1 + i + 1 by omega]
      · have hiterate : s.iterate ret =
            { s with
              asked := s.asked ++ [s.brightness]
              printed := s.printed ++ ["led_set_brightness failed: " ++ toString ret ++ "\n"]
              returned := true } := by
          unfold Led.iterate
          rw [if_neg (by simp [h.running])]
          exact if_pos hret
        have hsuccesses : successes (ret :: rets) = 0 := by simp [successes, hret]
        have hfailure : failure (ret :: rets) = ["led_set_brightness failed: " ++ toString ret ++ "\n"] := by
          simp [failure, hret]
        rw [List.foldl_cons, hiterate, foldl_iterate_returned rfl, hsuccesses, hfailure, List.length_cons,
          hbrightness]
        refine ⟨?_, rfl⟩
        rw [Nat.min_eq_left (by omega)]
        rfl

/-- **The fade.** Whatever `led_set_brightness` returns, for a run of any length: with `k` calls that succeed before
the first that fails, the brightness asked for is the wave at 0, 1, ..., `k`, as far as the run goes, never over
100; and the texts are those of the turns of steps 1 to `k`, in order, and then of the failure. -/
theorem fade_spec (rets : List Int) :
    (main true rets).asked =
        (List.range (min (successes rets + 1) rets.length)).map (fun i => UInt8.ofNat (level i)) ∧
      (∀ b ∈ (main true rets).asked, b ≤ 100) ∧
      (main true rets).printed = Led.start.printed ++
        ((List.range (successes rets)).flatMap (fun i => told (i + 1)) ++ failure rets) := by
  obtain ⟨hasked, hprinted⟩ := at_start.run rets
  simp only [Nat.zero_add] at hasked hprinted
  refine ⟨hasked, ?_, hprinted⟩
  intro b hb
  obtain ⟨i, -, rfl⟩ := List.mem_map.mp (hasked ▸ hb)
  have hle := level_le i
  rw [UInt8.le_iff_toNat_le, UInt8.toNat_ofNat']
  show level i % 2 ^ 8 ≤ 100
  omega

end ZephyrSamples.Leds.Fade
