/-
# ZephyrSamples.Utils.Srng -- random numbers in ranges and in print

The demonstrations of `utils/_01_SRNG` take numbers from the generator, reduce them to a range and print them in
decimal, hexadecimal and binary. The numbers drawn are parameters here.

The reduction by `%` hits every value of its range, and it is exactly known how often (`reduced_hits`), and so how
often a line printed says it (`demoRandomRange_hits`, `demoRandomDiceSimulation_hits`). What is printed of a bit
pattern says it twice and counts its bits (`patterns_read`), and what is printed of a buffer is read back
(`demoRandomBuffer_reads`).
-/
import ZephyrSamples.Lib.Positional
import ZephyrSamples.Lib.Text
import Mathlib.Data.Int.CardIntervalMod

namespace ZephyrSamples.Utils.Srng

open ZephyrSamples.Lib
open ZephyrSamples.Lib.Positional

/-! ## Ranges -/

/-- A number of `demo_random_range`. -/
def rangeVal (randomVal : UInt32) : UInt32 := randomVal % 100 + 1

/-- A roll of `demo_random_dice_simulation`. -/
def dice (rand8 : UInt8) : UInt8 := rand8 % 6 + 1

/-- What `demo_random_range` prints; `rand` is what `sys_rand32_get` returns the next times. -/
def demoRandomRange (rand : Nat → UInt32) : List String :=
  "\n=== Random Number in Range (1-100) ===\n" ::
    (List.range 5).map fun i => "Random value " ++ toString (i + 1) ++ ": " ++ toString (rangeVal (rand i)) ++ "\n"

/-- What `demo_random_dice_simulation` prints, in the same way. -/
def demoRandomDiceSimulation (rand : Nat → UInt8) : List String :=
  "\n=== Dice Roll Simulation (6-sided die) ===\n" ::
    (List.range 10).map fun i => "Roll " ++ toString (i + 1) ++ ": " ++ toString (dice (rand i)) ++ "\n"

theorem count_congr {p q : Nat → Prop} [DecidablePred p] [DecidablePred q] {n : Nat}
    (h : ∀ k < n, p k ↔ q k) : n.count p = n.count q := by
  apply le_antisymm
  · exact Nat.count_mono_left fun k hk => (h k hk).mp
  · exact Nat.count_mono_left fun k hk => (h k hk).mpr

/-- How many of the numbers below `size` the reduction to 1, ..., `n` sends to `v`. -/
theorem count_reduced {n : Nat} (hn : 0 < n) (size v : Nat) :
    size.count (fun r => r % n + 1 = v) =
      if 1 ≤ v ∧ v ≤ n then size / n + (if v ≤ size % n then 1 else 0) else 0 := by
  by_cases hv : 1 ≤ v ∧ v ≤ n
  · have hmod : (v - 1) % n = v - 1 := Nat.mod_eq_of_lt (by omega)
    have hcount : size.count (fun r => r % n + 1 = v) = size.count (· ≡ v - 1 [MOD n]) := by
      apply count_congr
      intro r _
      show r % n + 1 = v ↔ r % n = (v - 1) % n
      omega
    have hiff : v - 1 < size % n ↔ v ≤ size % n := by omega
    rw [hcount, Nat.count_modEq_card size hn, hmod, if_pos hv]
    simp only [hiff]
  · rw [if_neg hv, Nat.count_iff_forall_not]
    intro r _ hr
    have hlt := Nat.mod_lt r hn
    omega

theorem range_hits (v : Nat) :
    UInt32.size.count (fun r => (rangeVal (UInt32.ofNat r)).toNat = v) =
      if 1 ≤ v ∧ v ≤ 100 then 42949672 + (if v ≤ 96 then 1 else 0) else 0 := by
  have hval : ∀ r < UInt32.size, (rangeVal (UInt32.ofNat r)).toNat = r % 100 + 1 := by
    intro r hr
    have hlt := Nat.mod_lt r (show 100 > 0 by omega)
    unfold rangeVal
    rw [UInt32.toNat_add, UInt32.toNat_mod, UInt32.toNat_ofNat_of_lt' hr]
    show (r % 100 + 1) % 4294967296 = r % 100 + 1
    omega
  calc UInt32.size.count (fun r => (rangeVal (UInt32.ofNat r)).toNat = v)
      = UInt32.size.count (fun r => r % 100 + 1 = v) := by
        apply count_congr
        intro r hr
        rw [hval r hr]
    _ = _ := count_reduced (by omega) UInt32.size v

theorem dice_hits (v : Nat) :
    UInt8.size.count (fun r => (dice (UInt8.ofNat r)).toNat = v) =
      if 1 ≤ v ∧ v ≤ 6 then 42 + (if v ≤ 4 then 1 else 0) else 0 := by
  have hval : ∀ r < UInt8.size, (dice (UInt8.ofNat r)).toNat = r % 6 + 1 := by
    intro r hr
    have hlt := Nat.mod_lt r (show 6 > 0 by omega)
    unfold dice
    rw [UInt8.toNat_add, UInt8.toNat_mod, UInt8.toNat_ofNat_of_lt' hr]
    show (r % 6 + 1) % 256 = r % 6 + 1
    omega
  calc UInt8.size.count (fun r => (dice (UInt8.ofNat r)).toNat = v)
      = UInt8.size.count (fun r => r % 6 + 1 = v) := by
        apply count_congr
        intro r hr
        rw [hval r hr]
    _ = _ := count_reduced (by omega) UInt8.size v

/-- **What the reduction hits.** Of all the numbers that the generator may return 42949673 are sent to each of 1 to
96, one less to each of 97 to 100 and none elsewhere; 43 are sent to each face of the die from 1 to 4, 42 to 5 and
6 and none elsewhere. -/
theorem reduced_hits :
    (∀ v, UInt32.size.count (fun r => (rangeVal (UInt32.ofNat r)).toNat = v) =
      if 1 ≤ v ∧ v ≤ 100 then 42949672 + (if v ≤ 96 then 1 else 0) else 0) ∧
    ∀ v, UInt8.size.count (fun r => (dice (UInt8.ofNat r)).toNat = v) =
      if 1 ≤ v ∧ v ≤ 6 then 42 + (if v ≤ 4 then 1 else 0) else 0 :=
  ⟨range_hits, dice_hits⟩

/-- Of the numbered lines behind a heading, the `i`-th tells its number. -/
theorem line_eq_iff (heading label : String) (value : Nat → Nat) {i n : Nat} (hi : i < n) (v : Nat) :
    (heading :: (List.range n).map fun i =>
        label ++ toString (i + 1) ++ ": " ++ toString (value i) ++ "\n")[i + 1]? =
      some (label ++ toString (i + 1) ++ ": " ++ toString v ++ "\n") ↔ value i = v := by
  rw [List.getElem?_cons_succ, List.getElem?_map, List.getElem?_range hi, Option.map_some, Option.some_inj,
    String.append_left_inj, String.append_right_inj]
  exact ⟨fun h => Text.toDigits_injective (String.ofList_injective h), congrArg toString⟩

/-- **What is printed of the numbers in a range.** Whatever is drawn for the others, the line of the `i`-th says `v`
for as many of the values it may have as the reduction sends to `v`. -/
theorem demoRandomRange_hits (rand : Nat → UInt32) {i : Nat} (hi : i < 5) (v : Nat) :
    UInt32.size.count (fun r => (demoRandomRange (Function.update rand i (UInt32.ofNat r)))[i + 1]? =
        some ("Random value " ++ toString (i + 1) ++ ": " ++ toString v ++ "\n")) =
      if 1 ≤ v ∧ v ≤ 100 then 42949672 + (if v ≤ 96 then 1 else 0) else 0 := by
  rw [← range_hits v]
  apply count_congr
  intro r _
  have hline := line_eq_iff "\n=== Random Number in Range (1-100) ===\n" "Random value "
    (fun j => (rangeVal (Function.update rand i (UInt32.ofNat r) j)).toNat) hi v
  rw [Function.update_self] at hline
  exact hline

/-- **What is printed of the rolls.** -/
theorem demoRandomDiceSimulation_hits (rand : Nat → UInt8) {i : Nat} (hi : i < 10) (v : Nat) :
    UInt8.size.count (fun r => (demoRandomDiceSimulation (Function.update rand i (UInt8.ofNat r)))[i + 1]? =
        some ("Roll " ++ toString (i + 1) ++ ": " ++ toString v ++ "\n")) =
      if 1 ≤ v ∧ v ≤ 6 then 42 + (if v ≤ 4 then 1 else 0) else 0 := by
  rw [← dice_hits v]
  apply count_congr
  intro r _
  have hline := line_eq_iff "\n=== Dice Roll Simulation (6-sided die) ===\n" "Roll "
    (fun j => (dice (Function.update rand i (UInt8.ofNat r) j)).toNat) hi v
  rw [Function.update_self] at hline
  exact hline

/-! ## Bit patterns -/

/-- `%08x` and its like. -/
def hex (digitCount n : Nat) : List Char := digits 16 (fun _ => []) n digitCount

theorem read_hex {digitCount n : Nat} (h : n < 16 ^ digitCount) : read 16 0 (hex digitCount n) = n :=
  read_digits_of_lt (by omega) (Nat.le_refl 16) (fun _ _ hc => absurd hc List.not_mem_nil) h

/-- The loop over the bits. -/
def binary (pattern : BitVec 32) : String :=
  String.join ((List.range 32).reverse.map fun i =>
    (if pattern.getLsbD i then "1" else "0") ++ (if i % 8 = 0 then " " else ""))

/-- `__builtin_popcountl` -/
def setBits (pattern : BitVec 32) : Nat := pattern.cpop.toNat

def hexLine (pattern : BitVec 32) : String := "Pattern:        0x" ++ String.ofList (hex 8 pattern.toNat) ++ "\n"

def binaryLine (pattern : BitVec 32) : String := "Binary:         " ++ binary pattern ++ "\n"

/-- What `demo_random_patterns` prints. -/
def demoRandomPatterns (pattern : BitVec 32) : List String :=
  ["\n=== Random Bit Patterns ===\n", hexLine pattern, binaryLine pattern,
    "Number of set bits: " ++ toString (setBits pattern) ++ " out of 32\n"]

theorem toNat_setBits (pattern : BitVec 32) : setBits pattern = pattern.cpopNatRec 32 0 := by
  have hle : pattern.cpopNatRec 32 0 ≤ 0 + 32 := BitVec.cpopNatRec_le 32
  unfold setBits BitVec.cpop
  rw [BitVec.toNat_ofNat]
  apply Nat.mod_eq_of_lt
  omega

/-- **What is printed of a pattern** is its value in hexadecimal and in binary, and how many ones there are in the
binary text. -/
theorem patterns_read (pattern : BitVec 32) :
    ∃ hexText binaryText : List Char,
      demoRandomPatterns pattern =
        ["\n=== Random Bit Patterns ===\n",
          "Pattern:        0x" ++ String.ofList hexText ++ "\n",
          "Binary:         " ++ String.ofList binaryText ++ "\n",
          "Number of set bits: " ++ toString (binaryText.count '1') ++ " out of 32\n"] ∧
      hexText.length = 8 ∧ read 16 0 hexText = pattern.toNat ∧ read 2 0 binaryText = pattern.toNat := by
  have hbinary : (binary pattern).toList = digits 2 (fun i => (if i % 8 = 0 then " " else "").toList) pattern.toNat 32 := by
    unfold binary
    rw [String.toList_join, flatMap_bits]
  refine ⟨hex 8 pattern.toNat, (binary pattern).toList, ?_, ?_, ?_, ?_⟩
  · rw [String.ofList_toList, hbinary, count_digits fun _ => one_not_mem_blank, ← toNat_setBits]
    rfl
  · exact length_digits 16 pattern.toNat 8
  · exact read_hex pattern.isLt
  · rw [hbinary]
    exact read_digits_of_lt Nat.two_pos (by omega) (fun _ => digitValue_blank) pattern.isLt

/-! ## Buffers -/

/-- `%02x` and a blank for each byte. -/
def hexBytes (buffer : List UInt8) : List Char := buffer.flatMap fun b => hex 2 b.toNat ++ [' ']

/-- What `demo_random_buffer` prints; `buffer` is what `sys_rand_get` has stored. -/
def demoRandomBuffer (buffer : List UInt8) : List String :=
  ["\n=== Buffer Random Generation ===\n", "Random buffer (hex): " ++ String.ofList (hexBytes buffer) ++ "\n"]

/-- Three characters a byte. -/
def readBytes : List Char → List UInt8
  | high :: low :: _ :: text => UInt8.ofNat (read 16 0 [high, low]) :: readBytes text
  | _ => []

/-- **A printed buffer is read back.** -/
theorem buffer_reads (buffer : List UInt8) : readBytes (hexBytes buffer) = buffer := by
  induction buffer with
  | nil => rfl
  | cons b buffer ih =>
      have hread : read 16 0 (hex 2 b.toNat) = b.toNat := read_hex b.toNat_lt
      show UInt8.ofNat (read 16 0 (hex 2 b.toNat)) :: readBytes (hexBytes buffer) = b :: buffer
      rw [hread, ih, UInt8.ofNat_toNat]

theorem length_hexBytes (buffer : List UInt8) : (hexBytes buffer).length = 3 * buffer.length := by
  induction buffer with
  | nil => rfl
  | cons b buffer ih =>
      have hlen : (hex 2 b.toNat ++ [' ']).length = 3 := rfl
      unfold hexBytes at ih ⊢
      rw [List.flatMap_cons, List.length_append, hlen, ih, List.length_cons]
      omega

/-- **What is printed of the buffer** is one line, three characters for each byte, and the bytes are read back
from it. -/
theorem demoRandomBuffer_reads (buffer : List UInt8) :
    ∃ hexText : List Char,
      demoRandomBuffer buffer =
        ["\n=== Buffer Random Generation ===\n", "Random buffer (hex): " ++ String.ofList hexText ++ "\n"] ∧
      hexText.length = 3 * buffer.length ∧ readBytes hexText = buffer :=
  ⟨hexBytes buffer, rfl, length_hexBytes buffer, buffer_reads buffer⟩

end ZephyrSamples.Utils.Srng
