/-
# ZephyrSamples.Events.Binary -- what a printed event says

The consumers of `EVENTS/_01` to `_04` print the value of an event in binary, in groups of four digits. The text
has the same length for all values, and the value can be read back from it (`printBinary_reads`).
-/
import ZephyrSamples.Events.Signal
import ZephyrSamples.Lib.Positional

namespace ZephyrSamples.Events.Binary

open ZephyrSamples.Lib.Positional

/-- What `print_binary` prints behind the digit of bit `i`. -/
def blank (i : Nat) : List Char := (if i % 4 = 0 ∧ i ≠ 0 then " " else "").toList

theorem toList_printBinary (num : BitVec 32) :
    (printBinary num).toList = digits 2 blank num.toNat 32 ++ ['\n'] := by
  unfold printBinary
  rw [String.toList_append, String.toList_join, flatMap_bits]
  rfl

/-- **A printed event is read back**: the text is of 40 characters, its digits say the value, and as many of them
are ones as bits are set. -/
theorem printBinary_reads (num : BitVec 32) :
    (printBinary num).toList.length = 40 ∧ read 2 0 (printBinary num).toList = num.toNat ∧
      (printBinary num).toList.count '1' = num.cpopNatRec 32 0 := by
  have hblank : ∀ i, ∀ c ∈ blank i, digitValue c = none := fun _ => digitValue_blank
  have hone : ∀ i, '1' ∉ blank i := fun _ => one_not_mem_blank
  rw [toList_printBinary]
  refine ⟨?_, ?_, ?_⟩
  · rw [List.length_append, length_digits]
    rfl
  · rw [read_append, read_digits_of_lt Nat.two_pos (by omega) hblank num.isLt]
    rfl
  · rw [List.count_append, count_digits hone]
    rfl

end ZephyrSamples.Events.Binary
