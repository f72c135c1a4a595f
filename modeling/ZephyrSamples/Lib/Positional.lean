/-
# ZephyrSamples.Lib.Positional -- numbers with a given count of digits

A number is written in some base with a given count of digits, the highest first, and behind each of them
something that is no digit. Reading skips what is no digit and gives the number back, up to what the digits can
hold (`read_digits`). In base 2 the ones among the digits are the bits set (`count_digits`).

Nothing here names a program.
-/
import Mathlib.Algebra.Group.Nat.Defs
import Mathlib.Data.List.Count

namespace ZephyrSamples.Lib.Positional

/-- The `k` lowest digits, the highest of them first, with `sep i` behind the digit that counts `base ^ i`. -/
def digits (base : Nat) (sep : Nat → List Char) (n : Nat) : Nat → List Char
  | 0 => []
  | k + 1 => (n / base ^ k % base).digitChar :: (sep k ++ digits base sep n k)

def digitValue (c : Char) : Option Nat := (List.range 16).find? fun d => d.digitChar = c

/-- What the digits of a text say, behind some others that say `n`. -/
def read (base : Nat) (n : Nat) (text : List Char) : Nat :=
  text.foldl (fun n c => match digitValue c with | some d => base * n + d | none => n) n

section Reading

variable {base : Nat} {sep : Nat → List Char}

theorem digitValue_digitChar {d : Nat} (h : d < 16) : digitValue d.digitChar = some d := by
  revert d
  decide

theorem read_append (n : Nat) (before after : List Char) :
    read base n (before ++ after) = read base (read base n before) after := List.foldl_append

theorem read_of_none {text : List Char} (h : ∀ c ∈ text, digitValue c = none) (n : Nat) :
    read base n text = n := by
  induction text with
  | nil => rfl
  | cons c text ih =>
      unfold read
      rw [List.foldl_cons, h c List.mem_cons_self]
      exact ih fun c' hc' => h c' (List.mem_cons_of_mem c hc')

theorem read_digit {d : Nat} (h : d < 16) (n : Nat) (text : List Char) :
    read base n (d.digitChar :: text) = read base (base * n + d) text := by
  unfold read
  rw [List.foldl_cons, digitValue_digitChar h]

/-- **The digits say the number.** -/
theorem read_digits (hpos : 0 < base) (hbase : base ≤ 16) (hsep : ∀ i, ∀ c ∈ sep i, digitValue c = none)
    (n acc k : Nat) : read base acc (digits base sep n k) = acc * base ^ k + n % base ^ k := by
  induction k generalizing acc with
  | zero =>
      rw [Nat.pow_zero, Nat.mod_one, Nat.mul_one]
      rfl
  | succ k ih =>
      have hdigit : n / base ^ k % base < 16 := Nat.lt_of_lt_of_le (Nat.mod_lt _ hpos) hbase
      calc read base acc (digits base sep n (k + 1))
          = read base (base * acc + n / base ^ k % base) (sep k ++ digits base sep n k) := read_digit hdigit acc _
        _ = (base * acc + n / base ^ k % base) * base ^ k + n % base ^ k := by
            rw [read_append, read_of_none (hsep k), ih]
        _ = acc * base ^ (k + 1) + n % base ^ (k + 1) := by
            rw [Nat.mod_pow_succ, Nat.pow_succ, Nat.add_mul, Nat.mul_comm base acc, Nat.mul_assoc,
              Nat.mul_comm base, Nat.mul_comm (n / base ^ k % base)]
            omega

/-- Enough digits say it all. -/
theorem read_digits_of_lt (hpos : 0 < base) (hbase : base ≤ 16) (hsep : ∀ i, ∀ c ∈ sep i, digitValue c = none)
    {n k : Nat} (h : n < base ^ k) : read base 0 (digits base sep n k) = n := by
  rw [read_digits hpos hbase hsep, Nat.zero_mul, Nat.zero_add, Nat.mod_eq_of_lt h]

end Reading

theorem length_digits {sep : Nat → List Char} (base n k : Nat) :
    (digits base sep n k).length = k + ((List.range k).flatMap sep).length := by
  induction k with
  | zero => rfl
  | succ k ih =>
      rw [digits, List.length_cons, List.length_append, ih, List.range_succ, List.flatMap_append,
        List.length_append, List.flatMap_singleton]
      omega

/-! ## Bits -/

variable {sep : Nat → List Char}

/-- A binary digit, as it is computed from the bits. -/
theorem digitChar_bit {w : Nat} (num : BitVec w) (i : Nat) :
    (num.toNat / 2 ^ i % 2).digitChar = if num.getLsbD i then '1' else '0' := by
  have hbit : num.toNat / 2 ^ i % 2 = (num.getLsbD i).toNat := by
    rw [BitVec.getLsbD, Nat.toNat_testBit]
  rw [hbit]
  rcases num.getLsbD i with _ | _ <;> rfl

/-- A loop over the bits from the highest down, as texts. -/
theorem flatMap_bits {w : Nat} (num : BitVec w) (sep : Nat → String) (k : Nat) :
    ((List.range k).reverse.map fun i =>
      (if num.getLsbD i then "1" else "0") ++ sep i).flatMap String.toList =
      digits 2 (fun i => (sep i).toList) num.toNat k := by
  induction k with
  | zero => rfl
  | succ k ih =>
      rw [List.range_succ, List.reverse_append, List.reverse_singleton, List.singleton_append, List.map_cons,
        List.flatMap_cons, ih, digits, digitChar_bit, String.toList_append, List.append_assoc]
      rcases num.getLsbD k with _ | _ <;> rfl

/-- A blank here and there is no digit. -/
theorem digitValue_blank {p : Prop} [Decidable p] : ∀ c ∈ (if p then " " else "").toList, digitValue c = none := by
  intro c hc
  split at hc
  · rw [List.mem_singleton.mp hc]
    rfl
  · cases hc

theorem one_not_mem_blank {p : Prop} [Decidable p] : '1' ∉ (if p then " " else "").toList := by
  intro hmem
  cases digitValue_blank '1' hmem

theorem count_digits {w : Nat} (hsep : ∀ i, '1' ∉ sep i) (num : BitVec w) (k : Nat) :
    (digits 2 sep num.toNat k).count '1' = num.cpopNatRec k 0 := by
  induction k with
  | zero => rfl
  | succ k ih =>
      rw [digits, List.count_cons, List.count_append, List.count_eq_zero_of_not_mem (hsep k), Nat.zero_add, ih,
        digitChar_bit, BitVec.cpopNatRec_succ, Nat.zero_add, BitVec.cpopNatRec_eq (num.getLsbD k).toNat]
      rcases num.getLsbD k with _ | _ <;> rfl

end ZephyrSamples.Lib.Positional
