/-
# ZephyrSamples.Lib.Text -- numbers and texts as C prints them

The conversions of the `printf` family for texts and decimal numbers, on bytes. A decimal has no NUL among its
digits, is as long as the number is large, and says which number it is of (`decimal_injective`).

Nothing here names a program.
-/
import Mathlib.Algebra.Group.Nat.Defs
import ZephyrSamples.Lib.CString

namespace ZephyrSamples.Lib.Text

/-- The code of an ASCII character. -/
def charCode (c : Char) : UInt8 := UInt8.ofNat c.toNat

/-- A text in memory, as it is printed. -/
def text (bytes : List UInt8) : String := String.ofList (bytes.map fun b => Char.ofNat b.toNat)

/-- `%u` and its like. -/
def decimal (n : Nat) : List UInt8 := (Nat.toDigits 10 n).map charCode

/-- `%d` and its like. -/
def signed (i : Int) : List UInt8 := if i < 0 then 45 :: decimal i.natAbs else decimal i.natAbs

/-- `snprintf` into a buffer of `size` bytes: what it stores in front of the NUL, and what it returns. -/
def snprintf (size : Nat) (formatted : List UInt8) : List UInt8 × Nat :=
  (formatted.take (size - 1), formatted.length)

/-- What fits is stored whole. -/
theorem snprintf_of_lt {size : Nat} {formatted : List UInt8} (h : formatted.length < size) :
    snprintf size formatted = (formatted, formatted.length) := by
  unfold snprintf
  rw [List.take_of_length_le (by omega)]

theorem toNat_charCode_of_isDigit {c : Char} (h : c.isDigit = true) :
    (charCode c).toNat = c.toNat ∧ 48 ≤ c.toNat ∧ c.toNat ≤ 57 := by
  rw [Char.isDigit, Bool.and_eq_true, decide_eq_true_eq, decide_eq_true_eq] at h
  obtain ⟨hlow, hhigh⟩ := h
  have h48 : 48 ≤ c.toNat := hlow
  have h57 : c.toNat ≤ 57 := hhigh
  refine ⟨?_, h48, h57⟩
  unfold charCode
  rw [UInt8.toNat_ofNat']
  omega

/-- Digits are digits. -/
theorem mem_decimal {n : Nat} {b : UInt8} (h : b ∈ decimal n) : 48 ≤ b.toNat ∧ b.toNat ≤ 57 := by
  obtain ⟨c, hc, rfl⟩ := List.mem_map.mp h
  have hdigit := Nat.isDigit_of_mem_toDigits (by decide) (by decide) hc
  obtain ⟨heq, hbounds⟩ := toNat_charCode_of_isDigit hdigit
  rw [heq]
  exact hbounds

theorem zero_not_mem_decimal (n : Nat) : 0 ∉ decimal n := by
  intro h
  have hbounds := mem_decimal h
  simp at hbounds

theorem length_decimal_le {n k : Nat} (hk : 0 < k) (h : n < 10 ^ k) : (decimal n).length ≤ k := by
  unfold decimal
  rw [List.length_map]
  exact (Nat.length_toDigits_le_iff (by decide) hk).mpr h

/-- The digits as characters again. -/
theorem map_decimal (n : Nat) : (decimal n).map (fun b => Char.ofNat b.toNat) = Nat.toDigits 10 n := by
  unfold decimal
  rw [List.map_map]
  conv_rhs => rw [← List.map_id (Nat.toDigits 10 n)]
  refine List.map_congr_left fun c hc => ?_
  have hdigit := Nat.isDigit_of_mem_toDigits (by decide) (by decide) hc
  show Char.ofNat (charCode c).toNat = c
  rw [(toNat_charCode_of_isDigit hdigit).1, Char.ofNat_toNat]

theorem toDigits_injective {m n : Nat} (h : Nat.toDigits 10 m = Nat.toDigits 10 n) : m = n := by
  rw [← Nat.ofDigitChars_ten_toDigits (n := m), h, Nat.ofDigitChars_ten_toDigits]

/-- **Decimals can be read back.** -/
theorem decimal_injective {m n : Nat} (h : decimal m = decimal n) : m = n := by
  apply toDigits_injective
  rw [← map_decimal, h, map_decimal]

theorem length_signed_le {i : Int} {k : Nat} (hk : 0 < k) (h : i.natAbs < 10 ^ k) :
    (signed i).length ≤ k + if i < 0 then 1 else 0 := by
  have hlen := length_decimal_le hk h
  unfold signed
  split_ifs
  · rw [List.length_cons]
    omega
  · omega

end ZephyrSamples.Lib.Text
