/-
# ZephyrSamples.Lib.CString -- C strings over raw memory

A C string is a pointer: the bytes up to the first NUL, wherever that NUL happens to be. Code that
receives a *slice* (a pointer and a length) and hands the pointer to `strcmp` therefore compares
more than the slice. This module keeps the two notions apart: `Memory` is everything readable from
a pointer on, `IsString m str` says which string `strcmp` sees there, and `isString_append_iff`
says exactly when the string seen at the start of a slice is a given one.

Nothing here names a program; the byte values are `UInt8` and the memory is a total function, so no
read is ever out of range.
-/
import Mathlib.Data.List.Basic
import Mathlib.Data.List.TakeWhile

namespace ZephyrSamples.Lib.CString

/-- The bytes readable from a pointer on: `m i` is the byte `i` places after it. -/
abbrev Memory := Nat → UInt8

/-- The bytes of a string literal, without its terminator. -/
def ascii (s : String) : List UInt8 := s.toList.map fun c => UInt8.ofNat c.toNat

/-- `'\r'` -/
def cr : UInt8 := 13

/-- The memory seen from the next address on. -/
def Memory.tail (m : Memory) : Memory := fun i => m (i + 1)

/-- A slice followed by other memory. -/
def append : List UInt8 → Memory → Memory
  | [], m => m
  | c :: cs, m => fun
    | 0 => c
    | i + 1 => append cs m i

@[simp] theorem append_nil (m : Memory) : append [] m = m := rfl

@[simp] theorem append_cons_zero (c : UInt8) (cs : List UInt8) (m : Memory) :
    append (c :: cs) m 0 = c := rfl

@[simp] theorem append_cons_tail (c : UInt8) (cs : List UInt8) (m : Memory) :
    (append (c :: cs) m).tail = append cs m := rfl

/-- `strcmp` against a string literal: the difference at the first byte that differs, the literal's
own terminator included. -/
def strcmp (s : Memory) : List UInt8 → Int
  | [] => (s 0).toNat
  | c :: cs => if s 0 = c then strcmp s.tail cs else (s 0).toNat - c.toNat

/-- The C string that starts at `m` is `str`. -/
def IsString (m : Memory) : List UInt8 → Prop
  | [] => m 0 = 0
  | c :: cs => m 0 = c ∧ IsString m.tail cs

@[simp] theorem isString_nil (m : Memory) : IsString m [] ↔ m 0 = 0 := Iff.rfl

@[simp] theorem isString_cons (m : Memory) (c : UInt8) (cs : List UInt8) :
    IsString m (c :: cs) ↔ m 0 = c ∧ IsString m.tail cs := Iff.rfl

/-- `strcmp` answers zero exactly for the C string that starts at the pointer. -/
theorem strcmp_eq_zero_iff (s : Memory) (lit : List UInt8) :
    strcmp s lit = 0 ↔ IsString s lit := by
  induction lit generalizing s with
  | nil =>
      simp only [strcmp, isString_nil]
      constructor
      · intro h
        exact UInt8.toNat_inj.mp (Int.ofNat_eq_zero.mp h)
      · intro h
        rw [h]
        rfl
  | cons c cs ih =>
      simp only [strcmp, isString_cons]
      by_cases h : s 0 = c
      · simp only [h, if_true, true_and]
        exact ih s.tail
      · have hne : (s 0).toNat ≠ c.toNat := fun e => h (UInt8.toNat_inj.mp e)
        simp only [h, if_false, false_and, iff_false]
        omega

/-- What reading a C string from `m` yields: the bytes before the first NUL. -/
def Reads (m : Memory) (str : List UInt8) : Prop := IsString m str ∧ 0 ∉ str

/-- It yields one string. -/
theorem Reads.unique {m : Memory} {str str' : List UInt8} (h : Reads m str) (h' : Reads m str') :
    str = str' := by
  obtain ⟨h, hnul⟩ := h
  obtain ⟨h', hnul'⟩ := h'
  induction str generalizing m str' with
  | nil =>
      cases str' with
      | nil => rfl
      | cons c cs => exact absurd (h.symm.trans h'.1) fun heq => hnul' (heq ▸ List.mem_cons_self)
  | cons c cs ih =>
      cases str' with
      | nil => exact absurd (h'.symm.trans h.1) fun heq => hnul (heq ▸ List.mem_cons_self)
      | cons d ds =>
          rw [← h.1, ← h'.1, ih h.2 (fun hmem => hnul (List.mem_cons_of_mem c hmem)) h'.2
            fun hmem => hnul' (List.mem_cons_of_mem d hmem)]

/-- **The string at the start of a slice.** `strcmp` sees `str` at the start of `topic` followed by
`rest` in three ways only: the slice is `str` and a NUL happens to follow it; the slice itself holds
`str` and a NUL; or the slice stops short and the memory behind it supplies what is missing. -/
theorem isString_append_iff (topic str : List UInt8) (rest : Memory) :
    IsString (append topic rest) str ↔
      (topic = str ∧ rest 0 = 0) ∨ str ++ [0] <+: topic ∨
        ∃ missing, missing ≠ [] ∧ topic ++ missing = str ∧ IsString rest missing := by
  induction topic generalizing str with
  | nil =>
      cases str with
      | nil => simp
      | cons c cs => simp
  | cons t ts ih =>
      cases str with
      | nil => simp [List.cons_prefix_cons, eq_comm]
      | cons c cs =>
          simp only [isString_cons, append_cons_zero, append_cons_tail, ih cs,
            List.cons_append, List.cons_prefix_cons, List.cons.injEq]
          constructor
          · rintro ⟨rfl, ⟨rfl, h⟩ | h | ⟨ms, hne, rfl, hs⟩⟩
            · exact Or.inl ⟨⟨rfl, rfl⟩, h⟩
            · exact Or.inr (Or.inl ⟨rfl, h⟩)
            · exact Or.inr (Or.inr ⟨ms, hne, ⟨rfl, rfl⟩, hs⟩)
          · rintro (⟨⟨rfl, rfl⟩, h⟩ | ⟨rfl, h⟩ | ⟨ms, hne, ⟨rfl, rfl⟩, hs⟩)
            · exact ⟨rfl, Or.inl ⟨rfl, h⟩⟩
            · exact ⟨rfl, Or.inr (Or.inl h)⟩
            · exact ⟨rfl, Or.inr (Or.inr ⟨ms, hne, rfl, hs⟩)⟩

/-! ## Memory that is written -/

/-- One byte stored. -/
def Memory.set (m : Memory) (a : Nat) (b : UInt8) : Memory := fun x => if x = a then b else m x

/-- Bytes stored one behind the other from `a` on. -/
def Memory.blit (m : Memory) (a : Nat) : List UInt8 → Memory
  | [] => m
  | b :: bs => Memory.blit (m.set a b) (a + 1) bs

@[simp] theorem set_self (m : Memory) (a : Nat) (b : UInt8) : m.set a b a = b := if_pos rfl

theorem set_of_ne (m : Memory) {a x : Nat} (b : UInt8) (h : x ≠ a) : m.set a b x = m x := if_neg h

/-- What lies in front of the stored bytes stays. -/
theorem blit_of_lt (m : Memory) {a x : Nat} (bytes : List UInt8) (h : x < a) :
    m.blit a bytes x = m x := by
  induction bytes generalizing m a with
  | nil => rfl
  | cons b bs ih =>
      show (m.set a b).blit (a + 1) bs x = m x
      rw [ih (m.set a b) (by omega), set_of_ne m b (by omega)]

/-- What lies behind them stays. -/
theorem blit_of_ge (m : Memory) {a x : Nat} (bytes : List UInt8) (h : a + bytes.length ≤ x) :
    m.blit a bytes x = m x := by
  induction bytes generalizing m a with
  | nil => rfl
  | cons b bs ih =>
      rw [List.length_cons] at h
      show (m.set a b).blit (a + 1) bs x = m x
      rw [ih (m.set a b) (by omega), set_of_ne m b (by omega)]

/-- The bytes themselves. -/
theorem blit_add (m : Memory) (a : Nat) (bytes : List UInt8) (i : Nat) (h : i < bytes.length) :
    m.blit a bytes (a + i) = bytes[i] := by
  induction bytes generalizing m a i with
  | nil => simp at h
  | cons b bs ih =>
      show (m.set a b).blit (a + 1) bs (a + i) = _
      cases i with
      | zero =>
          rw [blit_of_lt (m.set a b) bs (by omega)]
          exact set_self m a b
      | succ i =>
          have hi : i < bs.length := by simpa using h
          rw [show a + (i + 1) = a + 1 + i by omega]
          exact ih (m.set a b) (a + 1) i hi

/-- The `n` bytes from `a` on. -/
def Memory.slice (m : Memory) (a n : Nat) : List UInt8 := (List.range n).map fun k => m (a + k)

theorem slice_add (m : Memory) (a n k : Nat) : m.slice a (n + k) = m.slice a n ++ m.slice (a + n) k := by
  unfold Memory.slice
  rw [List.range_add, List.map_append, List.map_map]
  congr 1
  apply List.map_congr_left
  intro x _
  show m (a + (n + x)) = m (a + n + x)
  rw [Nat.add_assoc]

theorem slice_succ (m : Memory) (a n : Nat) : m.slice a (n + 1) = m a :: m.slice (a + 1) n := by
  rw [Nat.add_comm, slice_add]
  rfl

@[simp] theorem length_slice (m : Memory) (a n : Nat) : (m.slice a n).length = n := by
  rw [Memory.slice, List.length_map, List.length_range]

/-- The beginning of a slice. -/
theorem take_slice (m : Memory) (a : Nat) {n k : Nat} (h : k ≤ n) :
    (m.slice a n).take k = m.slice a k := by
  obtain ⟨r, rfl⟩ := Nat.exists_eq_add_of_le h
  rw [slice_add, List.take_left' (length_slice m a k)]

/-- Equal bytes, equal slices. -/
theorem slice_congr {m m' : Memory} {a n : Nat} (h : ∀ k < n, m (a + k) = m' (a + k)) :
    m.slice a n = m'.slice a n := by
  apply List.map_congr_left
  intro k hk
  exact h k (List.mem_range.mp hk)

/-- What was stored is read back. -/
theorem slice_blit (m : Memory) (a : Nat) (bytes : List UInt8) :
    (m.blit a bytes).slice a bytes.length = bytes := by
  induction bytes generalizing m a with
  | nil => rfl
  | cons b bs ih =>
      show ((m.set a b).blit (a + 1) bs).slice a (bs.length + 1) = b :: bs
      rw [slice_succ, ih, blit_of_lt _ _ (Nat.lt_succ_self a), set_self]

/-- A string byte by byte. -/
theorem isString_iff (m : Memory) (str : List UInt8) :
    IsString m str ↔ (∀ i, ∀ h : i < str.length, m i = str[i]) ∧ m str.length = 0 := by
  induction str generalizing m with
  | nil => simp
  | cons c cs ih =>
      rw [isString_cons, ih m.tail]
      constructor
      · rintro ⟨h0, hall, hend⟩
        refine ⟨?_, hend⟩
        intro i hi
        cases i with
        | zero => exact h0
        | succ i => exact hall i (by simpa using hi)
      · rintro ⟨hall, hend⟩
        refine ⟨hall 0 (by simp), ?_, hend⟩
        intro i hi
        exact hall (i + 1) (by simpa using hi)

/-- Bytes with a NUL behind them are read up to the first NUL among them. -/
theorem IsString.reads {m : Memory} {bytes : List UInt8} (h : IsString m bytes) :
    Reads m (bytes.takeWhile (· != 0)) := by
  induction bytes generalizing m with
  | nil => exact ⟨h, List.not_mem_nil⟩
  | cons b bs ih =>
      obtain ⟨hb, hbs⟩ := h
      by_cases hnul : b = 0
      · rw [List.takeWhile_cons_of_neg (by simp [hnul])]
        exact ⟨hb.trans hnul, List.not_mem_nil⟩
      · obtain ⟨hstr, hnot⟩ := ih hbs
        rw [List.takeWhile_cons_of_pos (by simp [hnul])]
        refine ⟨⟨hb, hstr⟩, ?_⟩
        rw [List.mem_cons]
        rintro (heq | hmem)
        · exact hnul heq.symm
        · exact hnot hmem

/-- Of a NUL-free string `strcmp` sees only what reading the memory yields. -/
theorem Reads.isString_iff {m : Memory} {str lit : List UInt8} (h : Reads m str) (hlit : 0 ∉ lit) :
    IsString m lit ↔ lit = str := by
  constructor
  · intro hs
    exact Reads.unique ⟨hs, hlit⟩ h
  · rintro rfl
    exact h.1

/-- A NUL further on ends it there at the latest. -/
theorem Reads.length_le {m : Memory} {str : List UInt8} (h : Reads m str) {k : Nat} (hk : m k = 0) :
    str.length ≤ k := by
  obtain ⟨hstr, hnul⟩ := h
  by_contra hlt
  rw [Nat.not_le] at hlt
  have hread := ((CString.isString_iff m str).mp hstr).1 k hlt
  exact hnul (List.mem_of_getElem (hread.symm.trans hk))

/-- Bytes stored at the start of the memory and a NUL behind them. -/
theorem isString_blit_set (m : Memory) (bytes : List UInt8) :
    IsString ((m.blit 0 bytes).set bytes.length 0) bytes := by
  rw [CString.isString_iff]
  refine ⟨?_, set_self _ _ _⟩
  intro i hi
  rw [set_of_ne _ _ (Nat.ne_of_lt hi)]
  have hread := blit_add m 0 bytes i hi
  rwa [Nat.zero_add] at hread

/-! ## Strings in a buffer of known size -/

/-- `strlen` of the string at the start of a buffer that holds a NUL. -/
def strlen (buf : List UInt8) : Nat := (buf.takeWhile (· != 0)).length

/-- Storing `bytes` over the start of a buffer leaves what lies behind them. -/
def overwrite (bytes buf : List UInt8) : List UInt8 := bytes ++ buf.drop bytes.length

/-- A NUL-free text stored with its terminator is measured by `strlen` at its own length, whatever
the buffer held before. -/
theorem strlen_overwrite {text : List UInt8} (hnul : 0 ∉ text) (buf : List UInt8) :
    strlen (overwrite (text ++ [0]) buf) = text.length := by
  have hall : ∀ b ∈ text, (b != 0) = true := fun b hb => by
    simp only [bne_iff_ne, ne_eq]
    rintro rfl
    exact hnul hb
  simp only [strlen, overwrite, List.append_assoc, List.singleton_append]
  rw [List.takeWhile_append_of_pos hall]
  simp

/-- The text itself is what stands in the first `strlen` bytes. -/
theorem take_strlen_overwrite {text : List UInt8} (hnul : 0 ∉ text) (buf : List UInt8) :
    (overwrite (text ++ [0]) buf).take (strlen (overwrite (text ++ [0]) buf)) = text := by
  rw [strlen_overwrite hnul]
  simp [overwrite]

end ZephyrSamples.Lib.CString
