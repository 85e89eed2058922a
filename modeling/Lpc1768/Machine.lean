/-
Lpc1768/Machine.lean

C integers and byte memory.  Values of the C integer types are natural
numbers; arithmetic is done in `ℤ` and cut back by `u8`, `u16` or `u32` where
the C code assigns to, or casts to, a type of that width.

Memory is a map from byte addresses to bytes.  `load m a n` reads the `n`
bytes from `a` on, `store m a bs` overwrites the bytes from `a` on, and
`memcpy` is a load followed by a store.  A store is seen by the load of the
same range (`load_store`) and not by the load of a disjoint one
(`load_store_disjoint`).
-/
import Mathlib.Data.Int.Notation
import Mathlib.Data.List.GetD
import Mathlib.Tactic.Common

namespace Lpc1768

/-! ### C integers -/

/-- Conversion to an 8-bit unsigned integer. -/
def u8 (n : ℤ) : ℕ := (n % 256).toNat

/-- Conversion to a 16-bit unsigned integer. -/
def u16 (n : ℤ) : ℕ := (n % 65536).toNat

/-- Conversion to a 32-bit unsigned integer. -/
def u32 (n : ℤ) : ℕ := (n % 4294967296).toNat

@[simp] theorem u8_of_lt {n : ℕ} (h : n < 256) : u8 n = n := by
  unfold u8; omega

@[simp] theorem u16_of_lt {n : ℕ} (h : n < 65536) : u16 n = n := by
  unfold u16; omega

theorem u32_of_lt {n : ℕ} (h : n < 4294967296) : u32 n = n := by
  unfold u32; omega

theorem u16_lt (n : ℤ) : u16 n < 65536 := by
  unfold u16; omega

theorem u8_le (n : ℕ) : u8 n ≤ n := by
  unfold u8; omega

/-! ### Bits -/

theorem or_and_self {n : ℕ} (x m : BitVec n) : (x ||| m) &&& m = m := by
  ext k hk
  simp only [BitVec.getElem_and, BitVec.getElem_or]
  cases x[k] <;> cases m[k] <;> rfl

theorem and_not_zero {n : ℕ} (x : BitVec n) : x &&& ~~~0 = x := by
  ext k hk
  simp

theorem and_not_and_self {n : ℕ} (x m : BitVec n) : x &&& ~~~m &&& m = 0 := by
  rw [BitVec.and_assoc, BitVec.and_comm (~~~m), BitVec.and_not_self]
  exact BitVec.and_zero

/-! ### Byte memory -/

/-- Byte-addressed memory. -/
abbrev Mem := ℕ → UInt8

/-- The `n` bytes from address `a` on. -/
def Mem.load (m : Mem) (a n : ℕ) : List UInt8 :=
  (List.range n).map fun i => m (a + i)

/-- Overwrite the bytes from address `a` on by `bs`. -/
def Mem.store (m : Mem) (a : ℕ) (bs : List UInt8) : Mem := fun x =>
  if a ≤ x then bs.getD (x - a) (m x) else m x

/-- `memcpy(dst, src, n)`. -/
def Mem.memcpy (m : Mem) (dst src n : ℕ) : Mem :=
  m.store dst (m.load src n)

@[simp] theorem Mem.length_load (m : Mem) (a n : ℕ) : (m.load a n).length = n := by
  simp [Mem.load]

@[simp] theorem Mem.getElem_load (m : Mem) (a n i : ℕ)
    (h : i < (m.load a n).length) : (m.load a n)[i] = m (a + i) := by
  simp [Mem.load]

theorem Mem.store_inside (m : Mem) (a : ℕ) (bs : List UInt8) (i : ℕ)
    (h : i < bs.length) : m.store a bs (a + i) = bs[i] := by
  simp [Mem.store, h]

theorem Mem.store_zero_inside (m : Mem) (bs : List UInt8) (i : ℕ) (h : i < bs.length) :
    m.store 0 bs i = bs[i] := by
  rw [← m.store_inside 0 bs i h, Nat.zero_add]

theorem Mem.store_outside (m : Mem) (a : ℕ) (bs : List UInt8) (x : ℕ)
    (h : x < a ∨ a + bs.length ≤ x) : m.store a bs x = m x := by
  unfold Mem.store
  split
  · exact List.getD_eq_default _ _ (by omega)
  · rfl

theorem Mem.update_eq_store (m : Mem) (a : ℕ) (b : UInt8) :
    Function.update m a b = m.store a [b] := by
  funext x
  rcases Nat.lt_trichotomy x a with hx | rfl | hx
  · rw [Function.update_of_ne (by omega), m.store_outside _ _ _ (by simp; omega)]
  · rw [Function.update_self]
    simpa using (m.store_inside x [b] 0 (by simp)).symm
  · rw [Function.update_of_ne (by omega), m.store_outside _ _ _ (by simp; omega)]

@[simp] theorem Mem.store_nil (m : Mem) (a : ℕ) : m.store a [] = m := by
  funext x
  exact m.store_outside _ _ _ (by simp; omega)

/-- Writing back what is there changes nothing. -/
@[simp] theorem Mem.store_load (m : Mem) (a n : ℕ) : m.store a (m.load a n) = m := by
  funext x
  rcases Nat.lt_or_ge x a with hlo | hlo
  · exact Mem.store_outside _ _ _ _ (.inl hlo)
  rcases Nat.lt_or_ge x (a + n) with hin | hhi
  · obtain ⟨i, rfl⟩ : ∃ i, x = a + i := ⟨x - a, by omega⟩
    rw [Mem.store_inside _ _ _ _ (by simp; omega), Mem.getElem_load]
  · exact Mem.store_outside _ _ _ _ (.inr (by simpa using hhi))

/-- Two stores to adjacent ranges are one store. -/
theorem Mem.store_append (m : Mem) (a : ℕ) (xs ys : List UInt8) :
    m.store a (xs ++ ys) = (m.store a xs).store (a + xs.length) ys := by
  funext x
  by_cases hlo : x < a
  · rw [Mem.store_outside _ _ _ _ (by omega), Mem.store_outside _ _ _ _ (by omega),
      Mem.store_outside _ _ _ _ (by omega)]
  obtain ⟨i, rfl⟩ : ∃ i, x = a + i := ⟨x - a, by omega⟩
  rcases Nat.lt_or_ge i xs.length with hxs | hxs
  · rw [Mem.store_outside _ (a + xs.length) _ _ (by omega), Mem.store_inside _ _ _ _ hxs,
      Mem.store_inside _ _ _ _ (by simp; omega), List.getElem_append_left hxs]
  obtain ⟨j, rfl⟩ : ∃ j, i = xs.length + j := ⟨i - xs.length, by omega⟩
  rcases Nat.lt_or_ge j ys.length with hys | hys
  · rw [← Nat.add_assoc, Mem.store_inside _ _ _ _ hys, Nat.add_assoc,
      Mem.store_inside _ _ _ _ (by simp; omega), List.getElem_append_right (by omega)]
    simp
  · rw [Mem.store_outside _ _ _ _ (by simp; omega), Mem.store_outside _ _ _ _ (by omega),
      Mem.store_outside _ _ _ _ (by omega)]

/-- Reading a prefix of the range just written. -/
theorem Mem.load_store (m : Mem) (a n : ℕ) (bs : List UInt8)
    (h : n ≤ bs.length) : (m.store a bs).load a n = bs.take n := by
  apply List.ext_getElem
  · simp [h]
  · intro i hi _
    have hi' : i < n := by simpa using hi
    simp [Mem.store_inside _ _ _ _ (show i < bs.length by omega)]

/-- A load that may reach past the range just written. -/
theorem Mem.load_store_front (m : Mem) (a k : ℕ) (bs : List UInt8) :
    (m.store a bs).load a k = bs.take k ++ m.load (a + bs.length) (k - bs.length) := by
  apply List.ext_getElem
  · simp; omega
  · intro i hi _
    have hik : i < k := by simpa using hi
    rw [Mem.getElem_load]
    rcases Nat.lt_or_ge i bs.length with h | h
    · rw [Mem.store_inside _ _ _ _ h, List.getElem_append_left (by simp; omega),
        List.getElem_take]
    · rw [Mem.store_outside _ _ _ _ (.inr (by omega)), List.getElem_append_right (by simp; omega),
        Mem.getElem_load]
      congr 1
      simp; omega

/-- A load within the range just written. -/
theorem Mem.load_store_drop (m : Mem) (a : ℕ) {i n : ℕ} {bs : List UInt8}
    (h : i + n ≤ bs.length) : (m.store a bs).load (a + i) n = (bs.drop i).take n := by
  apply List.ext_getElem
  · simp; omega
  · intro j hj _
    have hjn : j < n := by simpa using hj
    rw [Mem.getElem_load, Nat.add_assoc, Mem.store_inside _ _ _ _ (by omega)]
    simp

/-- A load does not see a store to a disjoint range. -/
theorem Mem.load_store_disjoint (m : Mem) (a b n : ℕ) (bs : List UInt8)
    (h : b + n ≤ a ∨ a + bs.length ≤ b) : (m.store a bs).load b n = m.load b n := by
  apply List.ext_getElem
  · simp
  · intro i hi _
    have hi' : i < n := by simpa using hi
    simp only [Mem.getElem_load]
    exact Mem.store_outside _ _ _ _ (by omega)

theorem Mem.take_load (m : Mem) (a : ℕ) {k n : ℕ} (h : k ≤ n) :
    (m.load a n).take k = m.load a k := by
  apply List.ext_getElem
  · simp [h]
  · intro i _ _
    simp

theorem Mem.drop_load (m : Mem) (a i n : ℕ) :
    (m.load a (i + n)).drop i = m.load (a + i) n := by
  apply List.ext_getElem
  · simp
  · intro j _ _
    simp [Nat.add_assoc]

/-- A load in two parts. -/
theorem Mem.load_add (m : Mem) (a k n : ℕ) :
    m.load a (k + n) = m.load a k ++ m.load (a + k) n := by
  rw [← m.take_load a (Nat.le_add_right k n), ← m.drop_load a k n, List.take_append_drop]

theorem Mem.load_cons (m : Mem) (a n : ℕ) : m.load a (n + 1) = m a :: m.load (a + 1) n := by
  rw [Nat.add_comm n 1, m.load_add]
  simp [Mem.load]

@[simp] theorem Mem.load_store_self (m : Mem) (a : ℕ) (bs : List UInt8) :
    (m.store a bs).load a bs.length = bs := by
  rw [Mem.load_store _ _ _ _ (Nat.le_refl _), List.take_length]

/-- A store that changes nothing writes what is there. -/
theorem Mem.store_eq_self_iff (m : Mem) (a : ℕ) (bs : List UInt8) :
    m.store a bs = m ↔ bs = m.load a bs.length := by
  constructor
  · intro h
    have hload := m.load_store_self a bs
    rw [h] at hload
    exact hload.symm
  · intro h
    rw [h]
    exact m.store_load a bs.length

/-- Stores to disjoint ranges may be swapped. -/
theorem Mem.store_comm (m : Mem) {a b : ℕ} {xs ys : List UInt8}
    (h : a + xs.length ≤ b ∨ b + ys.length ≤ a) :
    (m.store a xs).store b ys = (m.store b ys).store a xs := by
  funext x
  by_cases hx : a ≤ x ∧ x < a + xs.length
  · obtain ⟨i, rfl⟩ := Nat.exists_eq_add_of_le hx.1
    rw [Mem.store_outside _ b _ _ (by omega), Mem.store_inside _ _ _ _ (by omega),
      Mem.store_inside _ _ _ _ (by omega)]
  · rw [Mem.store_outside (m.store b ys) a _ _ (by omega)]
    by_cases hy : b ≤ x ∧ x < b + ys.length
    · obtain ⟨i, rfl⟩ := Nat.exists_eq_add_of_le hy.1
      rw [Mem.store_inside _ _ _ _ (by omega), Mem.store_inside _ _ _ _ (by omega)]
    · rw [Mem.store_outside _ b _ _ (by omega), Mem.store_outside _ b _ _ (by omega),
        Mem.store_outside _ a _ _ (by omega)]

/-- The second of two stores to a range counts. -/
theorem Mem.store_store (m : Mem) (a : ℕ) {xs ys : List UInt8} (h : xs.length ≤ ys.length) :
    (m.store a xs).store a ys = m.store a ys := by
  funext x
  by_cases hy : a ≤ x ∧ x < a + ys.length
  · obtain ⟨i, rfl⟩ := Nat.exists_eq_add_of_le hy.1
    rw [Mem.store_inside _ _ _ _ (by omega), Mem.store_inside _ _ _ _ (by omega)]
  · rw [Mem.store_outside _ _ _ _ (by omega), Mem.store_outside _ _ _ _ (by omega),
      Mem.store_outside _ _ _ _ (by omega)]

/-- A store within the range just written. -/
theorem Mem.store_splice (m : Mem) (a : ℕ) (xs ys : List UInt8) {zs zs' : List UInt8}
    (h : zs.length = zs'.length) :
    (m.store a (xs ++ (zs ++ ys))).store (a + xs.length) zs' = m.store a (xs ++ (zs' ++ ys)) := by
  rw [m.store_append, Mem.store_append, Mem.store_comm _ (.inr (by omega)),
    Mem.store_store _ _ (Nat.le_of_eq h), m.store_append, Mem.store_append, h]

/-- A byte stored into a range just written. -/
theorem Mem.store_set (m : Mem) (a i : ℕ) (b : UInt8) (bs : List UInt8) (h : i < bs.length) :
    (m.store a bs).store (a + i) [b] = m.store a (bs.set i b) := by
  funext x
  by_cases hx : x = a + i
  · subst hx
    have hnew := (m.store a bs).store_inside (a + i) [b] 0 (by simp)
    rw [Nat.add_zero] at hnew
    rw [hnew, Mem.store_inside _ _ _ _ (by simpa using h)]
    simp
  rw [Mem.store_outside _ _ [b] _ (by simp; omega)]
  rcases Nat.lt_or_ge x a with hlo | hlo
  · rw [Mem.store_outside _ _ _ _ (.inl hlo), Mem.store_outside _ _ _ _ (.inl hlo)]
  obtain ⟨j, rfl⟩ : ∃ j, x = a + j := ⟨x - a, by omega⟩
  rcases Nat.lt_or_ge j bs.length with hj | hj
  · rw [Mem.store_inside _ _ _ _ hj, Mem.store_inside _ _ _ _ (by simpa using hj),
      List.getElem_set_ne (by omega)]
  · rw [Mem.store_outside _ _ _ _ (.inr (by omega)),
      Mem.store_outside _ _ _ _ (.inr (by simp; omega))]

end Lpc1768
