/-
Lpc1768/OnesComplement.lean

One's complement sums of 16-bit words.  A sum is as good as another if they agree
modulo 65535 and are zero together (`SameSum`); `ones` is the 16-bit number that
stands for all of them.  Folding the carries does not change the sum
(`sameSum_carry`), and swapping the bytes of a word shifts it by eight bits
(`sameSum_swapBytes`).

`wordSum` takes the bytes two by two, the first of them as the high one.  The sum of
two pieces is the sum of their sums, the second one shifted if the first has an odd
number of bytes (`sameSum_append`).
-/
import Mathlib.Data.Nat.ModEq
import Mathlib.Tactic.Common
import Mathlib.Tactic.Ring

namespace Lpc1768

/-! ### Sums -/

/-- Equal modulo 65535, and zero together. -/
structure SameSum (a b : ℕ) : Prop where
  modEq : a ≡ b [MOD 65535]
  zero : a = 0 ↔ b = 0

/-- The 16-bit number with the same sum. -/
def ones (n : ℕ) : ℕ := if n = 0 then 0 else (n - 1) % 65535 + 1

/-- The carries are added to the 16 bits. -/
def carry (n : ℕ) : ℕ := n / 65536 + n % 65536

/-- The bytes of a 16-bit word are swapped. -/
def swapBytes (w : ℕ) : ℕ := w % 256 * 256 + w / 256 % 256

namespace SameSum

variable {a b c d : ℕ}

theorem refl (a : ℕ) : SameSum a a := ⟨Nat.ModEq.refl a, Iff.rfl⟩

theorem symm (h : SameSum a b) : SameSum b a := ⟨h.modEq.symm, h.zero.symm⟩

theorem trans (h : SameSum a b) (h' : SameSum b c) : SameSum a c :=
  ⟨h.modEq.trans h'.modEq, h.zero.trans h'.zero⟩

theorem add (h : SameSum a b) (h' : SameSum c d) : SameSum (a + c) (b + d) where
  modEq := h.modEq.add h'.modEq
  zero := by rw [Nat.add_eq_zero_iff, Nat.add_eq_zero_iff, h.zero, h'.zero]

theorem mul_left (h : SameSum a b) (k : ℕ) : SameSum (k * a) (k * b) where
  modEq := h.modEq.mul_left k
  zero := by
    rw [Nat.mul_eq_zero, Nat.mul_eq_zero, h.zero]

end SameSum

theorem sameSum_ones (n : ℕ) : SameSum (ones n) n := by
  rw [ones]
  split
  · next h =>
    rw [h]
    exact .refl 0
  · next h =>
    refine ⟨?_, iff_of_false (Nat.succ_ne_zero _) h⟩
    have hmod := (Nat.mod_modEq (n - 1) 65535).add_right 1
    rwa [Nat.sub_add_cancel (Nat.pos_of_ne_zero h)] at hmod

theorem ones_le (n : ℕ) : ones n ≤ 65535 := by
  rw [ones]
  split <;> omega

theorem ones_of_le {n : ℕ} (h : n ≤ 65535) : ones n = n := by
  rw [ones]
  split <;> omega

/-- Sums that are as good as each other have the same 16 bits. -/
theorem SameSum.ones_eq {a b : ℕ} (h : SameSum a b) : ones a = ones b := by
  have hmod : a % 65535 = b % 65535 := h.modEq
  have hzero := h.zero
  rw [ones, ones]
  split <;> split <;> omega

theorem ones_eq_iff {a b : ℕ} : ones a = ones b ↔ SameSum a b := by
  refine ⟨fun h => ?_, SameSum.ones_eq⟩
  have ha := sameSum_ones a
  rw [h] at ha
  exact ha.symm.trans (sameSum_ones b)

/-- 16 bits with the same sum are the same. -/
theorem SameSum.eq {a b : ℕ} (h : SameSum a b) (ha : a ≤ 65535) (hb : b ≤ 65535) : a = b := by
  rw [← ones_of_le ha, ← ones_of_le hb]
  exact h.ones_eq

/-- All bits set: the sum is divided by 65535, and it is not the empty one. -/
theorem ones_eq_all_iff {n : ℕ} : ones n = 65535 ↔ n % 65535 = 0 ∧ n ≠ 0 := by
  rw [ones]
  split <;> omega

/-! ### Carries and bytes -/

theorem sameSum_carry (n : ℕ) : SameSum (carry n) n where
  modEq := by
    show (n / 65536 + n % 65536) % 65535 = n % 65535
    omega
  zero := by
    rw [carry]
    omega

/-- One fold is enough for the sum of two words. -/
theorem carry_of_le {n : ℕ} (h : n ≤ 131070) : carry n = ones n := by
  refine ((sameSum_carry n).trans (sameSum_ones n).symm).eq ?_ (ones_le n)
  rw [carry]
  omega

/-- Two folds are enough for 32 bits. -/
theorem carry_carry {n : ℕ} (h : n < 4294967296) : carry (carry n) = ones n := by
  rw [carry_of_le]
  · exact (sameSum_carry n).ones_eq
  · rw [carry]
    omega

theorem swapBytes_lt (w : ℕ) : swapBytes w < 65536 := by
  rw [swapBytes]
  omega

theorem swapBytes_mul_add {h l : ℕ} (hh : h < 256) (hl : l < 256) :
    swapBytes (256 * h + l) = 256 * l + h := by
  rw [swapBytes]
  omega

/-- A word by its bytes. -/
theorem exists_bytes {w : ℕ} (hw : w < 65536) : ∃ h l, h < 256 ∧ l < 256 ∧ w = 256 * h + l :=
  ⟨w / 256, w % 256, by omega, by omega, by omega⟩

theorem swapBytes_swapBytes {w : ℕ} (hw : w < 65536) : swapBytes (swapBytes w) = w := by
  obtain ⟨h, l, hh, hl, rfl⟩ := exists_bytes hw
  rw [swapBytes_mul_add hh hl, swapBytes_mul_add hl hh]

theorem swapBytes_eq_all_iff {w : ℕ} (hw : w < 65536) : swapBytes w = 65535 ↔ w = 65535 := by
  rw [swapBytes]
  omega

theorem swapBytes_eq_zero_iff {w : ℕ} (hw : w < 65536) : swapBytes w = 0 ↔ w = 0 := by
  rw [swapBytes]
  omega

theorem sameSum_swapBytes {w : ℕ} (hw : w < 65536) : SameSum (swapBytes w) (256 * w) := by
  obtain ⟨h, l, hh, hl, rfl⟩ := exists_bytes hw
  rw [swapBytes_mul_add hh hl]
  refine ⟨?_, by omega⟩
  show (256 * l + h) % 65535 = 256 * (256 * h + l) % 65535
  omega

/-- Shifting by a whole word does nothing. -/
theorem sameSum_shift (n : ℕ) : SameSum (256 * (256 * n)) n where
  modEq := by
    show 256 * (256 * n) % 65535 = n % 65535
    omega
  zero := by omega

/-- Shifted by one byte, or not. -/
def shiftIf (odd : Bool) (n : ℕ) : ℕ := if odd then 256 * n else n

theorem shiftIf_add (odd : Bool) (m n : ℕ) :
    shiftIf odd (m + n) = shiftIf odd m + shiftIf odd n := by
  cases odd
  · rfl
  · exact Nat.mul_add 256 m n

theorem SameSum.shiftIf {a b : ℕ} (h : SameSum a b) (odd : Bool) :
    SameSum (shiftIf odd a) (shiftIf odd b) := by
  cases odd
  · exact h
  · exact h.mul_left 256

/-- Twice shifted is not shifted. -/
theorem sameSum_shiftIf_shiftIf (a b : Bool) (n : ℕ) :
    SameSum (shiftIf a (shiftIf b n)) (shiftIf (a != b) n) := by
  cases a <;> cases b
  · exact .refl n
  · exact .refl (256 * n)
  · exact .refl (256 * n)
  · exact sameSum_shift n

theorem sameSum_of_shift {a b : ℕ} (h : SameSum (256 * a) (256 * b)) : SameSum a b :=
  (sameSum_shift a).symm.trans ((h.mul_left _).trans (sameSum_shift b))

/-- The bytes of the 16 bits of a sum. -/
theorem swapBytes_ones (n : ℕ) : swapBytes (ones n) = ones (256 * n) :=
  ((sameSum_swapBytes (Nat.lt_succ_of_le (ones_le n))).trans
    (((sameSum_ones n).mul_left _).trans (sameSum_ones _).symm)).eq
    (Nat.le_of_lt_succ (swapBytes_lt _)) (ones_le _)

/-! ### Words of bytes -/

/-- The sum of the words, the last one filled up with a zero byte. -/
def wordSum : List UInt8 → ℕ
  | [] => 0
  | [b] => b.toNat * 256
  | b :: c :: bs => b.toNat * 256 + c.toNat + wordSum bs

/-- The bytes count for one place more, one after the other. -/
theorem sameSum_cons (b : UInt8) (bs : List UInt8) :
    SameSum (wordSum (b :: bs)) (256 * (b.toNat + wordSum bs)) := by
  induction bs using wordSum.induct generalizing b with
  | case1 =>
      have hone : wordSum [b] = 256 * (b.toNat + wordSum []) := by
        rw [wordSum, wordSum, Nat.add_zero, Nat.mul_comm]
      rw [hone]
      exact .refl _
  | case2 c =>
      have hsplit : wordSum [b, c] = b.toNat * 256 + c.toNat := by
        rw [wordSum, wordSum, Nat.add_zero]
      have hshift : 256 * (b.toNat + wordSum [c]) = b.toNat * 256 + 256 * (256 * c.toNat) := by
        rw [wordSum]
        ring
      rw [hsplit, hshift]
      exact (SameSum.refl _).add (sameSum_shift _).symm
  | case3 c d bs ih =>
      have hsplit : wordSum (b :: c :: d :: bs) = b.toNat * 256 + c.toNat + wordSum (d :: bs) := by
        rw [wordSum]
      have hshift : 256 * (b.toNat + wordSum (c :: d :: bs)) =
          b.toNat * 256 + 256 * (256 * c.toNat) + 256 * (d.toNat + wordSum bs) := by
        rw [wordSum]
        ring
      rw [hsplit, hshift]
      exact ((SameSum.refl _).add (sameSum_shift _).symm).add (ih d)

/-- **The sum of two pieces**: the second one is shifted if the first is of odd length. -/
theorem sameSum_append (xs ys : List UInt8) :
    SameSum (wordSum (xs ++ ys)) (wordSum xs + shiftIf (xs.length % 2 ≠ 0) (wordSum ys)) := by
  induction xs with
  | nil =>
      rw [List.nil_append, wordSum, Nat.zero_add]
      exact .refl _
  | cons b xs ih =>
      have hodd : decide ((b :: xs).length % 2 ≠ 0) = (true != decide (xs.length % 2 ≠ 0)) := by
        rw [List.length_cons]
        rcases Nat.mod_two_eq_zero_or_one xs.length with h | h <;> simp [Nat.add_mod, h]
      have hrest (k : ℕ) :
          256 * (b.toNat + (wordSum xs + k)) = 256 * (b.toNat + wordSum xs) + 256 * k := by ring
      rw [List.cons_append, hodd]
      refine (sameSum_cons b _).trans ?_
      refine (((SameSum.refl b.toNat).add ih).mul_left _).trans ?_
      rw [hrest]
      exact (sameSum_cons b xs).symm.add (sameSum_shiftIf_shiftIf true _ _)

theorem wordSum_append_even {xs : List UInt8} (h : xs.length % 2 = 0) (ys : List UInt8) :
    wordSum (xs ++ ys) = wordSum xs + wordSum ys := by
  induction xs using wordSum.induct with
  | case1 => rw [List.nil_append, wordSum, Nat.zero_add]
  | case2 b => exact absurd h Nat.one_ne_zero
  | case3 b c bs ih =>
      have hbs : bs.length % 2 = 0 := by
        rw [List.length_cons, List.length_cons, Nat.add_assoc, Nat.add_mod_right] at h
        exact h
      rw [List.cons_append, List.cons_append, wordSum, wordSum, ih hbs,
        Nat.add_assoc _ (wordSum bs)]

theorem wordSum_eq_zero_iff : ∀ bs : List UInt8, wordSum bs = 0 ↔ ∀ b ∈ bs, b = 0
  | [] => iff_of_true rfl fun b hb => (List.not_mem_nil hb).elim
  | [b] => by
      rw [wordSum, List.forall_mem_singleton, ← UInt8.toNat_inj, UInt8.toNat_zero]
      omega
  | b :: c :: bs => by
      rw [wordSum, List.forall_mem_cons, List.forall_mem_cons, ← wordSum_eq_zero_iff bs,
        ← UInt8.toNat_inj, ← UInt8.toNat_inj, UInt8.toNat_zero]
      omega

theorem wordSum_le (bs : List UInt8) : wordSum bs ≤ 65535 * ((bs.length + 1) / 2) := by
  induction bs using wordSum.induct with
  | case1 => exact Nat.zero_le _
  | case2 b =>
      have hb := b.toNat_lt
      rw [wordSum]
      simp only [List.length_cons, List.length_nil]
      omega
  | case3 b c bs ih =>
      have hb := b.toNat_lt
      have hc := c.toNat_lt
      rw [wordSum]
      simp only [List.length_cons]
      omega

end Lpc1768
