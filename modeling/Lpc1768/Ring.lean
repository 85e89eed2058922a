/-
Lpc1768/Ring.lean

Rings of descriptors.  A ring of `n` slots is walked by an index that is
incremented and wrapped to `0` past the last slot (`wrapInc`).  The proofs
count descriptors without wrapping: descriptor number `k` lives in slot
`k % n`, and `wrapInc` is `(· + 1)` under that map (`wrapInc_mod`).

`Holds n R lo xs` says that the slots `lo, lo + 1, …` of the ring hold the
elements of `xs`, oldest first, where `R k x` says what it is for slot `k` to
hold `x`.  It is kept by taking the oldest element (`Holds.tail`), by filling
the next slot as long as the ring has one (`Holds.push`) and by any change
outside the window (`Holds.imp`).
-/
import Mathlib.Logic.Function.Basic
import Lpc1768.Machine

namespace Lpc1768

variable {α : Type*} {n : ℕ}

/-! ### The wrapped index -/

/-- `idx++` on a `u8_t`, set back to `0` past the index `last`. -/
def wrapInc (last idx : ℕ) : ℕ :=
  let idx := u8 (idx + 1)
  if idx > last then 0 else idx

theorem wrapInc_mod (hn : 0 < n) (h : n < 256) (k : ℕ) :
    wrapInc (n - 1) (k % n) = (k + 1) % n := by
  have hk : k % n < n := Nat.mod_lt k hn
  have hu : u8 ((k % n : ℕ) + 1) = k % n + 1 := u8_of_lt (n := k % n + 1) (by omega)
  have hmod : (k + 1) % n = (k % n + 1) % n := (Nat.mod_add_mod k n 1).symm
  simp only [wrapInc, hu]
  rcases Nat.lt_or_ge (k % n + 1) n with hlt | hge
  · rw [if_neg (by omega), hmod, Nat.mod_eq_of_lt hlt]
  · have he : k % n + 1 = n := by omega
    rw [if_pos (by omega), hmod, he, Nat.mod_self]

/-- Descriptors less than a lap apart live in different slots. -/
theorem slot_ne {j k : ℕ} (h : j < k) (hlap : k < j + n) : j % n ≠ k % n := by
  intro he
  have hsub : (k - j) % n = 0 := Nat.sub_mod_eq_zero_of_mod_eq he.symm
  rw [Nat.mod_eq_of_lt (by omega)] at hsub
  omega

/-! ### The window of occupied slots -/

/-- The slots `lo, lo + 1, …` of a ring of `n` hold `xs`; `R k x` says that
slot `k` holds `x`. -/
def Holds (n : ℕ) (R : ℕ → α → Prop) (lo : ℕ) (xs : List α) : Prop :=
  ∀ i (h : i < xs.length), R ((lo + i) % n) xs[i]

section

variable {R R' : ℕ → α → Prop} {lo : ℕ} {x : α} {xs : List α}

theorem Holds.head (h : Holds n R lo (x :: xs)) : R (lo % n) x :=
  h 0 (by simp)

theorem Holds.tail (h : Holds n R lo (x :: xs)) : Holds n R (lo + 1) xs := by
  intro i hi
  rw [Nat.add_assoc, Nat.add_comm 1 i]
  exact h (i + 1) (by simpa using hi)

/-- The window may be said to begin at the slot instead of the number. -/
theorem Holds.of_mod (h : Holds n R lo xs) : Holds n R (lo % n) xs := by
  intro i hi
  rw [Nat.mod_add_mod]
  exact h i hi

theorem Holds.of_mod_eq {lo' : ℕ} (h : Holds n R lo xs) (he : lo % n = lo' % n) :
    Holds n R lo' xs := by
  intro i hi
  rw [Nat.add_mod, ← he, ← Nat.add_mod]
  exact h i hi

/-- A change that the slots of the window do not see. -/
theorem Holds.imp (h : Holds n R lo xs)
    (himp : ∀ i < xs.length, ∀ x, R ((lo + i) % n) x → R' ((lo + i) % n) x) :
    Holds n R' lo xs := by
  intro i hi
  exact himp i hi _ (h i hi)

/-- Filling the slot after the window. -/
theorem Holds.push (h : Holds n R lo xs) (hroom : xs.length < n)
    (hkeep : ∀ k x, k ≠ (lo + xs.length) % n → R k x → R' k x)
    (hnew : R' ((lo + xs.length) % n) x) : Holds n R' lo (xs ++ [x]) := by
  intro i hi
  rcases Nat.lt_or_ge i xs.length with hlt | hge
  · rw [List.getElem_append_left hlt]
    exact hkeep _ _ (slot_ne (by omega) (by omega)) (h i hlt)
  · obtain rfl : i = xs.length := by
      rw [List.length_append, List.length_singleton] at hi
      omega
    rw [List.getElem_concat_length rfl]
    exact hnew

/-- Filling the slot before the window. -/
theorem Holds.cons (h : Holds n R (lo + 1) xs) (hroom : xs.length < n)
    (hkeep : ∀ k x, k ≠ lo % n → R k x → R' k x) (hnew : R' (lo % n) x) :
    Holds n R' lo (x :: xs) := by
  intro i hi
  cases i with
  | zero => exact hnew
  | succ i =>
      have hlen : i < xs.length := by simpa using hi
      have hold := h i hlen
      rw [Nat.add_right_comm] at hold
      exact hkeep _ _ (slot_ne (by omega) (by omega)).symm hold

end

/-! ### Windows of an array -/

/-- Slot `k` of the array `slot` is `x`. -/
def Reads (slot : ℕ → α) (k : ℕ) (x : α) : Prop := slot k = x

/-- Writing a slot outside the window. -/
theorem Holds.update {slot : ℕ → α} {lo : ℕ} {xs : List α} {j : ℕ} {y : α}
    (h : Holds n (Reads slot) lo xs) (hj : ∀ i < xs.length, (lo + i) % n ≠ j) :
    Holds n (Reads (Function.update slot j y)) lo xs :=
  h.imp fun i hi _ hx => (Function.update_of_ne (hj i hi) _ _).trans hx

/-- Writing the slot after the window. -/
theorem Holds.push_update {slot : ℕ → α} {lo : ℕ} {xs : List α} {y : α}
    (h : Holds n (Reads slot) lo xs) (hroom : xs.length < n) :
    Holds n (Reads (Function.update slot ((lo + xs.length) % n) y)) lo (xs ++ [y]) :=
  h.push hroom (fun _ _ hk hx => (Function.update_of_ne hk _ _).trans hx)
    (Function.update_self _ _ _)

end Lpc1768
