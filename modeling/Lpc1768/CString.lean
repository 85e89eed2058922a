/-
Lpc1768/CString.lean

C strings.  A `char *` is the stream of the bytes from its address on, without
an end of its own: a string function reads until it meets what stops it, over
the end of the object if nothing in the object does.  The fuel is the number
of bytes the function may read, `none` says that it read them all.

Against a string (no byte of it zero, a zero behind it) `strcmp` always stops,
and its result is `0` exactly if the bytes are the same, terminator included
(`strcmp_of_load`).

`scan` is any function that looks at the bytes one after the other.  Once it
stops it stops there whatever follows (`scan_mono`, `scan_congr`).
-/
import Lpc1768.Machine

namespace Lpc1768

/-- The bytes from address `a` on, as `m + a` points at them. -/
def Mem.ptr (m : Mem) (a : ℕ) : Mem := fun i => m (a + i)

/-- Bytes in a 32-bit address space. -/
def addressSpace : ℕ := 4294967296

/-- `strcmp`, the result as newlib gives it: the difference of the first two
bytes that differ. -/
def strcmp : ℕ → Mem → Mem → Option ℤ
  | 0, _, _ => none
  | fuel + 1, s, t =>
    if s 0 = t 0 then
      if s 0 = 0 then some 0 else strcmp fuel (s.ptr 1) (t.ptr 1)
    else some ((s 0).toNat - (t 0).toNat)

/-- `strlen`. -/
def strlen : ℕ → Mem → Option ℕ
  | 0, _ => none
  | fuel + 1, s => if s 0 = 0 then some 0 else (strlen fuel (s.ptr 1)).map (· + 1)

/-- `isspace`. -/
def isSpace (b : UInt8) : Bool := b == 0x20 || (0x09 ≤ b && b ≤ 0x0D)

/-- The bytes of a string literal, terminator included. -/
def chars (s : String) : List UInt8 := s.toUTF8.toList ++ [0]

/-- A pointer to a literal. -/
def literal (bs : List UInt8) : Mem := fun i => bs.getD i 0

/-! ### Loads through a pointer -/

theorem Mem.load_succ (m : Mem) (n : ℕ) : m.load 0 (n + 1) = m 0 :: (m.ptr 1).load 0 n := by
  apply List.ext_getElem
  · simp
  · rintro (_ | i) _ _
    · simp
    · simp [Mem.ptr, Nat.add_comm]

theorem Mem.load_ptr (m : Mem) (a n : ℕ) : (m.ptr a).load 0 n = m.load a n := by
  apply List.ext_getElem
  · simp
  · intro i _ _
    simp [Mem.ptr]

/-! ### Comparing with a string -/

/-- Strings that differ in their first byte. -/
theorem strcmp_of_first_ne {fuel : ℕ} {s t : Mem} (h : s 0 ≠ t 0) (hfuel : 0 < fuel) :
    ∃ d, d ≠ 0 ∧ strcmp fuel s t = some d := by
  obtain ⟨n, rfl⟩ : ∃ n, fuel = n + 1 := ⟨fuel - 1, by omega⟩
  refine ⟨(s 0).toNat - (t 0).toNat, ?_, ?_⟩
  · intro e
    exact h (UInt8.toNat.inj (by omega))
  · rw [strcmp, if_neg h]

/-- `strcmp` with a string of nonzero bytes `bs` stops at its terminator at the
latest, and finds it equal exactly if the same bytes are there, terminator
included. -/
theorem strcmp_of_load {bs : List UInt8} (hbs : 0 ∉ bs) :
    ∀ {fuel : ℕ} (_ : bs.length < fuel) (s t : Mem) (_ : t.load 0 (bs.length + 1) = bs ++ [0]),
      (strcmp fuel s t).isSome ∧
        (strcmp fuel s t = some 0 ↔ s.load 0 (bs.length + 1) = bs ++ [0]) := by
  induction bs with
  | nil =>
    rintro (_ | fuel) hfuel s t ht
    · exact absurd hfuel (by simp)
    have ht0 : t 0 = 0 := by simpa [Mem.load_succ, Mem.load] using ht
    rw [strcmp, Mem.load_succ, ht0]
    by_cases h : s 0 = 0
    · simp [h, Mem.load]
    · -- the string goes on where the other ends
      have hne : (s 0).toNat ≠ 0 := fun e => h (UInt8.toNat.inj e)
      simp [h, Mem.load, hne]
  | cons b bs ih =>
    rintro (_ | fuel) hfuel s t ht
    · exact absurd hfuel (by simp)
    have hb : b ≠ 0 := fun e => hbs (by simp [e])
    rw [List.length_cons, Mem.load_succ, List.cons_append, List.cons.injEq] at ht
    obtain ⟨ht0, htail⟩ := ht
    rw [strcmp, ht0, List.cons_append, List.length_cons, Mem.load_succ]
    by_cases h : s 0 = b
    · obtain ⟨hsome, hrec⟩ := ih (fun e => hbs (by simp [e]))
        (show bs.length < fuel by simpa using hfuel) (s.ptr 1) (t.ptr 1) htail
      rw [if_pos h, if_neg (by rw [h]; exact hb), hrec, List.cons.injEq]
      exact ⟨hsome, fun e => ⟨h, e⟩, fun e => e.2⟩
    · have hne : ((s 0).toNat : ℤ) - b.toNat ≠ 0 := by
        intro e
        exact h (UInt8.toNat.inj (by omega))
      rw [if_neg h]
      simp [h, hne]

theorem load_literal (bs : List UInt8) : (literal bs).load 0 bs.length = bs := by
  apply List.ext_getElem
  · simp
  · intro i _ hi
    simp [literal, hi]

/-- `strcmp` with a literal of nonzero bytes `bs`: equal exactly if the bytes of
the literal and its terminator are there. -/
theorem strcmp_literal {bs : List UInt8} (hbs : 0 ∉ bs) {fuel : ℕ} (hfuel : bs.length < fuel)
    (s : Mem) :
    strcmp fuel s (literal (bs ++ [0])) = some 0 ↔ s.load 0 (bs.length + 1) = bs ++ [0] := by
  have hload := load_literal (bs ++ [0])
  rw [List.length_append, List.length_singleton] at hload
  exact (strcmp_of_load hbs hfuel s _ hload).2

theorem strcmp_chars {s : String} (hs : 0 ∉ s.toUTF8.toList) {fuel : ℕ}
    (hfuel : s.toUTF8.toList.length < fuel) (m : Mem) :
    strcmp fuel m (literal (chars s)) = some 0 ↔ m.load 0 (chars s).length = chars s := by
  have hlen : (chars s).length = s.toUTF8.toList.length + 1 := by simp [chars]
  rw [hlen]
  exact strcmp_literal hs hfuel m

/-- The length of a string whose bytes are known. -/
theorem strlen_of_load {bs : List UInt8} (hbs : 0 ∉ bs) :
    ∀ {fuel : ℕ} (_ : bs.length < fuel) (s : Mem) (_ : s.load 0 (bs.length + 1) = bs ++ [0]),
      strlen fuel s = some bs.length := by
  induction bs with
  | nil =>
    rintro (_ | fuel) hfuel s hs
    · exact absurd hfuel (by simp)
    have h : s 0 = 0 := by simpa [Mem.load_succ, Mem.load] using hs
    simp [strlen, h]
  | cons b bs ih =>
    rintro (_ | fuel) hfuel s hs
    · exact absurd hfuel (by simp)
    have hb : b ≠ 0 := fun e => hbs (by simp [e])
    rw [List.length_cons, Mem.load_succ, List.cons_append, List.cons.injEq] at hs
    have hrec := ih (fun e => hbs (by simp [e])) (show bs.length < fuel by simpa using hfuel)
      (s.ptr 1) hs.2
    rw [strlen, if_neg (by rw [hs.1]; exact hb), hrec]
    rfl

theorem strlen_chars {s : String} (hs : 0 ∉ s.toUTF8.toList) {fuel : ℕ}
    (hfuel : s.toUTF8.toList.length < fuel) (m : Mem)
    (h : m.load 0 (chars s).length = chars s) :
    strlen fuel m = some s.toUTF8.toList.length := by
  have hlen : (chars s).length = s.toUTF8.toList.length + 1 := by simp [chars]
  rw [hlen] at h
  exact strlen_of_load hs hfuel m h

/-! ### Scanning byte by byte -/

section

variable {σ ρ : Type*} {step : σ → UInt8 → σ ⊕ ρ} {s : σ} {m m' : Mem} {n k : ℕ} {r : ρ}

/-- Feed the bytes to `step` until it gives a result. -/
def scan (step : σ → UInt8 → σ ⊕ ρ) : ℕ → σ → Mem → Option ρ
  | 0, _, _ => none
  | fuel + 1, s, m =>
    match step s (m 0) with
    | .inl t => scan step fuel t (m.ptr 1)
    | .inr r => some r

/-- More bytes to read make no difference to a scan that stops. -/
theorem scan_mono (h : scan step n s m = some r) (hk : n ≤ k) : scan step k s m = some r := by
  induction n generalizing s m k with
  | zero => cases h
  | succ n ih =>
    obtain ⟨k, rfl⟩ : ∃ j, k = j + 1 := ⟨k - 1, by omega⟩
    rw [scan] at h ⊢
    cases hstep : step s (m 0) with
    | inl t =>
      rw [hstep] at h
      exact ih h (by omega)
    | inr r' =>
      rw [hstep] at h
      exact h

/-- A scan depends on the bytes it may read. -/
theorem scan_congr (h : ∀ i < n, m i = m' i) : scan step n s m = scan step n s m' := by
  induction n generalizing s m m' with
  | zero => rfl
  | succ n ih =>
    rw [scan, scan, h 0 (Nat.succ_pos n)]
    cases step s (m' 0) with
    | inl t => exact ih fun i hi => h (1 + i) (by omega)
    | inr r => rfl

/-- A scan that has not stopped by then stops at a byte that no state accepts. -/
theorem scan_reject {c : UInt8} (hc : ∀ t, step t c = .inr r) (h : scan step n s m = none)
    (hm : m n = c) (hk : n < k) : scan step k s m = some r := by
  induction n generalizing s m k with
  | zero =>
    obtain ⟨k, rfl⟩ : ∃ j, k = j + 1 := ⟨k - 1, by omega⟩
    rw [scan, hm, hc]
  | succ n ih =>
    obtain ⟨k, rfl⟩ : ∃ j, k = j + 1 := ⟨k - 1, by omega⟩
    rw [scan] at h ⊢
    cases hstep : step s (m 0) with
    | inl t =>
      rw [hstep] at h
      exact ih h (by rw [Mem.ptr, Nat.add_comm]; exact hm) (by omega)
    | inr r' =>
      rw [hstep] at h
      cases h

end

end Lpc1768
