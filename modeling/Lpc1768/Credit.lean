/-
Lpc1768/Credit.lean

Events that have to be paid for.  The steps of a transition system emit events,
some of which earn and some of which spend; a credit `φ` on the states bounds what
can still be spent: a step that spends takes it from the credit, and only a step
that earns adds to it.

* `trace step emit s as`: the events of the run of `as` from `s`.
* `Credit step emit earn spend I φ`: where `I` holds, no step spends more than it
  earns and takes from the credit.

From this, what a run spends is at most what it earns and the credit it starts
with, at any moment of it (`Credit.count_take_trace_le`).  Where the credit is none
at the start, every event that spends can be matched to an earlier one that
earns, no two to the same one (`Credit.matched`).
-/
import Mathlib.Data.Nat.Nth
import Lpc1768.Transition

namespace Lpc1768

/-! ### Matching -/

section Matching

variable {p q : ℕ → Prop} [DecidablePred p] [DecidablePred q]

/-- Where up to every number there are no more `q` than `p`, and none is both, the
`q`s have different earlier `p`s: the first takes the first, and so on. -/
theorem exists_matching (hdisj : ∀ i, q i → ¬ p i)
    (hcount : ∀ n, Nat.count q n ≤ Nat.count p n) :
    ∃ f : ℕ → ℕ, (∀ i, q i → f i < i ∧ p (f i)) ∧ Set.InjOn f {i | q i} := by
  have hlt : ∀ i, q i → Nat.count q i < Nat.count p i := by
    intro i hi
    have hnext := hcount (i + 1)
    rw [Nat.count_succ, Nat.count_succ, if_pos hi, if_neg (hdisj i hi)] at hnext
    omega
  have hcard : ∀ i, q i → ∀ hf : (Set.ofPred p).Finite, Nat.count q i < hf.toFinset.card :=
    fun i hi hf => Nat.lt_of_lt_of_le (hlt i hi) (Nat.count_le_card hf i)
  refine ⟨fun i => Nat.nth p (Nat.count q i), fun i hi => ⟨?_, ?_⟩, fun i hi j hj he => ?_⟩
  · exact Nat.nth_lt_of_lt_count (hlt i hi)
  · exact Nat.nth_mem _ (hcard i hi)
  · have hsame := congrArg (Nat.count p) he
    simp only [Nat.count_nth (hcard i hi), Nat.count_nth (hcard j hj)] at hsame
    exact Nat.count_injective hi hj hsame

end Matching

/-! ### Traces -/

variable {σ α ε : Type*} {step : σ → α → Option σ} {emit : σ → α → Option ε}

/-- The events of a run; it stops at the first action that is not enabled. -/
def trace (step : σ → α → Option σ) (emit : σ → α → Option ε) : σ → List α → List ε
  | _, [] => []
  | s, a :: as =>
      match step s a with
      | none => []
      | some t => (emit s a).toList ++ trace step emit t as

theorem trace_cons_of_some {s t : σ} {a : α} {as : List α} (h : step s a = some t) :
    trace step emit s (a :: as) = (emit s a).toList ++ trace step emit t as := by
  simp only [trace, h]

theorem trace_cons_of_none {s : σ} {a : α} {as : List α} (h : step s a = none) :
    trace step emit s (a :: as) = [] := by
  simp only [trace, h]

variable [DecidableEq ε]

/-- The occurrences of an event up to number `n`. -/
theorem count_getElem?_eq (w : List ε) (x : ε) (n : ℕ) :
    Nat.count (fun i => w[i]? = some x) n = (w.take n).count x := by
  induction n with
  | zero => rw [Nat.count_zero, List.take_zero, List.count_nil]
  | succ n ih =>
      rw [Nat.count_succ, ih, List.take_add_one, List.count_append]
      congr 1
      rcases w[n]? with - | y
      · rfl
      · rw [Option.toList_some, List.count_singleton]
        simp only [Option.some_inj, beq_iff_eq]

/-! ### Credit -/

/-- Where `I` holds, a step spends no more than it earns and takes from the credit
`φ`, and `I` is kept. -/
structure Credit (step : σ → α → Option σ) (emit : σ → α → Option ε) (earn spend : ε)
    (I : σ → Prop) (φ : σ → ℕ) : Prop where
  inv : ∀ s a t, I s → step s a = some t → I t
  pays : ∀ s a t, I s → step s a = some t →
    (emit s a).toList.count spend + φ t ≤ φ s + (emit s a).toList.count earn

section Rules

variable {earn spend : ε} {I : σ → Prop} {φ : σ → ℕ}

/-- **Up to any event, a run has spent at most its credit and what it earned.** -/
theorem Credit.count_take_trace_le (h : Credit step emit earn spend I φ) {s : σ} (hs : I s)
    (as : List α) (n : ℕ) :
    ((trace step emit s as).take n).count spend ≤
      φ s + ((trace step emit s as).take n).count earn := by
  induction as generalizing s n with
  | nil =>
      rw [trace, List.take_nil, List.count_nil]
      exact Nat.zero_le _
  | cons a as ih =>
      rcases hstep : step s a with - | t
      · rw [trace_cons_of_none hstep, List.take_nil, List.count_nil]
        exact Nat.zero_le _
      have hpays := h.pays s a t hs hstep
      have hrest := ih (h.inv s a t hs hstep)
      rw [trace_cons_of_some hstep]
      rcases he : emit s a with - | e
      · rw [he] at hpays
        have := hrest n
        simp only [Option.toList_none, List.count_nil, List.nil_append] at hpays ⊢
        omega
      · rw [he, Option.toList_some] at hpays
        cases n with
        | zero =>
            rw [List.take_zero, List.count_nil]
            exact Nat.zero_le _
        | succ n =>
            have := hrest n
            rw [Option.toList_some, List.singleton_append, List.take_succ_cons,
              ← List.singleton_append, List.count_append, List.count_append]
            omega

/-- A run spends at most its credit and what it earns. -/
theorem Credit.count_trace_le (h : Credit step emit earn spend I φ) {s : σ} (hs : I s)
    (as : List α) :
    (trace step emit s as).count spend ≤ φ s + (trace step emit s as).count earn := by
  have hall := h.count_take_trace_le hs as (trace step emit s as).length
  rwa [List.take_length] at hall

/-- **Without credit, every event that spends is paid by an earlier one that earns,
and no two by the same one.** -/
theorem Credit.matched (h : Credit step emit earn spend I φ) (hne : spend ≠ earn) {s : σ}
    (hs : I s) (hzero : φ s = 0) (as : List α) :
    ∃ f : ℕ → ℕ,
      (∀ i, (trace step emit s as)[i]? = some spend →
        f i < i ∧ (trace step emit s as)[f i]? = some earn) ∧
      Set.InjOn f {i | (trace step emit s as)[i]? = some spend} := by
  refine exists_matching (p := fun i => (trace step emit s as)[i]? = some earn)
    (q := fun i => (trace step emit s as)[i]? = some spend) (fun i hspend hearn => ?_) fun n => ?_
  · exact hne (Option.some.inj (hspend.symm.trans hearn))
  · rw [count_getElem?_eq, count_getElem?_eq]
    have hle := h.count_take_trace_le hs as n
    rwa [hzero, Nat.zero_add] at hle

end Rules

end Lpc1768
